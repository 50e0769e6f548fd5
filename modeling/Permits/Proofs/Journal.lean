/-
  Journals — what each call of a caller sent, and what it wrote to the log of it.

  A caller keeps a **journal** (`Journal`): what it sent and what it wrote to the log, one page for
  each call that came back and for every other moment, and a page that is still open.

  1. **Exchanges** (`Exchange`): a command with its answer, and the one record that it leaves.  A push
     leaves the acknowledgment that it got, and a pop whether it got an entry; what fails leaves
     nothing.
  2. **Acquires and pushes** (`Demand.Met`, `Deposit.Met`): what a single acquire or a single push may
     write, together with its result.
  3. **Pages** (`Call.Logged`, `Moment.Logged`): a page is a row of exchanges.  The page of a call
     that acquires or pushes is what that acquire or push wrote, and its result tells the same.
  4. **Operations** (`Op.Writes`): one rule for each function.  The record of an answer is still owed
     while the timer stops, so what holds all along is that a row of exchanges has been written
     and perhaps one more exchange has begun (`Exchange.Begun`).
  5. **Routines** (`Journal.Clear.routine`): every page of every caller is as it should be, whatever is
     answered.
-/
import Permits.Proofs.Account.Operations
import Permits.Proofs.Demands

namespace Permits

open Number Text
open Course (Event)

/-! ## Exchanges -/

/-- A command with its answer and the record that it leaves, or the record of commands on offer. -/
inductive Exchange : List Event → Prop where
  | pushed (s : ListStore) (n : Name) (entry reply : Value) :
      Exchange [.sent s (.push n entry) (.ok reply), .noted (.pushed s.style n reply)]
  | acquired (s : ListStore) (n : Name) (x : Double) (e : Bytes) (ms : Int) :
      Exchange [.sent s (.popFor n x) (.ok ((Command.popFor n x).handing e)),
        .noted (.acquired n ms)]
  | timedOut (s : ListStore) (n : Name) (x : Double) (ms : Int) :
      Exchange [.sent s (.popFor n x) (.ok .none), .noted (.timedOut n ms)]
  | counted (s : ListStore) (n : Name) (reply : Value) : Exchange [.sent s (.length n) (.ok reply)]
  | failed (s : ListStore) (c : Command) (f : Failure) : Exchange [.sent s c (.error f)]
  | offered (registrar : Except Refusal String) : Exchange [.noted (.registered registrar)]

namespace Exchange

/-- Is it one exchange after the other, each with its record before the next begins? -/
inductive Row : List Event → Prop where
  | nil : Row []
  | snoc {es x : List Event} (h : Row es) (hx : Exchange x) : Row (es ++ x)

/-- Is it a row of exchanges, and perhaps an answer of which the record is still owed? -/
inductive Begun : List Event → Prop where
  | row {es : List Event} (h : Row es) : Begun es
  | owing {es : List Event} {e : Event} {r : Record} (h : Row es) (hx : Exchange [e, .noted r]) :
      Begun (es ++ [e])

theorem row {x : List Event} (h : Exchange x) : Row x := Row.snoc .nil h

theorem Row.append {es later : List Event} (h : Row es) (hl : Row later) : Row (es ++ later) := by
  induction hl with
  | nil => rwa [List.append_nil]
  | snoc _ hx ih =>
    rw [← List.append_assoc]
    exact ih.snoc hx

end Exchange

/-! ## Acquires and pushes -/

/-- What an acquire may write, with its result: the pop got an entry, or nothing in time, or failed. -/
inductive Acquires (n : Name) (x : Double) : List Event → Except Failure Value → Prop where
  | got (s : ListStore) (e : Bytes) (ms : Int) :
      Acquires n x [.sent s (.popFor n x) (.ok ((Command.popFor n x).handing e)),
        .noted (.acquired n ms)] (.ok (.bytes e))
  | missed (s : ListStore) (ms : Int) :
      Acquires n x [.sent s (.popFor n x) (.ok .none), .noted (.timedOut n ms)] (.ok .none)
  | failed (s : ListStore) (f : Failure) :
      Acquires n x [.sent s (.popFor n x) (.error f)] (.error (s.style.raised f))

/-- What a push may write, with its result: it was acknowledged or failed. -/
inductive Deposits (n : Name) (entry : Value) : List Event → Except Failure Value → Prop where
  | kept (s : ListStore) (reply : Value) :
      Deposits n entry [.sent s (.push n entry) (.ok reply), .noted (.pushed s.style n reply)]
        (.ok reply)
  | failed (s : ListStore) (f : Failure) :
      Deposits n entry [.sent s (.push n entry) (.error f)] (.error (s.style.raised f))

theorem Acquires.row {n : Name} {x : Double} {es : List Event} {r : Except Failure Value}
    (h : Acquires n x es r) : Exchange.Row es := by
  cases h with
  | got s e ms => exact (Exchange.acquired s n x e ms).row
  | missed s ms => exact (Exchange.timedOut s n x ms).row
  | failed s f => exact (Exchange.failed s _ f).row

theorem Deposits.row {n : Name} {entry : Value} {es : List Event} {r : Except Failure Value}
    (h : Deposits n entry es r) : Exchange.Row es := by
  cases h with
  | kept s reply => exact (Exchange.pushed s n entry reply).row
  | failed s f => exact (Exchange.failed s _ f).row

/-- What comes of a demand: an acquire, or nothing at all if something is refused. -/
def Demand.Met (d : Demand) (es : List Event) (r : Except Failure Value) : Prop :=
  match d.name, Duration.seconds d.duration with
  | .ok n, .ok x => Acquires n x es r
  | .ok _, .error f | .error f, _ => es = [] ∧ ∃ style : Style, r = .error (style.raised f)

/-- A push that a call is to make: onto which list, and of what. -/
structure Deposit where
  name : Except Failure Name
  entry : Value

/-- What comes of a deposit: a push, or nothing at all if the name is refused. -/
def Deposit.Met (d : Deposit) (es : List Event) (r : Except Failure Value) : Prop :=
  match d.name with
  | .ok n => Deposits n d.entry es r
  | .error f => es = [] ∧ r = .error f

/-- The push that a command is to make with arguments. -/
def HostCommand.deposit? : HostCommand → List Value → Option Deposit
  | inc _, [name] => some ⟨Name.check name, permit⟩
  | _, _ => none

/-- The push that a registered command is to make. -/
def Registrar.deposit? (r : Registrar) (name : Value) (args : List Value) : Option Deposit :=
  match r.command name with
  | .ok c => c.deposit? args
  | .error _ => none

/-! ## Pages -/

namespace Call

/-- The push that a call is to make, if it is one that makes just one push. -/
def deposit? : Call → Option Deposit
  | push _ name entry => some ⟨Name.check name, entry⟩
  | release _ name => some ⟨Name.check name, permit⟩
  | exit s => some ⟨.ok s.name, permit⟩
  | command r name args => r.deposit? name args
  | blockingPop .. | length .. | acquire .. | create .. | mint .. | value _ | locked _
  | acquirePermit .. | releasePermits .. | enter _ | register .. => none

/-- What a call makes of the result of its acquire or its push. -/
def Tells : (c : Call) → Except Failure Value → Except Failure c.Result → Prop
  | push .., v, r | blockingPop .., v, r | release .., v, r | acquire .., v, r | command .., v, r =>
    r = v
  | acquirePermit .., v, r => r = v.map Semaphore.isEntry
  | enter s, v, r => r = s.admission v
  | exit _, v, r => r = v.map fun _ => ()
  | length .., _, _ | create .., _, _ | mint .., _, _ | value _, _, _ | locked _, _, _
  | releasePermits .., _, _ | register .., _, _ => True

/-- Is a page as a call that ends so should leave it?  It is a row of exchanges; if the call is to
    acquire, or to push once, it is what comes of that, and the result tells what came of it. -/
structure Logged (c : Call) (page : List Event) (r : Except Failure c.Result) : Prop where
  row : Exchange.Row page
  acquires : ∀ d, c.demand? = some d → ∃ v, d.Met page v ∧ c.Tells v r
  pushes : ∀ d, c.deposit? = some d → ∃ v, d.Met page v ∧ c.Tells v r

/-- Is a call one that leaves records of what it pops?  A bare pop leaves none, and of a host's own
    commands nothing is known. -/
def IsAudited : Call → Prop
  | blockingPop .. => False
  | command r name _ => ∀ run, r.command name ≠ .ok (.custom run)
  | _ => True

end Call

/-- Is a page as a moment should find it?  Between the moments of a block a page is what its entering
    or its leaving wrote. -/
def Moment.Logged (page : List Event) : Moment → Prop
  | returned c r => c.Logged page r
  | opened _ | left .. => page = []
  | entered s => (Call.enter s).Logged page (.ok ())
  | closed s r => (∃ f, (Call.enter s).Logged page (.error f) ∧ r = .error f) ∨
      ∃ result exited, (Call.exit s).Logged page exited ∧ r = Semaphore.blockResult result exited

/-! ## Journals -/

/-- What a caller sent and what it wrote to the log. -/
structure Journal where
  /-- What was written before each moment and after the one before. -/
  pages : List (List Event × Moment) := []
  /-- What was written since the last moment. -/
  page : List Event := []

namespace Journal

/-- The journal after one more event. -/
def update (g : Journal) : Event → Journal
  | .moment m => { pages := g.pages ++ [(g.page, m)], page := [] }
  | e => if e.isQuiet then g else { g with page := g.page ++ [e] }

/-- The account that consists of a journal. -/
def ledger : Ledger Journal where
  update := update
  quiet _ _ _ h := if_pos h

/-- The journal with more on its open page. -/
def write (g : Journal) (es : List Event) : Journal := { g with page := g.page ++ es }

theorem write_nil (g : Journal) : g.write [] = g := by
  rw [write, List.append_nil]

theorem write_write (g : Journal) (es later : List Event) :
    (g.write es).write later = g.write (es ++ later) := by
  rw [write, write, write, List.append_assoc]

/-- What holds all along: the pages are as they should be, and the open one is under way. -/
structure Sound (g : Journal) : Prop where
  logged : ∀ p ∈ g.pages, p.2.Logged p.1
  begun : Exchange.Begun g.page

/-- What holds between two operations: the open page is a row of exchanges. -/
structure Even (g : Journal) : Prop where
  logged : ∀ p ∈ g.pages, p.2.Logged p.1
  row : Exchange.Row g.page

/-- What holds between two calls: nothing is on the open page. -/
structure Clear (g : Journal) : Prop where
  logged : ∀ p ∈ g.pages, p.2.Logged p.1
  page_eq : g.page = []

variable {g : Journal} {es : List Event}

theorem Even.sound (h : g.Even) : g.Sound := ⟨h.logged, .row h.row⟩

theorem Even.write (h : g.Even) (hes : Exchange.Row es) : (g.write es).Even :=
  ⟨h.logged, h.row.append hes⟩

theorem Even.owing (h : g.Even) {e : Event} {r : Record} (hx : Exchange [e, .noted r]) :
    (g.write [e]).Sound :=
  ⟨h.logged, .owing h.row hx⟩

/-- Once its record is written nothing is owed any more. -/
theorem Even.noted (h : g.Even) {e : Event} {r : Record} (row : Exchange.Row [e, .noted r]) :
    ((g.write [e]).write [.noted r]).Sound := by
  rw [write_write]
  exact (h.write row).sound

theorem Clear.even (h : g.Clear) : g.Even := ⟨h.logged, h.page_eq ▸ .nil⟩

/-- A page that is as it should be is turned. -/
theorem Clear.turn (h : g.Clear) {m : Moment} (hm : m.Logged es) :
    (ledger.update (g.write es) (.moment m)).Clear where
  logged p hp := by
    rcases List.mem_append.mp hp with hp | hp
    · exact h.logged p hp
    · obtain rfl := List.mem_singleton.mp hp
      show m.Logged (g.page ++ es)
      rwa [h.page_eq, List.nil_append]
  page_eq := rfl

end Journal

/-! ## Operations -/

/-- Does an operation write a row of exchanges, which is as the rule says for its result?  At every
    moment in between at most one record is owed. -/
def Op.Writes {α : Type} (k : Conditions) (rule : List Event → Except Failure α → Prop) (op : Op α) :
    Prop :=
  ∀ g : Journal, g.Even → (Course.perform op).Always k.Admits Journal.ledger Journal.Sound
    (fun r g' => ∃ es, g' = g.write es ∧ Exchange.Row es ∧ rule es r) g

namespace Op

variable {α β : Type} {k : Conditions} {rule rule' : List Event → Except Failure α → Prop}

/-- The rule that any row of exchanges goes by. -/
abbrev Anything (_ : List Event) (_ : Except Failure α) : Prop := True

theorem Writes.mono {op : Op α} (h : op.Writes k rule)
    (hr : ∀ es r, Exchange.Row es → rule es r → rule' es r) : op.Writes k rule' := by
  intro g hg
  refine (h g hg).mono ?_
  rintro r _ - ⟨es, rfl, row, told⟩
  exact ⟨es, rfl, row, hr es r row told⟩

/-- What has ended writes nothing. -/
theorem writes_done {result : Except Failure α} (h : rule [] result) : (done result).Writes k rule :=
  fun g hg => ⟨hg.sound, [], g.write_nil.symm, .nil, h⟩

/-- Where it is not said how, operations in sequence write what they write one after the other. -/
theorem Writes.bind {op : Op α} {f : α → Op β} (h : op.Writes k rule)
    (hf : ∀ a, (f a).Writes k Anything) : (op >>= f).Writes k Anything := by
  intro g hg
  refine Course.always_perform_bind ((h g hg).mono ?_)
  rintro r _ - ⟨es, rfl, row, -⟩
  cases r with
  | error e => exact ⟨es, rfl, row, trivial⟩
  | ok a =>
    refine (hf a _ (hg.write row)).mono ?_
    rintro r _ - ⟨later, rfl, rest, -⟩
    exact ⟨es ++ later, g.write_write es later, row.append rest, trivial⟩

/-- Who waits for an operation writes what the operation writes. -/
theorem Writes.waitedFor {op : Op α} (h : op.Writes k rule) (style : Style) :
    (op.waitedFor style).Writes k Anything := by
  intro g hg
  refine Course.always_waitedFor ((h g hg).mono ?_)
  rintro r _ - ⟨es, rfl, row, -⟩
  exact ⟨es, rfl, row, trivial⟩

theorem writes_check {result : Except Failure β} {f : β → Op α}
    (hok : ∀ b, result = .ok b → (f b).Writes k rule)
    (herror : ∀ e, result = .error e → rule [] (.error e)) :
    (ofExcept result >>= f).Writes k rule := by
  cases h : result with
  | ok b => exact hok b h
  | error e => exact writes_done (herror e h)

/-- Where it is not said how, a check does not matter. -/
theorem Writes.check {result : Except Failure β} {f : β → Op α} (h : ∀ b, (f b).Writes k Anything) :
    (ofExcept result >>= f).Writes k Anything :=
  writes_check (fun b _ => h b) fun _ _ => trivial

/-- What neither sends nor writes leaves the page as it is. -/
theorem writes_of_quiet {op : Op α} (h : op.All (·.isQuiet = true)) : op.Writes k Anything := by
  intro g hg
  refine (Course.always_of_all (I := (· = g)) h (fun g' r a hr _ hg' => ?_) ?_ rfl).mono ?_
  · exact (Journal.ledger.quiet g' r a hr).trans hg'
  · rintro _ rfl
    exact hg.sound
  · rintro r _ - rfl
    exact ⟨[], (Journal.write_nil _).symm, .nil, trivial⟩

end Op

open Op

variable {k : Conditions}

namespace ListStore

/-- A push leaves one record once it is acknowledged, and none if it fails. -/
theorem writes_push (s : ListStore) (n : Name) (entry : Value) :
    (s.push n entry).Writes k (Deposits n entry) := by
  intro g hg
  refine Course.always_push hg.sound fun a _ => ?_
  cases a with
  | ok reply =>
    have kept : Deposits n entry _ _ := .kept s reply
    have written := hg.noted kept.row
    exact ⟨hg.owing (.pushed s n entry reply), written, _, g.write_write [_] [_], kept.row, kept⟩
  | error f =>
    have failed : Deposits n entry _ _ := .failed s f
    exact ⟨(hg.write failed.row).sound, _, rfl, failed.row, failed⟩

/-- To ask for a length leaves no record. -/
theorem writes_length (s : ListStore) (n : Name) : (s.length n).Writes k Anything := by
  have sent : (s.send (.length n)).Writes k Anything := by
    intro g hg
    have row : ∀ a, Exchange.Row [.sent s (.length n) a] := by
      intro a
      cases a with
      | ok reply => exact (Exchange.counted s n reply).row
      | error f => exact (Exchange.failed s _ f).row
    exact Course.always_send hg.sound fun a _ => ⟨(hg.write (row a)).sound, _, rfl, row a, trivial⟩
  rw [s.length_eq]
  exact sent.bind fun reply => writes_done trivial

end ListStore

theorem writes_release (s : ListStore) (n : Name) : (release s n).Writes k (Deposits n permit) := by
  rw [release_eq]
  exact s.writes_push n permit

/-! ## Acquires -/

theorem Demand.met_of_ok {d : Demand} {n : Name} {x : Double} (hn : d.name = .ok n)
    (hx : Duration.seconds d.duration = .ok x) : d.Met = Acquires n x := by
  funext es r
  rw [Demand.Met, hn, hx]

/-- However a pop ends, the record that its acquire still owes is told by what it came to. -/
theorem Journal.Even.popped {g : Journal} (h : g.Even) {s : ListStore} {n : Name} {x : Double}
    {a r : Except Failure Value} (hr : k.Popped s.style (.popFor n x) a r)
    {post : Except Failure Value → Journal → Prop}
    (hp : ∀ es, Acquires n x es r → post r (g.write es)) :
    (ledger.update g (.sent s (.popFor n x) a)).Sound ∧
      Course.Acquired ledger Sound post n (ledger.update g (.sent s (.popFor n x) a)) r := by
  have noted : ∀ {e : Event} {record : Record}, Acquires n x [e, .noted record] r →
      ((g.write [e]).write [.noted record]).Sound ∧ post r ((g.write [e]).write [.noted record]) := by
    intro e record acquires
    refine ⟨h.noted acquires.row, ?_⟩
    rw [g.write_write]
    exact hp _ acquires
  cases hr with
  | entry e => exact ⟨h.owing (.acquired s n x e 0), fun ms => noted (.got s e ms)⟩
  | nothing => exact ⟨h.owing (.timedOut s n x 0), fun ms => noted (.missed s ms)⟩
  | raised hf => exact ⟨(h.write (Acquires.failed s _).row).sound, hp _ (.failed s _)⟩

/-- **An acquire leaves one record once it returns, and none if it fails.** -/
theorem writes_acquireFrom (s : ListStore) (name : Except Failure Name) (duration : Value) :
    (acquireFrom s name duration).Writes k (Demand.Met ⟨name, duration⟩) := by
  intro g hg
  -- What is refused writes nothing at all.
  have refused : ∀ {f : Failure}, Demand.Met ⟨name, duration⟩ [] (.error f) →
      ∃ es, g = g.write es ∧ Exchange.Row es ∧ Demand.Met ⟨name, duration⟩ es (.error f) := by
    intro f told
    exact ⟨[], g.write_nil.symm, .nil, told⟩
  cases name with
  | error f => exact Course.always_acquireFrom_error hg.sound (refused ⟨rfl, _, rfl⟩)
  | ok n =>
    cases hd : Duration.seconds duration with
    | error f =>
      refine Course.always_acquire_error hd hg.sound (refused ?_)
      rw [Demand.Met, hd]
      exact ⟨rfl, _, rfl⟩
    | ok x =>
      rw [Demand.met_of_ok rfl hd]
      exact Course.always_acquire hd hg.sound fun a r hr =>
        hg.popped hr fun es acquires => ⟨es, rfl, acquires.row, acquires⟩

namespace Semaphore

theorem writes_acquire (s : Semaphore) (blocking timeout : Value) :
    (s.acquire blocking timeout).Writes k fun es r =>
      ∃ v, Demand.Met ⟨.ok s.name, s.waitFor blocking timeout⟩ es v ∧ r = v.map isEntry := by
  intro g hg
  cases hd : Duration.seconds (s.waitFor blocking timeout) with
  | error f =>
    have refused : Demand.Met ⟨.ok s.name, s.waitFor blocking timeout⟩ []
        (.error (s.store.style.raised f)) := by
      rw [Demand.Met, hd]
      exact ⟨rfl, _, rfl⟩
    exact Course.always_acquirePermit_error hd hg.sound
      ⟨[], g.write_nil.symm, .nil, _, refused, rfl⟩
  | ok x =>
    rw [Demand.met_of_ok rfl hd]
    exact Course.always_acquirePermit hd hg.sound fun a r hr =>
      hg.popped hr fun es acquires => ⟨es, rfl, acquires.row, r, acquires, rfl⟩

theorem writes_enter (s : Semaphore) :
    s.enter.Writes k fun es r =>
      ∃ v, Demand.Met ⟨.ok s.name, .float s.timeout⟩ es v ∧ r = s.admission v := by
  intro g hg
  rw [Demand.met_of_ok rfl (Duration.seconds_float s.timeout_finite)]
  exact always_enter hg.sound fun a r hr =>
    hg.popped hr fun es acquires => ⟨es, rfl, acquires.row, r, acquires, rfl⟩

/-! ## Semaphores -/

theorem writes_value (s : Semaphore) : s.value.Writes k Anything := by
  rw [s.value_eq]
  exact s.store.writes_length s.name

theorem writes_locked (s : Semaphore) : s.locked.Writes k Anything := by
  rw [s.locked_eq]
  exact s.writes_value.bind fun _ => writes_done trivial

theorem writes_exit (s : Semaphore) :
    s.exit.Writes k fun es r => ∃ v, Deposits s.name permit es v ∧ r = v.map fun _ => () := by
  rw [exit_eq_push]
  intro g hg
  refine Course.always_perform_bind ((s.store.writes_push s.name permit g hg).mono ?_)
  rintro v _ sound ⟨es, rfl, row, deposits⟩
  cases v with
  | ok reply => exact ⟨sound, es, rfl, row, .ok reply, deposits, rfl⟩
  | error f => exact ⟨es, rfl, row, .error f, deposits, rfl⟩

theorem writes_releaseTimes (s : Semaphore) : ∀ n, (s.releaseTimes n).Writes k Anything
  | 0 => writes_done trivial
  | 1 => (writes_release s.store s.name).mono fun _ _ _ _ => trivial
  | n + 2 => (writes_release s.store s.name).bind fun _ => s.writes_releaseTimes (n + 1)

theorem writes_releasePermits (s : Semaphore) (n : Value) : (s.release n).Writes k Anything := by
  rw [s.release_eq]
  exact Writes.check s.writes_releaseTimes

theorem writes_create (options : Options) (name : Value) : (create options name).Writes k Anything := by
  refine writes_of_quiet ((all_create options name).mono ?_)
  rintro r ⟨c, rfl⟩
  rfl

end Semaphore

theorem Identifier.writes_mint (source : SourceRef) : (mint source).Writes k Anything := by
  refine writes_of_quiet ((all_mint source).mono ?_)
  rintro r rfl
  rfl

/-- To fill a semaphore is to push, one permit after the other, whoever waits for the last push. -/
theorem Semaphore.writes_fill (style : Style) (s : Semaphore) (value : Value) :
    (fill style s value).Writes k Anything := by
  unfold fill
  split
  · exact (s.writes_releasePermits value).bind fun _ => writes_done trivial
  · unfold Mixed.releaseUnseen Mixed.release
    cases s.store.style with
    | direct =>
      refine (Writes.check fun _ => ?_).bind fun _ => writes_done trivial
      exact ((writes_release s.store s.name).bind fun _ => writes_done trivial).waitedFor .awaited
    | awaited => exact Writes.check fun _ => writes_done trivial

theorem Semaphore.writes_mint (options : Options) (source : SourceRef) (value : Value) :
    (mint options source value).Writes k Anything := by
  rw [mint_eq]
  refine Writes.check fun negative => ?_
  split
  · exact writes_done trivial
  · refine (Identifier.writes_mint source).bind fun name => ?_
    refine ((writes_create options (.text name)).waitedFor options.style).bind fun s => ?_
    split
    · exact (writes_fill options.style s value).bind fun _ => writes_done trivial
    · exact writes_done trivial

theorem Registrar.writes_offer (r : Registrar) (commands : List (Value × HostCommand)) :
    (r.offer commands).Writes k Anything := by
  have logged (shown : Except Refusal String) : (Op.log (.registered shown)).Writes k Anything := by
    intro g hg
    have row := (Exchange.offered shown).row
    exact Course.always_log hg.sound (hg.write row).sound ⟨_, rfl, row, trivial⟩
  unfold offer
  split
  · exact (logged _).bind fun _ => writes_done trivial
  · exact writes_done trivial

/-! ## Calls -/

/-- A push onto the list that a value names. -/
theorem writes_named {name entry : Value} {op : Name → Op Value}
    (h : ∀ n, (op n).Writes k (Deposits n entry)) :
    (Op.named name op).Writes k (Deposit.Met ⟨Name.check name, entry⟩) := by
  refine writes_check (fun n hn => ?_) fun f hf => ?_
  · refine (h n).mono fun es r _ deposits => ?_
    rw [Deposit.Met, hn]
    exact deposits
  · rw [Deposit.Met, hf]
    exact ⟨rfl, rfl⟩

/-- A registered command that has a deposit is a release. -/
theorem Registrar.call_of_deposit {r : Registrar} {name : Value} {args : List Value} {d : Deposit}
    (h : r.deposit? name args = some d) :
    ∃ store n, d = ⟨Name.check n, permit⟩ ∧ r.call name args = .named n (release store) := by
  unfold deposit? at h
  split at h
  · next c hc =>
    unfold HostCommand.deposit? at h
    split at h
    · next store n =>
      cases h
      refine ⟨store, n, rfl, ?_⟩
      rw [call, hc]
      exact HostCommand.run_inc store n
    · cases h
  · cases h

namespace Call

variable {c : Call}

/-- No call both acquires and pushes. -/
theorem deposit?_of_demand {d : Demand} (h : c.demand? = some d) : c.deposit? = none := by
  cases c with
  | push | length | release | create | mint | value | locked | releasePermits | exit | register =>
    cases h
  | blockingPop | acquire | acquirePermit | enter => rfl
  | command r name args =>
    change r.demand? name args = some d at h
    show r.deposit? name args = none
    unfold Registrar.demand? at h
    unfold Registrar.deposit?
    cases hc : r.command name with
    | error f => rfl
    | ok c =>
      rw [hc] at h
      cases c with
      | dec store => rfl
      | new | inc | custom => cases h

theorem writes_of_demand {d : Demand} (hd : c.demand? = some d)
    (h : c.op.Writes k fun es r => ∃ v, d.Met es v ∧ c.Tells v r) : c.op.Writes k c.Logged := by
  refine h.mono fun es r row told => ⟨row, fun d' hd' => ?_, fun d' hp => ?_⟩
  · cases hd.symm.trans hd'
    exact told
  · cases (deposit?_of_demand hd).symm.trans hp

theorem writes_of_deposit {d : Deposit} (hp : c.deposit? = some d)
    (h : c.op.Writes k fun es r => ∃ v, d.Met es v ∧ c.Tells v r) : c.op.Writes k c.Logged := by
  refine h.mono fun es r row told => ⟨row, fun d' hd => ?_, fun d' hp' => ?_⟩
  · cases hp.symm.trans (deposit?_of_demand hd)
  · cases hp.symm.trans hp'
    exact told

/-- A call that neither acquires nor pushes just once may write any row. -/
theorem writes_of_none (hd : c.demand? = none) (hp : c.deposit? = none)
    (h : c.op.Writes k Anything) : c.op.Writes k c.Logged := by
  refine h.mono fun es r row _ => ⟨row, fun d hd' => ?_, fun d hp' => ?_⟩
  · cases hd.symm.trans hd'
  · cases hp.symm.trans hp'

/-- A registered command acquires, or pushes, or does neither. -/
theorem writes_command {r : Registrar} {name : Value} {args : List Value}
    (own : (Call.command r name args).IsOwn) :
    (Call.command r name args).op.Writes k (Call.command r name args).Logged := by
  cases hd : r.demand? name args with
  | some d =>
    refine writes_of_demand hd ?_
    obtain ⟨store, heq⟩ := Registrar.call_of_demand hd
    show (r.call name args).Writes k _
    rw [heq]
    exact (writes_acquireFrom store d.name d.duration).mono fun es v _ met => ⟨v, met, rfl⟩
  | none =>
    cases hp : r.deposit? name args with
    | some d =>
      refine writes_of_deposit hp ?_
      obtain ⟨store, n, rfl, heq⟩ := Registrar.call_of_deposit hp
      show (r.call name args).Writes k _
      rw [heq]
      exact (writes_named (writes_release store)).mono fun es v _ met => ⟨v, met, rfl⟩
    | none =>
      refine writes_of_none hd hp ?_
      show (r.call name args).Writes k Anything
      refine Registrar.call_cases own (fun f => writes_done trivial) (fun source _ => ?_)
        (fun store n _ _ => ?_) fun store n duration _ _ => ?_
      · exact (Identifier.writes_mint source).bind fun _ => writes_done trivial
      · exact (writes_named (writes_release store)).mono fun _ _ _ _ => trivial
      · exact (writes_acquireFrom store _ duration).mono fun _ _ _ _ => trivial

/-- **Whatever a call is answered, its page is as it should be.** -/
theorem writes_logged (hc : c.IsAudited) : c.op.Writes k c.Logged := by
  cases c with
  | blockingPop => exact hc.elim
  | push s name entry =>
    refine writes_of_deposit rfl ?_
    rw [op_push]
    exact (writes_named fun n => s.writes_push n entry).mono fun es v _ met => ⟨v, met, rfl⟩
  | release s name =>
    refine writes_of_deposit rfl ?_
    rw [op_release]
    exact (writes_named (writes_release s)).mono fun es v _ met => ⟨v, met, rfl⟩
  | acquire s name duration =>
    exact writes_of_demand rfl
      ((writes_acquireFrom s (Name.check name) duration).mono fun es v _ met => ⟨v, met, rfl⟩)
  | acquirePermit s blocking timeout => exact writes_of_demand rfl (s.writes_acquire blocking timeout)
  | enter s => exact writes_of_demand rfl s.writes_enter
  | exit s => exact writes_of_deposit rfl s.writes_exit
  | command r name args => exact writes_command hc
  -- The other calls push any number of times, or not at all.
  | length s name =>
    refine writes_of_none rfl rfl ?_
    rw [op_length]
    exact Writes.check s.writes_length
  | create options name => exact writes_of_none rfl rfl (Semaphore.writes_create options name)
  | mint options source value =>
    exact writes_of_none rfl rfl (Semaphore.writes_mint options source value)
  | value s => exact writes_of_none rfl rfl s.writes_value
  | locked s => exact writes_of_none rfl rfl s.writes_locked
  | releasePermits s count => exact writes_of_none rfl rfl (s.writes_releasePermits count)
  | register r s source => exact writes_of_none rfl rfl (r.writes_offer _)

end Call

/-! ## Blocks and routines -/

namespace Journal

variable {g : Journal}

/-- A block turns the page when it is entered, when its body has ended, and when it is closed. -/
theorem Clear.block (h : g.Clear) (s : Semaphore) {body : Course (Except Failure Unit)}
    (hb : ∀ g : Journal, g.Clear → body.Always k.Admits ledger Sound (fun _ g => g.Clear) g) :
    (Routine.block s body).Always k.Admits ledger Sound (fun _ g => g.Clear) g := by
  have turn {g : Journal} (h : g.Clear) {m : Moment} (hm : m.Logged []) :
      (ledger.update g (.moment m)).Clear := g.write_nil ▸ h.turn hm
  have closed {g : Journal} {es : List Event} {r : Except Failure Unit} (h : g.Clear)
      (hm : (Moment.closed s r).Logged es) :
      Semaphore.Closed ledger Sound (fun _ g => g.Clear) s r (g.write es) :=
    ⟨(h.turn hm).even.sound, h.turn hm⟩
  have opened := turn h (m := .opened s) rfl
  refine Semaphore.always_block h.even.sound ?_
  refine (Call.writes_logged (c := .enter s) trivial _ opened.even).mono ?_
  rintro r _ - ⟨es, rfl, -, entered⟩
  cases r with
  | error f => exact closed opened (.inl ⟨f, entered, rfl⟩)
  | ok u =>
    refine (hb _ (opened.turn (m := .entered s) entered)).mono fun result g _ hg => ?_
    have left := turn hg (m := .left s result) rfl
    refine (Call.writes_logged (c := .exit s) trivial _ left.even).mono ?_
    rintro exited _ - ⟨es, rfl, -, exits⟩
    exact closed left (.inr ⟨result, exited, exits, rfl⟩)

/-- **Every page of a routine is as it should be**, whatever the routine is answered. -/
theorem Clear.routine (h : g.Clear) {p : Routine} (hp : p.Only Call.IsAudited) :
    p.course.Always k.Admits ledger Sound (fun _ g => g.Clear) g := by
  refine Course.always_routine (ι := Unit) (I := fun _ (g : Journal) => g.Clear)
    (fun _ _ h => h.even.sound) (fun c hc _ g hg => ?_) (fun s _ hb _ g h => h.block s (hb ())) hp
    (j := ()) h
  refine (Call.writes_logged hc g hg.even).mono ?_
  rintro r _ - ⟨es, rfl, -, logged⟩
  exact hg.turn logged

end Journal

end Permits
