/-
  Receipts — what each call of a caller took, and what its result tells of it.

  A caller keeps its **receipts** (`Receipts`): what its pops took since its last call came back, and
  for every call that came back and every other moment what had been taken by then.  A receipt is
  in order (`Moment.Accounts`) if the result tells what was taken: one entry of the call's list if
  it says so, and nothing otherwise.

  1. **Pops** (`Receipts.Even.popped`): however a pop ends, its result tells what it took.
  2. **Calls** (`Receipts.Even.call`): whatever a call is answered, its receipt is in order.  Nearly
     all calls take nothing (`Receipts.Even.idle`); the five that do are gone through one by one.
  3. **Blocks and routines** (`Receipts.Even.block`, `Receipts.Even.routine`): a block takes its entry
     before its body begins and nothing on its own afterwards.
  4. **Events** (`Receipts.read_taken`): whatever was taken is in the receipts, once.
-/
import Permits.Proofs.Account.Commands
import Permits.Proofs.Account.Operations
import Permits.Proofs.World.Conservation

namespace Permits

open Text
open Course (Event)

/-! ## What results tell -/

namespace Call

/-- The key of the list that a call may take an entry from. -/
def source : Call → Option Bytes
  | blockingPop _ name _ | acquire _ name _ | command _ _ [name, _] =>
    (Name.check name).toOption.map Name.key
  | acquirePermit s .. | enter s => some s.name.key
  | _ => none

/-- Does a result say that the call took an entry, and which one if it says so? -/
def Shows : (c : Call) → Except Failure c.Result → Bytes → Prop
  | blockingPop .., r, e | acquire .., r, e | command .., r, e => r = .ok (.bytes e)
  | acquirePermit .., r, _ => r = .ok true
  | enter _, r, _ => r = .ok ()
  | _, _, _ => False

/-- Does a call exchange permits only?  A push of anything else and a host's own commands are left
    out. -/
def Exchanges : Call → Prop
  | push .. => False
  | command r .. => ∀ name run, r.command name ≠ .ok (.custom run)
  | _ => True

end Call

/-- Does a moment account for what was taken before it?  A call does if its result tells of it, and
    the beginning of a body tells of one entry. -/
def Moment.Accounts (taken : List (Bytes × Bytes)) : Moment → Prop
  | returned c r =>
    (∃ key e, c.source = some key ∧ c.Shows r e ∧ taken = [(key, e)]) ∨
      (taken = [] ∧ ∀ e, ¬c.Shows r e)
  | entered s => ∃ e, taken = [(s.name.key, e)]
  | opened _ | left .. | closed .. => taken = []

/-! ## Receipts -/

/-- What was taken for a caller and given by it. -/
structure Receipts where
  /-- What was taken before each moment and after the one before. -/
  settled : List (List (Bytes × Bytes) × Moment) := []
  /-- What was taken since the last moment. -/
  taken : List (Bytes × Bytes) := []
  given : List (Bytes × Bytes) := []

namespace Receipts

/-- The receipts after one more event. -/
def update (g : Receipts) : Event → Receipts
  | .moment m => { g with settled := g.settled ++ [(g.taken, m)], taken := [] }
  | e => { g with taken := g.taken ++ e.taken, given := g.given ++ e.given }

/-- The account that consists of receipts. -/
def ledger : Ledger Receipts where
  update := update
  quiet g r a h := by
    cases r with
    | command | log => cases h
    | clock | draw | connect => simp [update, Event.taken, Event.given]

/-- Are all receipts in order, and is everything that was given a permit?  Between two moments at
    most one entry is taken. -/
structure Fine (g : Receipts) : Prop where
  accounts : ∀ p ∈ g.settled, p.2.Accounts p.1
  single : g.taken.length ≤ 1
  permits : ∀ p ∈ g.given, p.2 = Lists.stored permit

/-- A caller that has taken nothing since its last moment. -/
structure Even (g : Receipts) : Prop extends g.Fine where
  none_taken : g.taken = []

theorem ledger_ignoresLog : ledger.IgnoresLog := by
  intro g r
  simp [ledger, update, Event.taken, Event.given]

/-- A moment that accounts for what was taken settles it. -/
theorem Fine.settle {g : Receipts} (h : g.Fine) {m : Moment} (hm : m.Accounts g.taken) :
    (ledger.update g (.moment m)).Even where
  accounts p hp := by
    rcases List.mem_append.mp hp with hp | hp
    · exact h.accounts p hp
    · obtain rfl := List.mem_singleton.mp hp
      exact hm
  single := Nat.zero_le 1
  permits := h.permits
  none_taken := rfl

/-- A command that takes at most one entry, and gives permits only, leaves receipts fine. -/
theorem Even.sent {g : Receipts} (h : g.Even) {s : ListStore} {c : Command}
    {a : Except Failure Value} {taken : List (Bytes × Bytes)}
    (ht : (Event.sent s c a).taken = taken) (single : taken.length ≤ 1)
    (hg : ∀ p ∈ (Event.sent s c a).given, p.2 = Lists.stored permit) :
    (ledger.update g (.sent s c a)).Fine ∧ (ledger.update g (.sent s c a)).taken = taken := by
  have heq : (ledger.update g (.sent s c a)).taken = taken := by
    show g.taken ++ _ = _
    rw [h.none_taken, List.nil_append, ht]
  refine ⟨⟨h.accounts, heq ▸ single, fun p hp => ?_⟩, heq⟩
  rcases List.mem_append.mp hp with hp | hp
  · exact h.permits p hp
  · exact hg p hp

/-- A moment of no account leaves what is settled in order if nothing was taken. -/
theorem Even.settle {g : Receipts} (h : g.Even) {m : Moment} (hm : m.Accounts []) :
    (ledger.update g (.moment m)).Even :=
  h.toFine.settle (h.none_taken ▸ hm)

/-! ## Pops -/

/-- Does the result of a pop tell what was taken? -/
def Tells (g : Receipts) (key : Bytes) (r : Except Failure Value) : Prop :=
  (∃ e, r = .ok (.bytes e) ∧ g.taken = [(key, e)]) ∨
    ((r = .ok .none ∨ ∃ f, r = .error f) ∧ g.taken = [])

theorem given_popFor (s : ListStore) (n : Name) (x : Number.Double) (a : Except Failure Value) :
    (Event.sent s (.popFor n x) a).given = [] := by
  cases a with
  | error f => rfl
  | ok v =>
    show (Command.popFor n x).gives = []
    unfold Command.popFor
    split <;> rfl

/-- However a pop ends, its result tells what was taken. -/
theorem Even.popped {g : Receipts} (h : g.Even) {k : Conditions} {s : ListStore} {n : Name}
    {x : Number.Double} {a r : Except Failure Value} (hr : k.Popped s.style (.popFor n x) a r) :
    (ledger.update g (.sent s (.popFor n x) a)).Fine ∧
      (ledger.update g (.sent s (.popFor n x) a)).Tells n.key r := by
  have given : ∀ p ∈ (Event.sent s (.popFor n x) a).given, p.2 = Lists.stored permit := by
    rw [given_popFor]
    exact fun p hp => nomatch hp
  cases hr with
  | entry e =>
    have taken : (Event.sent s (.popFor n x) (.ok _)).taken = [(n.key, e)] := Command.takes_handing n x e
    obtain ⟨hf, ht⟩ := h.sent taken (Nat.le_refl 1) given
    exact ⟨hf, .inl ⟨e, rfl, ht⟩⟩
  | nothing =>
    have taken : (Event.sent s (.popFor n x) (.ok .none)).taken = [] := Command.takes_none _
    obtain ⟨hf, ht⟩ := h.sent taken (Nat.zero_le 1) given
    exact ⟨hf, .inr ⟨.inl rfl, ht⟩⟩
  | @raised f =>
    have taken : (Event.sent s (.popFor n x) (.error f)).taken = [] := rfl
    obtain ⟨hf, ht⟩ := h.sent taken (Nat.zero_le 1) given
    exact ⟨hf, .inr ⟨.inr ⟨_, rfl⟩, ht⟩⟩

/-! ## Calls -/

variable {k : Conditions} {g : Receipts}

/-- A command that takes nothing and gives a permit if anything. -/
def Idle : Command → Prop
  | .push _ entry => entry = permit
  | .length _ => True
  | .pop _ | .blockingPop .. => False

/-- An idle command, or another request, takes nothing. -/
theorem Even.answer (h : g.Even) {r : Request} (hr : r.Sends Idle) (a : r.Answer) :
    (ledger.update g (.answer r a)).Even := by
  cases r with
  | clock | draw | connect => exact (ledger.quiet g _ a rfl).symm ▸ h
  | log r => exact (ledger_ignoresLog g r).symm ▸ h
  | command x c =>
    have taken : (Event.sent ⟨x⟩ c a).taken = [] := by
      cases a with
      | error f => rfl
      | ok v =>
        cases c with
        | pop | blockingPop => exact hr.elim
        | push | length => rfl
    have given : ∀ p ∈ (Event.sent ⟨x⟩ c a).given, p.2 = Lists.stored permit := by
      intro p hp
      cases a with
      | error f => cases hp
      | ok v =>
        cases c with
        | pop | blockingPop | length => cases hp
        | push name entry =>
          obtain rfl : entry = permit := hr
          obtain rfl := List.mem_singleton.mp hp
          rfl
    obtain ⟨hf, ht⟩ := h.sent taken (Nat.zero_le 1) given
    exact ⟨hf, ht⟩

/-- What sends idle commands only takes nothing. -/
theorem Even.idle {α : Type} {op : Op α} (hs : op.Sends Idle) (h : g.Even) :
    (Course.perform op).Always k.Admits ledger Fine (fun _ g => g.Even) g :=
  Course.always_of_all hs (fun _ _ a hr _ h => h.answer hr a) (fun _ h => h.toFine) h

/-- What is left to show of a call: that it ends with receipts in order. -/
def Settles (k : Conditions) (c : Call) (g : Receipts) : Prop :=
  (Course.perform c.op).Always k.Admits ledger Fine
    (fun r g => (ledger.update g (.moment (.returned c r))).Even) g

/-- A call that takes nothing, and never says that it did. -/
theorem Even.settles_of_idle {c : Call} (hs : c.op.Sends Idle) (hc : ∀ r e, ¬c.Shows r e)
    (h : g.Even) : Settles k c g :=
  (h.idle hs).mono fun r _ _ h => h.settle (.inr ⟨rfl, hc r⟩)

/-- The account that the result of a pop gives, where the list is named by a value. -/
def Reports (g : Receipts) (name : Value) (r : Except Failure Value) : Prop :=
  (∃ key e, (Name.check name).toOption.map Name.key = some key ∧ r = .ok (.bytes e) ∧
    g.taken = [(key, e)]) ∨ (g.taken = [] ∧ ∀ e, r ≠ .ok (.bytes e))

theorem Tells.reports {name : Value} {n : Name} {r : Except Failure Value}
    (hn : Name.check name = .ok n) (h : g.Tells n.key r) : g.Reports name r := by
  obtain ⟨e, hr, ht⟩ | ⟨hr, ht⟩ := h
  · exact .inl ⟨n.key, e, by rw [hn]; rfl, hr, ht⟩
  · refine .inr ⟨ht, fun e he => ?_⟩
    obtain hr | ⟨f, hr⟩ := hr
    · cases hr.symm.trans he
    · cases hr.symm.trans he

theorem Even.reports_error (h : g.Even) (name : Value) (f : Failure) :
    g.Fine ∧ g.Reports name (.error f) :=
  ⟨h.toFine, .inr ⟨h.none_taken, fun _ he => nomatch he⟩⟩

/-- An acquire, by whatever name and for whatever duration. -/
theorem Even.acquireNamed (h : g.Even) (s : ListStore) (name d : Value) :
    (Course.perform (acquireNamed s name d)).Always k.Admits ledger Fine
      (fun r g => g.Fine ∧ g.Reports name r) g := by
  cases hn : Name.check name with
  | error f =>
    rw [Permits.acquireNamed, hn]
    exact Course.always_acquireFrom_error h.toFine (h.reports_error name _)
  | ok n =>
    rw [acquireNamed_of_check s hn]
    cases hd : Duration.seconds d with
    | error f => exact Course.always_acquire_error hd h.toFine (h.reports_error name _)
    | ok x =>
      refine Course.always_acquire hd h.toFine fun a r hr => ?_
      obtain ⟨hf, ht⟩ := h.popped hr
      exact ⟨hf, Course.acquired_of_ignoresLog ledger_ignoresLog hf ⟨hf, ht.reports hn⟩⟩

theorem Even.blockingPop (h : g.Even) (s : ListStore) (name d : Value) :
    (Course.perform (.named name (s.blockingPop · d))).Always k.Admits ledger Fine
      (fun r g => g.Fine ∧ g.Reports name r) g := by
  refine Course.always_named h.toFine (fun n hn => ?_) fun f _ => h.reports_error name f
  cases hd : Duration.seconds d with
  | error f => exact Course.always_blockingPop_error hd h.toFine (h.reports_error name _)
  | ok x =>
    refine Course.always_blockingPop hd h.toFine fun a r hr => ?_
    obtain ⟨hf, ht⟩ := h.popped hr
    exact ⟨hf, hf, ht.reports hn⟩

/-- An acquire that only tells whether there was a permit. -/
theorem Tells.isEntry {key : Bytes} {r : Except Failure Value} (h : g.Tells key r) :
    (r.map Semaphore.isEntry = .ok true ∧ ∃ e, g.taken = [(key, e)]) ∨
      (g.taken = [] ∧ r.map Semaphore.isEntry ≠ .ok true) := by
  obtain ⟨e, rfl, ht⟩ | ⟨rfl | ⟨f, rfl⟩, ht⟩ := h
  · exact .inl ⟨rfl, e, ht⟩
  · exact .inr ⟨ht, by simp [Except.map, Semaphore.isEntry]⟩
  · exact .inr ⟨ht, by simp [Except.map]⟩

theorem Even.acquirePermit (h : g.Even) (s : Semaphore) (blocking timeout : Value) :
    Settles k (.acquirePermit s blocking timeout) g := by
  unfold Settles
  cases hd : Duration.seconds (s.waitFor blocking timeout) with
  | error f =>
    refine Course.always_acquirePermit_error hd h.toFine (h.settle (.inr ⟨rfl, fun _ he => ?_⟩))
    cases he
  | ok x =>
    refine Course.always_acquirePermit hd h.toFine fun a r hr => ?_
    obtain ⟨hf, ht⟩ := h.popped hr
    refine ⟨hf, Course.acquired_of_ignoresLog ledger_ignoresLog hf (hf.settle ?_)⟩
    obtain ⟨hr, e, ht⟩ | ⟨ht, hr⟩ := ht.isEntry
    · exact .inl ⟨s.name.key, e, rfl, hr, ht⟩
    · exact .inr ⟨ht, fun _ he => hr he⟩

/-- A block is entered with one entry of its list, or with none and not at all. -/
theorem Even.enter (h : g.Even) (s : Semaphore) :
    (Course.perform s.enter).Always k.Admits ledger Fine
      (fun r g => g.Fine ∧ ((r = .ok () ∧ ∃ e, g.taken = [(s.name.key, e)]) ∨
        (g.taken = [] ∧ ∃ f, r = .error f))) g := by
  refine Semaphore.always_enter h.toFine fun a r hr => ?_
  obtain ⟨hf, ht⟩ := h.popped hr
  refine ⟨hf, Course.acquired_of_ignoresLog ledger_ignoresLog hf ⟨hf, ?_⟩⟩
  obtain ⟨e, rfl, ht⟩ | ⟨rfl | ⟨f, rfl⟩, ht⟩ := ht
  · exact .inl ⟨rfl, e, ht⟩
  · exact .inr ⟨ht, _, rfl⟩
  · exact .inr ⟨ht, _, rfl⟩

/-- The commands of a semaphore store: none of them takes more than it returns. -/
theorem Even.command (h : g.Even) {r : Registrar} (hr : ∀ name run, r.command name ≠ .ok (.custom run))
    (name : Value) (args : List Value) : Settles k (.command r name args) g := by
  have idle : ∀ {g : Receipts} {v : Except Failure Value}, g.Even → (∀ e, v ≠ .ok (.bytes e)) →
      (ledger.update g (.moment (.returned (.command r name args) v))).Even := by
    intro g v hg hv
    exact hg.settle (.inr ⟨rfl, hv⟩)
  refine Course.always_perform_bind (Course.always_ofExcept h.toFine ?_)
  cases hc : r.command name with
  | error f => exact idle h fun _ he => nomatch he
  | ok c =>
    have wrong : (Course.perform (Op.fail (α := Value) .wrongArguments)).Always k.Admits ledger Fine
        (fun v g => (ledger.update g (.moment (.returned (.command r name args) v))).Even) g :=
      ⟨h.toFine, idle h fun _ he => nomatch he⟩
    show (Course.perform (c.run args)).Always _ _ _ _ _
    cases c with
    | custom run => exact absurd hc (hr name run)
    | new source =>
      cases args with
      | cons => exact wrong
      | nil =>
        refine Course.always_perform_bind ((h.idle Identifier.sends_mint).mono fun v g hf hg => ?_)
        cases v with
        | ok minted => exact ⟨hf, idle hg fun _ he => nomatch he⟩
        | error f => exact idle hg fun _ he => nomatch he
    | inc store =>
      match args with
      | [] | _ :: _ :: _ => exact wrong
      | [v] =>
        -- The reply to a push is a number and cannot be taken for an entry.
        rw [HostCommand.run_inc]
        refine Course.always_named h.toFine (fun n _ => ?_) fun f _ => idle h fun _ he => nomatch he
        rw [release_eq]
        refine Course.always_push h.toFine fun a ha => ?_
        have hg : (ledger.update g (.sent store (.push n permit) a)).Even :=
          h.answer (r := .command store.executor (.push n permit)) rfl a
        refine ⟨hg.toFine, Course.pushed_of_ignoresLog ledger_ignoresLog hg.toFine ?_⟩
        cases a with
        | error f => exact idle hg fun _ he => nomatch he
        | ok v =>
          obtain ⟨length, rfl⟩ := ha
          exact idle hg fun _ he => nomatch he
    | dec store =>
      match args with
      | [] | [_] | _ :: _ :: _ :: _ => exact wrong
      | [v, d] =>
        rw [HostCommand.run_dec]
        exact (h.acquireNamed store v d).mono fun v g _ hv => hv.1.settle hv.2

/-- **Whatever a call is answered, its result tells what it took.** -/
theorem Even.call (h : g.Even) {c : Call} (hc : c.Exchanges) : Settles k c g := by
  cases c with
  | push => exact hc.elim
  | blockingPop s name d =>
    unfold Settles
    rw [Call.op_blockingPop]
    exact (h.blockingPop s name d).mono fun r g _ hr => hr.1.settle hr.2
  | acquire s name d => exact (h.acquireNamed s name d).mono fun r g _ hr => hr.1.settle hr.2
  | acquirePermit s blocking timeout => exact h.acquirePermit s blocking timeout
  | command r name args => exact h.command hc name args
  | enter s =>
    refine (h.enter s).mono fun r g _ hr => hr.1.settle ?_
    obtain ⟨hr, e, ht⟩ | ⟨ht, f, hr⟩ := hr.2
    · exact .inl ⟨s.name.key, e, rfl, hr, ht⟩
    · exact .inr ⟨ht, fun _ he => nomatch hr.symm.trans he⟩
  -- The other calls send no pops, and no result of theirs says that an entry was taken.
  | length s name =>
    refine h.settles_of_idle ?_ fun _ _ => id
    rw [Call.op_length]
    exact Op.All.check fun _ _ => ListStore.sends_length trivial
  | release s name =>
    refine h.settles_of_idle ?_ fun _ _ => id
    rw [Call.op_release]
    exact Op.All.check fun _ _ => sends_release rfl
  | create options name => exact h.settles_of_idle Semaphore.sends_create fun _ _ => id
  | mint options source value =>
    exact h.settles_of_idle (Semaphore.sends_mint fun _ => rfl) fun _ _ => id
  | value s => exact h.settles_of_idle (Semaphore.sends_value trivial) fun _ _ => id
  | locked s => exact h.settles_of_idle (Semaphore.sends_locked trivial) fun _ _ => id
  | releasePermits s count => exact h.settles_of_idle (Semaphore.sends_release rfl) fun _ _ => id
  | exit s => exact h.settles_of_idle (Semaphore.sends_exit rfl) fun _ _ => id
  | register r s source => exact h.settles_of_idle Registrar.sends_offer fun _ _ => id

/-! ## Blocks and routines -/

/-- A block takes its entry before its body begins, and nothing else. -/
theorem Even.block (h : g.Even) (s : Semaphore) {body : Course (Except Failure Unit)}
    (hb : ∀ g : Receipts, g.Even →
      body.Always k.Admits ledger Fine (fun _ g => g.Even) g) :
    (Routine.block s body).Always k.Admits ledger Fine (fun _ g => g.Even) g := by
  have closed : ∀ {r : Except Failure Unit} {g : Receipts}, g.Even →
      Semaphore.Closed ledger Fine (fun _ g => g.Even) s r g := by
    intro r g hg
    have hc := hg.settle (m := .closed s r) rfl
    exact ⟨hc.toFine, hc⟩
  have opened := h.settle (m := .opened s) rfl
  refine Semaphore.always_block h.toFine ((opened.enter s).mono fun r g _ hr => ?_)
  -- What the entry took is settled when the body begins, so the body begins even.
  obtain ⟨hf, ⟨rfl, e, ht⟩ | ⟨ht, f, rfl⟩⟩ := hr
  · refine (hb _ (hf.settle (m := .entered s) ⟨e, ht⟩)).mono fun result g _ hg => ?_
    have left := hg.settle (m := .left s result) rfl
    exact (left.idle (Semaphore.sends_exit rfl)).mono fun exited g _ hg => closed hg
  · exact closed ⟨hf, ht⟩

theorem Even.routine (h : g.Even) {p : Routine} (hp : p.Only Call.Exchanges) :
    p.course.Always k.Admits ledger Fine (fun _ g => g.Even) g :=
  Course.always_routine (ι := Unit) (I := fun _ (g : Receipts) => g.Even) (fun _ _ h => h.toFine)
    (fun _ hc _ _ h => h.call hc) (fun s _ hb _ _ h => h.block s (hb ())) hp (j := ()) h

/-! ## Receipts and events -/

theorem read_given (g : Receipts) (events : List Event) :
    (ledger.read g events).given = g.given ++ events.flatMap Event.given := by
  induction events generalizing g with
  | nil => exact (List.append_nil _).symm
  | cons e events ih =>
    rw [Ledger.read, List.foldl_cons, ← Ledger.read, ih, List.flatMap_cons, ← List.append_assoc]
    cases e with
    | answer r a => rfl
    | moment m => exact congrArg (· ++ _) (List.append_nil _).symm

/-- Every entry that a caller took is in its receipts, and once only. -/
theorem read_taken (g : Receipts) (events : List Event) :
    (ledger.read g events).settled.flatMap (·.1) ++ (ledger.read g events).taken =
      g.settled.flatMap (·.1) ++ g.taken ++ events.flatMap Event.taken := by
  induction events generalizing g with
  | nil => exact (List.append_nil _).symm
  | cons e events ih =>
    rw [Ledger.read, List.foldl_cons, ← Ledger.read, ih, List.flatMap_cons]
    cases e with
    | answer r a => simp [ledger, update]
    | moment m => simp [ledger, update, Event.taken]

end Receipts

end Permits
