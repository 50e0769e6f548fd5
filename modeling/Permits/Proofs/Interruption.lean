/-
  Interruption — a command that fails ends its call, and nothing is tried again.

  1. **The fate of a call** (`Fate`): it goes on until a command fails.  From then on it is struck by
     that failure, and it would be broken by whatever it still did, be it another command or a record.
  2. **Calls yield** (`Op.Yields`): no call is ever broken, and a call that was struck ends with the
     failure that struck it.  There is one rule for each way to put operations together, and timing is
     the only one that handles a failure on its way.
  3. **Effects** (`Lists.after`): what a call leaves behind are the effects of the commands before the
     failure.  So a release or a new semaphore that is interrupted leaves the permits that were pushed
     by then (`Lists.Gains`).

  A failure reaches its caller in the style of the executor (`Style.raised`), and then in that of the
  call (`Call.style`).  Those who wait on the spot get it as it was raised; those who are suspended
  meanwhile do not get every failure so.
-/
import Permits.Proofs.Blocks
import Permits.Proofs.Conduct

namespace Permits

open Number Text
open Course (Event)

/-! ## The fate of a call -/

/-- How a call fares. -/
inductive Fate where
  | going
  /-- A command has failed, and nothing happened since. -/
  | struck (f : Failure)
  /-- Something happened although a command had failed. -/
  | broken

/-- The fate of a call after a command was answered. -/
def Fate.answered (x : Executor) : Except Failure Value → Fate
  | .ok _ => .going
  | .error f => .struck (x.style.raised f)

/-- The account of a call's fate. -/
def Ledger.fate : Ledger Fate where
  update g e :=
    if e.isQuiet then g
    else match g, e with
      | .going, .answer (.command x _) a => .answered x a
      | .going, _ => .going
      | _, _ => .broken
  quiet _ _ _ h := if_pos h

namespace Fate

variable {g : Fate} {f : Failure} {e : Event} {events : List Event}

theorem read_cons (g : Fate) (e : Event) (events : List Event) :
    Ledger.fate.read g (e :: events) = Ledger.fate.read (Ledger.fate.update g e) events := rfl

theorem read_append (g : Fate) (events later : List Event) :
    Ledger.fate.read g (events ++ later) = Ledger.fate.read (Ledger.fate.read g events) later :=
  List.foldl_append ..

/-- Nothing makes up for what is broken. -/
theorem read_broken (events : List Event) : Ledger.fate.read broken events = broken := by
  induction events with
  | nil => rfl
  | cons e events ih =>
    have same : Ledger.fate.update broken e = broken := by
      show (if e.isQuiet then _ else _) = _
      split <;> rfl
    rw [read_cons, same, ih]

/-- Once a call is struck, nothing happens any more if it is not broken. -/
theorem quiet_of_struck (h : Ledger.fate.read (struck f) events ≠ broken) :
    (∀ e ∈ events, e.isQuiet = true) ∧ Ledger.fate.read (struck f) events = struck f := by
  induction events with
  | nil => exact ⟨List.forall_mem_nil _, rfl⟩
  | cons e events ih =>
    cases he : e.isQuiet with
    | false =>
      have cut : Ledger.fate.update (struck f) e = broken := by
        show (if e.isQuiet then _ else _) = _
        rw [he]
        rfl
      rw [read_cons, cut, read_broken] at h
      exact absurd rfl h
    | true =>
      have same : Ledger.fate.update (struck f) e = struck f := if_pos he
      rw [read_cons, same] at h ⊢
      obtain ⟨quiet, read⟩ := ih h
      exact ⟨List.forall_mem_cons.mpr ⟨he, quiet⟩, read⟩

/-- Before a command fails a call goes on, unless it is broken in the end. -/
theorem going_of_answer {x : Executor} {c : Command} {a : Except Failure Value}
    {before after : List Event}
    (h : Ledger.fate.read going (before ++ .answer (.command x c) a :: after) ≠ broken) :
    Ledger.fate.read going before = going := by
  rw [read_append, read_cons] at h
  cases hg : Ledger.fate.read going before with
  | going => rfl
  | broken =>
    rw [hg] at h
    exact absurd (read_broken _) h
  | struck f =>
    rw [hg] at h
    exact absurd (read_broken after) h

end Fate

/-! ## Calls yield -/

/-- The answers that leave a timer running: the clock never shows zero.  Everything else may be
    answered in any way. -/
def Request.Started : (r : Request) → r.Answer → Prop
  | .clock, t => t.isZero = false
  | .command .., _ | .log _, _ | .draw .., _ | .connect _, _ => True

/-- Does an operation that was struck end with the failure that struck it, unbroken?  The failure is
    waited for in some style. -/
def Op.Yields {α : Type} (w : Style) (op : Op α) : Prop :=
  (Course.perform op).Always Request.Started .fate (· ≠ .broken)
    (fun r g => g = .going ∨ ∃ f, g = .struck f ∧ r = .error (w.raised f)) .going

namespace Op

variable {α β : Type} {w : Style}

theorem yields_done (result : Except Failure α) : (done result).Yields w :=
  ⟨nofun, .inl rfl⟩

/-- What follows a failure is left out. -/
theorem Yields.bind {op : Op α} {f : α → Op β} (h : op.Yields w) (hf : ∀ a, (f a).Yields w) :
    (op >>= f).Yields w := by
  refine Course.always_perform_bind (h.mono fun r g _ hr => ?_)
  rcases hr with rfl | ⟨e, rfl, rfl⟩
  · cases r with
    | ok a => exact hf a
    | error e => exact .inl rfl
  · exact .inr ⟨e, rfl, rfl⟩

/-- Whoever awaits what yields gets the failure as it leaves a coroutine. -/
theorem Yields.coroutine {op : Op α} (h : op.Yields .direct) : op.coroutine.Yields .awaited := by
  show (op.waitedFor .awaited).Yields .awaited
  refine Course.always_waitedFor (h.mono fun r g _ hr => ?_)
  rcases hr with rfl | ⟨f, rfl, rfl⟩
  · exact .inl rfl
  · exact .inr ⟨f, rfl, rfl⟩

theorem Yields.waitedFor {op : Op α} (h : op.Yields .direct) : (op.waitedFor w).Yields w := by
  cases w with
  | direct => exact h
  | awaited => exact h.coroutine

theorem Yields.check {result : Except Failure α} {f : α → Op β} (h : ∀ a, (f a).Yields w) :
    (ofExcept result >>= f).Yields w :=
  (yields_done result).bind h

theorem yields_request {r : Request} {next : r.Answer → Op α} (hr : r.isQuiet = true)
    (h : ∀ a, (next a).Yields w) : (ask r next).Yields w :=
  Course.always_quiet hr nofun fun a _ => h a

theorem yields_log (record : Record) : (log record).Yields w :=
  ⟨nofun, fun _ _ => ⟨nofun, .inl rfl⟩⟩

theorem Yields.times {op : Op α} (h : op.Yields w) : ∀ n, (op.times n).Yields w
  | 0 => yields_done _
  | n + 1 => h.bind fun _ => (Yields.times h n).bind fun _ => yields_done _

end Op

section Operations

open Op

namespace ListStore

variable {s : ListStore} {name : Name}

/-- A command strikes its sender with the failure that it is answered by. -/
theorem yields_send (c : Command) : (s.send c).Yields .direct := by
  refine ⟨nofun, fun a _ => ?_⟩
  cases a with
  | ok v => exact ⟨nofun, .inl rfl⟩
  | error f => exact ⟨nofun, .inr ⟨s.style.raised f, rfl, rfl⟩⟩

theorem yields_push (entry : Value) : (s.push name entry).Yields .direct := by
  rw [s.push_eq]
  exact (yields_send _).bind fun _ => (yields_log _).bind fun _ => yields_done _

theorem yields_length : (s.length name).Yields .direct := by
  rw [s.length_eq]
  exact (yields_send _).bind fun _ => yields_done _

theorem yields_blockingPop (duration : Value) : (s.blockingPop name duration).Yields .direct := by
  rw [s.blockingPop_eq]
  refine Yields.check fun seconds => ?_
  by_cases h : seconds.le .zero = true
  · rw [if_pos h]
    exact yields_send _
  · rw [if_neg h]
    exact (yields_send _).bind fun _ => yields_done _

end ListStore

/-- The timer is stopped after a failure too, and hands it on. -/
theorem yields_timed {pop : Op (Name × Value)} (h : pop.Yields .direct) :
    (timed pop).Yields .direct := by
  refine Course.always_quiet rfl nofun fun start hstart => ?_
  show (Course.perform (pop.attempt >>= _)).Always _ _ _ _ _
  refine Course.always_perform_bind (Course.always_attempt (h.mono fun r g hg hr => ?_))
  refine Course.always_quiet rfl hg fun stop _ => ?_
  show (Course.perform (ofExcept (stopped start r) >>= _)).Always _ _ _ _ _
  rw [stopped_of_ne_zero hstart]
  rcases hr with rfl | ⟨f, rfl, rfl⟩
  · exact Yields.check fun pair => Yields.check fun ms => (yields_log _).bind fun _ => yields_done _
  · exact ⟨nofun, .inr ⟨f, rfl, rfl⟩⟩

theorem yields_acquireFrom {s : ListStore} {name : Except Failure Name} {duration : Value} :
    (acquireFrom s name duration).Yields .direct := by
  rw [acquireFrom_eq]
  exact yields_timed (Yields.check fun _ =>
    (ListStore.yields_blockingPop duration).bind fun _ => yields_done _)

theorem yields_release {s : ListStore} {name : Name} : (release s name).Yields .direct := by
  rw [release_eq]
  exact ListStore.yields_push permit

theorem Identifier.yields_mint {source : SourceRef} {w : Style} : (mint source).Yields w := by
  have digit : (digit source).Yields w := yields_request rfl fun a => yields_done _
  have segment : (segment source).Yields w := (digit.times _).bind fun _ => yields_done _
  exact (segment.times _).bind fun _ => yields_done _

theorem ListStore.yields_connect {style : Style} {executor client : Option Executor} :
    (connect style executor client).Yields .direct := by
  rw [connect_eq]
  split
  · exact yields_done _
  · exact yields_request rfl fun _ => yields_done _

namespace Semaphore

variable {s : Semaphore}

theorem yields_value : s.value.Yields .direct := by
  rw [s.value_eq]
  exact ListStore.yields_length

theorem yields_locked : s.locked.Yields .direct := by
  rw [s.locked_eq]
  exact yields_value.bind fun _ => yields_done _

theorem yields_acquire {blocking timeout : Value} : (s.acquire blocking timeout).Yields .direct := by
  rw [s.acquire_eq]
  exact yields_acquireFrom.bind fun _ => yields_done _

theorem yields_enter : s.enter.Yields .direct := by
  rw [s.enter_eq]
  refine yields_acquire.bind fun acquired => ?_
  split <;> exact yields_done _

theorem yields_releaseTimes : ∀ n, (s.releaseTimes n).Yields .direct
  | 0 => yields_done _
  | 1 => Permits.yields_release
  | n + 2 => Permits.yields_release.bind fun _ => yields_releaseTimes (n + 1)

theorem yields_release (n : Value) : (s.release n).Yields .direct := by
  rw [s.release_eq]
  exact Yields.check fun m => yields_releaseTimes m

theorem yields_exit : s.exit.Yields .direct := by
  rw [s.exit_eq]
  exact (yields_release _).bind fun _ => yields_done _

theorem yields_create {options : Options} {name : Value} : (create options name).Yields .direct := by
  have found : options.findStore.Yields .direct := by
    unfold Options.findStore
    split
    · exact yields_done _
    · exact ListStore.yields_connect
  rw [create_eq]
  exact Yields.check fun n => found.bind fun store => Yields.check fun _ => yields_done _

/-- What is released into a new semaphore is waited for by its callers, in their style. -/
theorem yields_fill {style : Style} (value : Value) : (fill style s value).Yields style := by
  unfold fill
  split
  · next own =>
    have released : (s.release value).Yields style := by
      cases style with
      | direct => exact yields_release value
      | awaited =>
        rw [← s.coroutine_release own]
        exact (yields_release value).coroutine
    exact released.bind fun _ => yields_done _
  · next other =>
    unfold Mixed.releaseUnseen Mixed.release
    cases h : s.store.style with
    | awaited => exact Yields.check fun _ => yields_done _
    | direct =>
      cases style with
      | direct => exact absurd h other
      | awaited =>
        refine Yields.bind (Yields.check fun _ => Yields.coroutine ?_) fun _ => yields_done _
        exact Permits.yields_release.bind fun _ => yields_done _

theorem yields_mint {options : Options} {source : SourceRef} {value : Value} :
    (mint options source value).Yields options.style := by
  rw [mint_eq]
  refine Yields.check fun negative => ?_
  split
  · exact yields_done _
  · refine Identifier.yields_mint.bind fun name => yields_create.waitedFor.bind fun s => ?_
    split
    · exact (yields_fill value).bind fun _ => yields_done _
    · exact yields_done _

end Semaphore

theorem Registrar.yields_offer {r : Registrar} {commands : List (Value × HostCommand)} :
    (r.offer commands).Yields .direct := by
  unfold offer
  split
  · exact (yields_log _).bind fun _ => yields_done _
  · exact yields_done _

/-- The style in which callers wait for a call as a whole: those of a new semaphore in their own, and
    all others only for its commands. -/
def Call.style : Call → Style
  | mint options .. => options.style
  | _ => .direct

/-- **A call that is struck by the failure of a command ends with it.** -/
theorem Call.yields_op {c : Call} (own : c.IsOwn) : c.op.Yields c.style := by
  cases c with
  | push store name entry =>
    rw [op_push]
    exact Yields.check fun _ => ListStore.yields_push entry
  | release store name =>
    rw [op_release]
    exact Yields.check fun _ => yields_release
  | length store name =>
    rw [op_length]
    exact Yields.check fun _ => ListStore.yields_length
  | blockingPop store name duration =>
    rw [op_blockingPop]
    exact Yields.check fun _ => ListStore.yields_blockingPop duration
  | acquire store name duration => exact yields_acquireFrom
  | create options name => exact Semaphore.yields_create
  | mint options source value => exact Semaphore.yields_mint
  | value s => exact Semaphore.yields_value
  | locked s => exact Semaphore.yields_locked
  | acquirePermit s blocking timeout => exact Semaphore.yields_acquire
  | releasePermits s count => exact Semaphore.yields_release count
  | enter s => exact Semaphore.yields_enter
  | exit s => exact Semaphore.yields_exit
  | register r store source => exact Registrar.yields_offer
  | command r name args =>
    show (r.call name args).Yields .direct
    refine Registrar.call_cases own (fun f => yields_done _) (fun source _ => ?_)
      (fun store n _ _ => ?_) fun store n d _ _ => yields_acquireFrom
    · exact Identifier.yields_mint.bind fun _ => yields_done _
    · exact Yields.check fun _ => yields_release

end Operations

/-! ## Effects -/

/-- The lists after some commands. -/
def Lists.after (l : Lists) (commands : List Command) : Lists :=
  commands.foldl (fun l c => (l.execute c).lists) l

/-- Has a store got a number of permits more on one list?  If nobody waits, they are there behind
    what was there before, and every other list is as it was. -/
def Lists.Gains (name : Name) (n : Nat) (l l' : Lists) : Prop :=
  l' = l.after (List.replicate n (.push name permit)) ∧
    (l.waiters = [] → ∀ key, l'.entries key =
      l.entries key ++ if key = name.key then List.replicate n [0x31] else [])

/-- A push serves nobody where nobody waits. -/
theorem Lists.execute_push {l : Lists} (h : l.waiters = []) (name : Name) (entry : Value) :
    (l.execute (.push name entry)).lists = l.put name.key (l.entries name.key ++ [stored entry]) := by
  show (l.push name.key (stored entry)).2.2 = _
  unfold push
  rw [h]
  exact congrArg (fun ws => { l.put name.key _ with waiters := ws }) h.symm

theorem Lists.gains_after (name : Name) (n : Nat) (l : Lists) :
    l.Gains name n (l.after (List.replicate n (.push name permit))) := by
  refine ⟨rfl, fun h key => ?_⟩
  induction n generalizing l with
  | zero =>
    show l.entries key = l.entries key ++ if key = name.key then [] else []
    split <;> exact (List.append_nil _).symm
  | succ n ih =>
    have step := l.execute_push h name permit
    show Lists.entries (Lists.after (l.execute (.push name permit)).lists _) key = _
    rw [step, ih (l.put _ _) h, entries_put, stored_permit]
    by_cases hk : key = name.key
    · subst hk
      rw [if_pos rfl, if_pos rfl, if_pos rfl, List.append_assoc]
      rfl
    · rw [if_neg hk, if_neg hk, if_neg hk]

/-- Surroundings with a store of lists, which either carries out a command, whatever it replies then,
    or raises a failure and is left as it is.  Nothing else reaches the lists. -/
structure Carries {σ : Type} (answer : (r : Request) → σ → r.Answer × σ) (lists : σ → Lists) :
    Prop where
  carried : ∀ {x c s v}, (answer (.command x c) s).1 = .ok v →
    lists (answer (.command x c) s).2 = ((lists s).execute c).lists
  failed : ∀ {x c s f}, (answer (.command x c) s).1 = .error f →
    lists (answer (.command x c) s).2 = lists s
  steady : ∀ r s, r.isCommand = false → lists (answer r s).2 = lists s

/-- A lone caller's store is left as it is by a call that fails. -/
theorem Setting.carries (x : Setting) : Carries x.answer Solo.lists where
  carried := by
    intro e c s v h
    show (x.call c s).2.lists = _
    change (x.call c s).1 = .ok v at h
    unfold call at h ⊢
    split at h
    · cases h
    · rfl
  failed := by
    intro e c s f h
    show (x.call c s).2.lists = _
    change (x.call c s).1 = .error f at h
    unfold call at h ⊢
    split at h
    · rfl
    · cases h
  steady := by
    intro r s hr
    cases r with
    | command => cases hr
    | clock | log | draw | connect => rfl

/-- What an event does to the lists. -/
def Course.Event.effect (l : Lists) : Event → Lists
  | .answer (.command _ c) (.ok _) => (l.execute c).lists
  | _ => l

section Effects

variable {α σ : Type} {answer : (r : Request) → σ → r.Answer × σ} {lists : σ → Lists}

theorem Carries.run (h : Carries answer lists) (p : Course α) (s : σ) :
    lists (p.run answer s).state = (p.run answer s).events.foldl Event.effect (lists s) := by
  induction p generalizing s with
  | done a => rfl
  | mark m next ih => exact ih s
  | ask r next ih =>
    refine (ih _ _).trans (congrArg (fun l => List.foldl Event.effect l _) ?_)
    cases r with
    | clock | log | draw | connect => exact h.steady _ s rfl
    | command x c =>
      cases ha : (answer (.command x c) s).1 with
      | ok v => exact h.carried ha
      | error f => exact h.failed ha

/-- Events of no account leave the lists as they are. -/
theorem Course.Event.effects_of_quiet {events : List Event} (h : ∀ e ∈ events, e.isQuiet = true)
    (l : Lists) : events.foldl Event.effect l = l := by
  induction events with
  | nil => rfl
  | cons e events ih =>
    obtain ⟨he, hs⟩ := List.forall_mem_cons.mp h
    cases e with
    | moment m => cases he
    | answer r a =>
      cases r with
      | clock | draw | connect => exact ih hs
      | command | log => cases he

/-- A call that goes on has gone on all the time. -/
theorem Fate.going_of_read {g : Fate} {events : List Event}
    (h : Ledger.fate.read g events = going) : g = going := by
  cases g with
  | going => rfl
  | broken => cases (read_broken events).symm.trans h
  | struck f =>
    have unbroken : Ledger.fate.read (struck f) events ≠ broken := by
      rw [h]
      nofun
    cases (quiet_of_struck unbroken).2.symm.trans h

/-- As long as no command fails, the effects are those of the commands. -/
theorem Fate.effects_of_going {events : List Event} (l : Lists)
    (h : Ledger.fate.read going events = going) :
    events.foldl Event.effect l = l.after (commands events) := by
  induction events generalizing l with
  | nil => rfl
  | cons e events ih =>
    cases e with
    | moment m => exact ih l h
    | answer r a =>
      cases r with
      | clock | draw | connect | log => exact ih l h
      | command x c =>
        cases a with
        | ok v => exact ih _ h
        | error f => cases going_of_read (g := .struck (x.style.raised f)) h

end Effects

/-! ## Calls that fill a list -/

/-- Whatever a new semaphore is answered, it is filled with permits of one name, its own. -/
theorem Semaphore.commands_mint {σ : Type} (answer : (r : Request) → σ → r.Answer × σ)
    (options : Options) (source : SourceRef) (value : Value) (s : σ) :
    ∃ name, ∀ c ∈ commands ((Course.perform (mint options source value)).run answer s).events,
      c = .push name permit := by
  let one (g : List Command) : Prop := ∃ name, ∀ c ∈ g, c = .push name permit
  have nothing : one [] := ⟨default, List.forall_mem_nil _⟩
  suffices h : (Course.perform (mint options source value)).Always (fun _ _ => True) .commands
      (fun _ => True) (fun _ g => one g) [] by
    have filled := h.run answer (fun _ _ => trivial) s
    rw [Ledger.read_commands, List.nil_append] at filled
    exact filled
  rw [mint_eq]
  refine Course.always_perform_bind (Course.always_ofExcept trivial ?_)
  cases isBelow 0 value with
  | error f => exact nothing
  | ok negative =>
    cases negative with
    | true => exact ⟨trivial, nothing⟩
    | false =>
      refine Course.always_perform_bind ((Identifier.sends_mint.always_commands trivial).mono ?_)
      rintro r _ - rfl
      cases r with
      | error f => exact nothing
      | ok name =>
        refine Course.always_perform_bind (((Op.Sends.waitedFor sends_create).always_commands trivial).mono ?_)
        rintro r _ - rfl
        cases r with
        | error f => exact nothing
        | ok s =>
          -- From here on the name is settled.
          have fills : (if value.isTrue = true then fill options.style s value >>= fun _ => pure s
            else pure s).Sends (· = .push s.name permit) := by
            split
            · exact Op.All.bind (sends_fill rfl) fun _ => trivial
            · trivial
          show (Course.perform (if value.isTrue = true then _ else pure s)).Always _ _ _ _ _
          exact (fills.always_forall (fun _ _ => trivial) (List.forall_mem_nil _)).mono
            fun _ g _ hg => ⟨s.name, hg⟩

/-! ## Calls -/

/-- What becomes of a call when a command of it is answered by the failure `f`.

    - The call ends with that failure, as it reaches the caller through the executor's style and the
      call's.
    - Nothing happens after the command: none is sent any more, and nothing is recorded.
    - The lists are as the commands before have left them; for a release of many permits, and for
      a new semaphore, that is as many permits as were pushed by then. -/
structure Call.Surfaces (reach : Reach) (c : Call) (result : Except Failure c.Result)
    (l l' : Lists) (before : List Event) (x : Executor) (command : Command) (f : Failure)
    (after : List Event) : Prop where
  raised : result = .error (reach c.style (reach x.style f))
  last : ∀ e ∈ after, e.isQuiet = true
  effects : l' = l.after (commands before)
  released : ∀ s count, c = .releasePermits s count →
    command = .push s.name permit ∧ l.Gains s.name (commands before).length l'
  minted : ∀ options source value, c = .mint options source value →
    ∃ name, command = .push name permit ∧ l.Gains name (commands before).length l'

/-- Commands that are all one push leave as many permits as there are commands. -/
theorem Lists.gains_of_forall {name : Name} {sent before : List Command} {command : Command}
    {l : Lists} (h : ∀ c ∈ sent, c = .push name permit) (hb : ∀ c ∈ before, c ∈ sent)
    (hc : command ∈ sent) :
    command = .push name permit ∧ l.Gains name before.length (l.after before) := by
  have pushes : before = List.replicate before.length (.push name permit) :=
    List.eq_replicate_of_mem fun c hm => h c (hb c hm)
  have gains := Lists.gains_after name before.length l
  rw [← pushes] at gains
  exact ⟨h command hc, gains⟩

section Calls

variable {σ : Type} {answer : (r : Request) → σ → r.Answer × σ} {lists : σ → Lists}

/-- Up to the command that fails a call goes on.  It ends with that failure, and nothing happens in
    between. -/
theorem Call.struck (started : ∀ s, (answer .clock s).1.isZero = false) {c : Call} (own : c.IsOwn)
    (s : σ) {before after : List Event} {x : Executor} {command : Command} {f : Failure}
    (he : ((Course.perform c.op).run answer s).events =
      before ++ .answer (.command x command) (.error f) :: after) :
    Ledger.fate.read .going before = .going ∧ (∀ e ∈ after, e.isQuiet = true) ∧
      ((Course.perform c.op).run answer s).result = .error (c.style.raised (x.style.raised f)) := by
  have admitted : ∀ r s, Request.Started r (answer r s).1 := by
    intro r s
    cases r with
    | clock => exact started s
    | command | log | draw | connect => trivial
  have fate := (Call.yields_op own).run answer admitted s
  have unbroken : Ledger.fate.read .going ((Course.perform c.op).run answer s).events ≠ .broken := by
    rcases fate with going | ⟨e, struck, -⟩
    · rw [going]
      nofun
    · rw [struck]
      nofun
  rw [he] at fate unbroken
  have going := Fate.going_of_answer unbroken
  have struck : Ledger.fate.read .going (before ++ .answer (.command x command) (.error f) :: after) =
      Ledger.fate.read (.struck (x.style.raised f)) after := by
    rw [Fate.read_append, going]
    rfl
  rw [struck] at fate unbroken
  obtain ⟨quiet, same⟩ := Fate.quiet_of_struck unbroken
  rw [same] at fate
  rcases fate with h | ⟨e, h, raised⟩
  · cases h
  · cases h
    exact ⟨going, quiet, raised⟩

/-- **The failure of a command surfaces, and nothing is tried again.**  The timer lets failures
    through, and a command that fails leaves the lists as they are; apart from that, everything may
    be answered in any way. -/
theorem Call.surfaces (started : ∀ s, (answer .clock s).1.isZero = false)
    (carries : Carries answer lists) {c : Call} (own : c.IsOwn) (s : σ) {before after : List Event}
    {x : Executor} {command : Command} {f : Failure}
    (he : ((Course.perform c.op).run answer s).events =
      before ++ .answer (.command x command) (.error f) :: after) :
    c.Surfaces Style.raised ((Course.perform c.op).run answer s).result (lists s)
      (lists ((Course.perform c.op).run answer s).state) before x command f after := by
  obtain ⟨going, quiet, raised⟩ := Call.struck started own s he
  have effects : lists ((Course.perform c.op).run answer s).state =
      (lists s).after (commands before) := by
    rw [carries.run, he, List.foldl_append, Fate.effects_of_going _ going]
    exact Course.Event.effects_of_quiet quiet _
  have sent : commands ((Course.perform c.op).run answer s).events =
      commands before ++ command :: commands after := by
    rw [he]
    exact List.filterMap_append
  have earlier : ∀ d ∈ commands before, d ∈ commands ((Course.perform c.op).run answer s).events := by
    intro d hd
    rw [sent]
    exact List.mem_append_left _ hd
  have failed : command ∈ commands ((Course.perform c.op).run answer s).events := by
    rw [sent]
    exact List.mem_append_right _ (List.mem_cons_self ..)
  refine ⟨raised, quiet, effects, ?_, ?_⟩
  · rintro m count rfl
    rw [effects]
    have pushes := Op.Sends.commands_run (Q := (· = .push m.name permit))
      (Semaphore.sends_release (s := m) (n := count) rfl) answer s
    exact Lists.gains_of_forall pushes earlier failed
  · rintro options source value rfl
    rw [effects]
    obtain ⟨name, pushes⟩ := Semaphore.commands_mint answer options source value s
    exact ⟨name, Lists.gains_of_forall pushes earlier failed⟩

end Calls

/-- The third call fails, and with a failure that other calls have of their own. -/
def thirdFails : Setting :=
  { Setting.sevens with
    fails := fun n => if n = 2 then some (.missingKey (.text "k")) else none }

/-- The semaphore of a list, whose callers wait on the spot. -/
def prompt : Semaphore := .brief (.text "k") ⟨⟨"lists", .direct⟩⟩

/-- Of five permits two are released, and then the third push fails. -/
theorem fivefold_surfaces :
    ((Course.perform (Call.releasePermits prompt (.int 5)).op).run thirdFails.answer
      { lists := {} }).result = .error (.missingKey (.text "k")) ∧
    ({} : Lists).Gains (.text "k") 2 ((Course.perform (Call.releasePermits prompt (.int 5)).op).run
      thirdFails.answer { lists := {} }).state.lists := by
  have events : ((Course.perform (Call.releasePermits prompt (.int 5)).op).run thirdFails.answer
      { lists := {} }).events =
      [Event.sent prompt.store (.push (.text "k") permit) (.ok (.int 1)),
        Event.noted (.pushed .direct (.text "k") (.int 1)),
        Event.sent prompt.store (.push (.text "k") permit) (.ok (.int 2)),
        Event.noted (.pushed .direct (.text "k") (.int 2))] ++
      Event.sent prompt.store (.push (.text "k") permit) (.error (.missingKey (.text "k"))) ::
        [] := rfl
  have surfaces := Call.surfaces (c := .releasePermits prompt (.int 5)) (fun _ => rfl)
    thirdFails.carries trivial { lists := {} } events
  exact ⟨surfaces.raised, (surfaces.released prompt (.int 5) rfl).2⟩

/-- **Not every failure surfaces as it was raised**: a push to a store whose callers are suspended is
    answered by the failure that is reserved for the end of an iteration, and the call does not end
    with that very failure. -/
theorem not_surfaces_as_raised :
    ¬∀ (x : Setting) (c : Call) (st : Solo) (before after : List Event) (e : Executor)
      (command : Command) (f : Failure), (∀ n, (x.clock n).isZero = false) → c.IsOwn →
      ((Course.perform c.op).run x.answer st).events =
        before ++ .answer (.command e command) (.error f) :: after →
      c.Surfaces (fun _ f => f) ((Course.perform c.op).run x.answer st).result st.lists
        ((Course.perform c.op).run x.answer st).state.lists before e command f after := by
  intro h
  have surfaces := h (stoppingAt 0) (.push patient.store (.text "k") permit) { lists := {} } [] []
    patient.store.executor (.push (.text "k") permit) (.bare "StopIteration") (fun _ => rfl)
    trivial rfl
  cases surfaces.raised

end Permits
