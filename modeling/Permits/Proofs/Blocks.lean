/-
  Blocks — what a block does, whatever its body does and whichever calls fail.

  The rules of blocks are written as relations between a program, the events of a run in order, and
  the result that the run ends with; nothing in them refers to how the program is carried out.

  1. **Entering** (`Enters`): one pop, then either a failure or the body.
  2. **Leaving** (`Leaves`): one push of a permit, and the result of the block as a whole.
  3. **Blocks** (`Blocks`) and **routines** (`Routine.Goes`): the body runs once if the block is
     entered, and not at all if it is not.
  4. **Runs** (`Routine.goes`): whatever a routine is answered, it goes by the rules
     (`Routine.always_goes`), and a lone caller leaves each list as long as it was, but for the
     permits whose push failed.

  How a failed call reaches its caller is up to the rules' first argument.  A caller that awaits does
  not get every failure as it was raised (`Style.raised`).
-/
import Permits.Proofs.Acquiring
import Permits.Proofs.Conduct
import Permits.Proofs.Exclusion

namespace Permits

open Text
open Course (Event)

/-! ## The rules -/

/-- A failure of a call as it reaches a caller of some style. -/
abbrev Reach : Type := Style → Failure → Failure

section Rules

variable (reach : Reach)

/-- How a block is entered: its one pop fails, or gets nothing in time, or gets an entry. -/
inductive Enters (s : Semaphore) : List Event → Except Failure Unit → Prop where
  | refused (f : Failure) :
      Enters s [.sent s.store s.entry (.error f)] (.error (reach s.store.style f))
  | late (ms : Int) :
      Enters s [.sent s.store s.entry (.ok .none), .noted (.timedOut s.name ms)]
        (.error (.timedOut s.name.toValue (.float s.timeout)))
  | entered (entry : Bytes) (ms : Int) :
      Enters s [.sent s.store s.entry (.ok (s.entry.handing entry)), .noted (.acquired s.name ms)]
        (.ok ())

/-- How a block is left whose body ended with `result`: its one push of a permit succeeds, and the
    block ends as its body, or fails, and the block ends with that.  What the push is answered by
    arises while a failure of the body is being handled, and has that for its context. -/
inductive Leaves (s : Semaphore) (result : Except Failure Unit) :
    List Event → Except Failure Unit → Prop where
  | returned (reply : Value) :
      Leaves s result [.sent s.store (.push s.name permit) (.ok reply),
        .noted (.pushed s.store.style s.name reply)] result
  | lost (f : Failure) (h : result = .ok ()) :
      Leaves s result [.sent s.store (.push s.name permit) (.error f)]
        (.error (reach s.store.style f))
  | lostDuring (f : Failure) {earlier : Failure} (h : result = .error earlier) :
      Leaves s result [.sent s.store (.push s.name permit) (.error f)]
        (.error ((reach s.store.style f).whileHandling earlier))

/-- How a block goes whose body goes as `inner` says. -/
inductive Blocks (s : Semaphore) (inner : List Event → Except Failure Unit → Prop) :
    List Event → Except Failure Unit → Prop where
  | missed {entry : List Event} {f : Failure} (h : Enters reach s entry (.error f)) :
      Blocks s inner ([.moment (.opened s)] ++ entry ++ [.moment (.closed s (.error f))]) (.error f)
  | ran {entry body exit : List Event} {result final : Except Failure Unit}
      (enters : Enters reach s entry (.ok ())) (runs : inner body result)
      (leaves : Leaves reach s result exit final) :
      Blocks s inner ([.moment (.opened s)] ++ entry ++ [.moment (.entered s)] ++ body ++
        [.moment (.left s result)] ++ exit ++ [.moment (.closed s final)]) final

/-- How a look at a semaphore goes. -/
inductive Looks : (c : Call) → List Event → Except Failure c.Result → Prop where
  | value (s : Semaphore) (n : Nat) :
      Looks (.value s) [.sent s.store (.length s.name) (.ok (.int n))] (.ok n)
  | valueFailed (s : Semaphore) (f : Failure) :
      Looks (.value s) [.sent s.store (.length s.name) (.error f)] (.error (reach s.store.style f))
  | locked (s : Semaphore) (n : Nat) :
      Looks (.locked s) [.sent s.store (.length s.name) (.ok (.int n))] (.ok (n = 0))
  | lockedFailed (s : Semaphore) (f : Failure) :
      Looks (.locked s) [.sent s.store (.length s.name) (.error f)] (.error (reach s.store.style f))

/-- How a routine goes that looks at semaphores and runs blocks. -/
def Routine.Goes : Routine → List Event → Except Failure Unit → Prop
  | ends result, events, final => events = [] ∧ final = result
  | call c next, events, final => ∃ first rest result,
      events = first ++ [.moment (.returned c result)] ++ rest ∧ Looks reach c first result ∧
        (next result).Goes rest final
  | within s body next, events, final => ∃ first rest result,
      events = first ++ rest ∧ Blocks reach s body.Goes first result ∧ (next result).Goes rest final

end Rules

/-- Does a call only look at a semaphore? -/
def Call.IsLook : Call → Prop
  | value _ | locked _ => True
  | _ => False

/-! ## All runs -/

/-- The trace with some more events, which are such as the rule says for the result. -/
def Adds {α : Type} (rule : List Event → α → Prop) (g : List Event) (r : α) (g' : List Event) :
    Prop :=
  ∃ events, g' = g ++ events ∧ rule events r

section Always

variable {k : Conditions} {g : List Event} {s : Semaphore}

/-- What every course records is recorded of an operation by these rules. -/
abbrev Records (k : Conditions) {α : Type} (rule : List Event → α → Prop) (g : List Event)
    (p : Course α) : Prop :=
  p.Always k.Admits .trace (fun _ => True) (Adds rule g) g

theorem always_enters : Records k (Enters Style.raised s) g (.perform s.enter) := by
  refine Semaphore.always_enter trivial fun a r hr => ⟨trivial, ?_⟩
  cases hr with
  | entry e => exact fun ms => ⟨trivial, _, List.append_assoc .., .entered e ms⟩
  | nothing => exact fun ms => ⟨trivial, _, List.append_assoc .., .late ms⟩
  | raised => exact ⟨_, rfl, .refused _⟩

theorem always_leaves (result : Except Failure Unit) :
    Records k (fun events exited =>
      Leaves Style.raised s result events (Semaphore.blockResult result exited)) g
      (.perform s.exit) := by
  refine Semaphore.always_exit trivial fun a _ => ⟨trivial, ?_⟩
  cases a with
  | ok reply => exact ⟨trivial, _, List.append_assoc .., .returned reply⟩
  | error f =>
    cases result with
    | ok u => exact ⟨_, rfl, .lost f rfl⟩
    | error earlier => exact ⟨_, rfl, .lostDuring f rfl⟩

theorem always_looks {c : Call} (hc : c.IsLook) :
    Records k (Looks Style.raised c) g (.perform c.op) := by
  cases c with
  | value s =>
    refine Course.always_value trivial fun a ha => ⟨trivial, ?_⟩
    cases a with
    | error f => exact ⟨_, rfl, .valueFailed s f⟩
    | ok v =>
      obtain ⟨n, rfl⟩ := ha
      exact ⟨_, rfl, .value s n⟩
  | locked s =>
    refine Course.always_locked trivial fun a ha => ⟨trivial, ?_⟩
    cases a with
    | error f => exact ⟨_, rfl, .lockedFailed s f⟩
    | ok v =>
      obtain ⟨n, rfl⟩ := ha
      have none_left : decide ((n : Int) ≤ 0) = decide (n = 0) := decide_eq_decide.mpr (by omega)
      refine ⟨_, rfl, ?_⟩
      show Looks Style.raised (.locked s) _ (.ok (decide ((n : Int) ≤ 0)))
      rw [none_left]
      exact .locked s n
  | _ => exact hc.elim

theorem always_blocks {inner : List Event → Except Failure Unit → Prop}
    {body : Course (Except Failure Unit)} (hb : ∀ g, Records k inner g body) :
    Records k (Blocks Style.raised s inner) g (Routine.block s body) := by
  refine Semaphore.always_block trivial (always_enters.mono fun r g' _ hr => ?_)
  obtain ⟨entry, rfl, enters⟩ := hr
  cases r with
  | error f =>
    refine ⟨trivial, _, ?_, .missed enters⟩
    show g ++ [_] ++ entry ++ [_] = _
    simp
  | ok u =>
    refine (hb _).mono fun result g' _ hr => ?_
    obtain ⟨events, rfl, runs⟩ := hr
    refine (always_leaves result).mono fun exited g' _ hr => ?_
    obtain ⟨exit, rfl, leaves⟩ := hr
    refine ⟨trivial, _, ?_, .ran enters runs leaves⟩
    show g ++ [_] ++ entry ++ [_] ++ events ++ [_] ++ exit ++ [_] = _
    simp

/-- **Whatever a routine is answered, it goes by the rules.** -/
theorem Routine.always_goes {p : Routine} (hp : p.Only Call.IsLook) (g : List Event) :
    Records k (p.Goes Style.raised) g p.course := by
  -- What a part of the routine records comes after any trace so far.
  induction p generalizing g with
  | ends result => exact ⟨trivial, [], (List.append_nil g).symm, rfl, rfl⟩
  | call c next ih =>
    refine Course.always_bind ((always_looks hp.1).ends.mono fun r g' _ hr => ?_)
    obtain ⟨⟨first, rfl, looks⟩, ends⟩ := hr
    refine Course.always_moment trivial ((ih r (hp.2 r ends) _).mono fun final g' _ hr => ?_)
    obtain ⟨rest, rfl, goes⟩ := hr
    refine ⟨_, ?_, first, rest, r, rfl, looks, goes⟩
    show g ++ first ++ [_] ++ rest = _
    simp
  | within s body next ihb ihn =>
    refine Course.always_bind ((always_blocks fun g => ihb hp.1 g).mono fun r g' _ hr => ?_)
    obtain ⟨first, rfl, blocks⟩ := hr
    refine (ihn r (hp.2 r) _).mono fun final g' _ hr => ?_
    obtain ⟨rest, rfl, goes⟩ := hr
    exact ⟨_, List.append_assoc .., first, rest, r, rfl, blocks, goes⟩

end Always

/-! ## Runs of a lone caller -/

theorem Call.IsLook.spares {c : Call} (h : c.IsLook) (key : Bytes) : c.Spares key := by
  cases c with
  | value s => exact Semaphore.sends_value trivial
  | locked s => exact Semaphore.sends_locked trivial
  | _ => exact h.elim

section Solo

variable {x : Setting} {t : Timer} {p : Routine} {st : Solo}

/-- A lone caller gives back what it takes, unless a push fails. -/
theorem Routine.run_length (ht : ∀ n, t.reads (x.clock n)) (hp : p.Only Call.IsLook)
    (hs : st.lists.waiters = []) (key : Bytes) :
    (p.course.run x.answer st).state.lists.length key +
        total (·.lost key) (p.course.run x.answer st).events = st.lists.length key := by
  have sound : Tally.Sound {} := by constructor <;> simp
  -- The caller's tally comes back to nothing, so what it took it gave or lost.
  have settled := ((sound.routine (k := x.conditions t)
    (hp.mono fun c hc => hc.spares key)).run x.answer (Setting.admits ht) st).2
  have balance := Ledger.read_tally_add_lost key (p.course.run x.answer st).events
  have entries := congrArg List.length ((x.run_entries p.course hs).2 key)
  rw [List.length_append, List.length_append] at entries
  rw [settled] at balance
  have held : ({} : Tally).held = 0 := rfl
  show ((Lists.entries _ key).length : Int) + _ = (Lists.entries _ key).length
  omega

/-- **A lone caller goes by the rules**, whichever of its calls fail, and every list is as long
    afterwards as before, but for the permits whose push failed. -/
theorem Routine.goes (ht : ∀ n, t.reads (x.clock n)) (hp : p.Only Call.IsLook)
    (hs : st.lists.waiters = []) :
    p.Goes Style.raised ((p.course.run x.answer st).events.filter (!·.isQuiet))
      (p.course.run x.answer st).result ∧
    ∀ key, (p.course.run x.answer st).state.lists.length key +
      total (·.lost key) (p.course.run x.answer st).events = st.lists.length key := by
  refine ⟨?_, fun key => run_length ht hp hs key⟩
  obtain ⟨events, heq, goes⟩ := (always_goes (k := x.conditions t) hp []).run x.answer
    (Setting.admits ht) st
  rw [Ledger.read_trace, List.nil_append, List.nil_append] at heq
  exact heq ▸ goes

end Solo

/-! ## A failing push, and a failing pop -/

/-- One call is answered by the failure that is reserved for the end of an iteration. -/
def stoppingAt (call : Nat) : Setting :=
  { Setting.sevens with fails := fun n => if n = call then some (.bare "StopIteration") else none }

/-- A semaphore whose callers are suspended while they wait. -/
def patient : Semaphore := .brief (.text "k") ⟨⟨"lists", .awaited⟩⟩

/-- Two blocks of one semaphore, the second inside the first, which ends with a failure of its own. -/
def nested : Routine :=
  .within patient (.within patient (.ends (.ok ())) fun _ => .ends (.error (.bare "ValueError"))) .ends

theorem nested_looks : nested.Only Call.IsLook :=
  ⟨⟨trivial, fun _ => trivial⟩, fun _ => trivial⟩

/-- The list of the semaphore, with some entries, after some looks at the clock and some calls. -/
def filled (entries : List Bytes) (looks calls : Nat) : Solo :=
  { lists := { table := [(patient.name.key, entries)] }, looks := looks, calls := calls }

/-- The outer block takes the only permit, so the inner one is late.  The outer body goes on from there
    and fails; then the push fails, too, and what the block ends with tells of both. -/
theorem nested_goes : ∃ ms ms' : Int, nested.Goes Style.raised
    [.moment (.opened patient),
      .sent patient.store patient.entry (.ok (patient.entry.handing [0x31])),
      .noted (.acquired patient.name ms), .moment (.entered patient),
      .moment (.opened patient), .sent patient.store patient.entry (.ok .none),
      .noted (.timedOut patient.name ms'), .moment (.closed patient (.error patient.lateness)),
      .moment (.left patient (.error (.bare "ValueError"))),
      .sent patient.store (.push patient.name permit) (.error (.bare "StopIteration")),
      .moment (.closed patient
        (.error (.stopped .coroutine (.during (.bare "ValueError") (.bare "StopIteration")))))]
    (.error (.stopped .coroutine (.during (.bare "ValueError") (.bare "StopIteration")))) := by
  have still : ∀ st : Solo, Timer.still.reads ((stoppingAt 2).answer .clock st).1 := fun _ => rfl
  obtain ⟨ms, enters⟩ := @Semaphore.run_enter_of_popped _ (stoppingAt 2).answer .still .still still
    patient _ _ (filled [[0x31]] 0 0) (filled [] 1 1) (.entry [0x31]) rfl
  obtain ⟨ms', late⟩ := @Semaphore.run_enter_of_popped _ (stoppingAt 2).answer .still .still still
    patient _ _ (filled [] 2 1) (filled [] 3 2) .nothing rfl
  have missed : (Routine.block patient (.done (.ok ()))).run (stoppingAt 2).answer (filled [] 2 1) =
      ⟨.moment (.opened patient) :: ([.answer .clock (.finite false 1),
        .sent patient.store patient.entry (.ok .none), .answer .clock (.finite false 1),
        .noted (.timedOut patient.name ms')] ++ [.moment (.closed patient (.error patient.lateness))]),
        .error patient.lateness, filled [] 4 2⟩ := by
    rw [Course.run_block, Course.run_bind, late]
    rfl
  have goes := (Routine.goes (x := stoppingAt 2) (t := .still) (fun _ => rfl) nested_looks
    (rfl : (filled [[0x31]] 0 0).lists.waiters = [])).1
  have ran : nested.course = Routine.block patient (Routine.block patient (.done (.ok ())) >>=
      fun _ => .done (.error (.bare "ValueError"))) >>= .done := rfl
  have goes_on : ((stoppingAt 2).answer (.log (outcome patient.name (.bytes [0x31]) ms))
      ((stoppingAt 2).answer .clock (filled [] 1 1)).2).2 = filled [] 2 1 := rfl
  refine ⟨ms, ms', ?_⟩
  rw [ran, Course.run_bind, Course.run_block, Course.run_bind, enters] at goes
  simp only [Semaphore.admission, Semaphore.isEntry, if_true, Course.run_bind, Course.run, goes_on,
    missed] at goes
  exact goes

/-- **Not every failure of a call reaches its caller as it was raised**: the pop of a block whose
    callers are suspended fails, and the block does not end with that very failure. -/
theorem not_goes_as_raised :
    ¬∀ (x : Setting) (t : Timer) (p : Routine) (st : Solo), (∀ n, t.reads (x.clock n)) →
      p.Only Call.IsLook → st.lists.waiters = [] →
      p.Goes (fun _ f => f) ((p.course.run x.answer st).events.filter (!·.isQuiet))
        (p.course.run x.answer st).result := by
  intro h
  have goes : nested.Goes (fun _ f => f)
      [.moment (.opened patient),
        .sent patient.store patient.entry (.error (.bare "StopIteration")),
        .moment (.closed patient (.error (.stopped .coroutine (.bare "StopIteration"))))]
      (.error (.stopped .coroutine (.bare "StopIteration"))) :=
    h (stoppingAt 0) .still nested { lists := {} } (fun _ => rfl) nested_looks rfl
  obtain ⟨first, rest, result, heq, blocks, rfl, rfl⟩ := goes
  cases blocks with
  | missed enters =>
    -- The block would have to end with the failure that its pop was answered by.
    cases enters with
    | refused f => cases heq
  | ran enters =>
    cases enters with
    | entered => cases heq

end Permits
