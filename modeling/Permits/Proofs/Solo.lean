/-
  Solo — one caller alone with a store.

  Nobody pushes while a lone caller waits, so a pop that finds nothing is answered by nothing, at
  its deadline if not at once.  A setting (`Setting`) fixes all that is not up to the store: what
  the clock shows at each look, what is drawn, and which calls fail; a call that fails leaves the
  store as it is.

  1. **Answers** (`Setting.answer`): every request of a lone caller is answered at once, so that its
     course runs to the end (`Course.run`).  The conditions admit the answers (`Setting.admits`).
  2. **Conservation** (`Setting.run_entries`): over a whole run, what was taken of a list followed by
     what is left is what was there followed by what was given.
-/
import Permits.Proofs.World.Conservation

namespace Permits

open Number Text
open Course (Event)

/-- A semaphore that waits for the shortest time there is. -/
def Semaphore.brief (name : Name) (store : ListStore) : Semaphore where
  name := name
  store := store
  timeout := .finite false 1
  className := classOf store.style
  timeout_finite := rfl

/-- What a lone caller finds besides the lists. -/
structure Setting where
  /-- What the clock shows at each look. -/
  clock : Nat → Double
  draws : Nat → Except Failure Value
  /-- The failure of each call, if it fails. -/
  fails : Nat → Option Failure

/-- The lists, and how many looks, draws and calls there were. -/
structure Solo where
  lists : Lists
  looks : Nat := 0
  drawn : Nat := 0
  calls : Nat := 0

namespace Setting

/-- Carries out a command, unless the call fails. -/
def call (x : Setting) (c : Command) (s : Solo) : Except Failure Value × Solo :=
  match x.fails s.calls with
  | some f => (.error f, { s with calls := s.calls + 1 })
  | none =>
    let effect := s.lists.execute c
    (.ok (effect.reply.getD .none), { s with lists := effect.lists, calls := s.calls + 1 })

/-- Answers a request. -/
def answer (x : Setting) : (r : Request) → Solo → r.Answer × Solo
  | .command _ c, s => x.call c s
  | .clock, s => (x.clock s.looks, { s with looks := s.looks + 1 })
  | .draw .., s => (x.draws s.drawn, { s with drawn := s.drawn + 1 })
  | .log _, s | .connect _, s => ((), s)

/-- The timer, and the failures that occur in the setting. -/
def conditions (x : Setting) (t : Timer) : Conditions := ⟨t, fun f => ∃ n, x.fails n = some f⟩

/-- The clock stands still, every draw gives seven, and no call fails. -/
def sevens : Setting := ⟨fun _ => .finite false 1, fun _ => .ok (.int 7), fun _ => none⟩

variable {x : Setting}

theorem admits {t : Timer} (h : ∀ n, t.reads (x.clock n)) (r : Request) (s : Solo) :
    (x.conditions t).Admits r (x.answer r s).1 := by
  cases r with
  | clock => exact h s.looks
  | log | draw | connect => trivial
  | command e c =>
    show (x.conditions t).Admits (.command e c) (x.call c s).1
    unfold call
    split
    · next f hf => exact ⟨s.calls, hf⟩
    · show c.Answers ((s.lists.execute c).reply.getD .none)
      cases hv : (s.lists.execute c).reply with
      | some v => exact (s.lists.outcome_execute c).answers hv
      | none =>
        obtain ⟨name, seconds, rfl⟩ := (s.lists.outcome_execute c).of_waits hv
        exact .inl rfl

/-! ## Conservation -/

/-- One call: nobody begins to wait, and no entry is lost or made up. -/
theorem call_entries (x : Setting) (e : Executor) (c : Command) {s : Solo}
    (hs : s.lists.waiters = []) :
    (x.call c s).2.lists.waiters = [] ∧ ∀ key,
      under key (Event.answer (.command e c) (x.call c s).1).taken ++
          (x.call c s).2.lists.entries key =
        s.lists.entries key ++ under key (Event.answer (.command e c) (x.call c s).1).given := by
  have outcome := s.lists.outcome_execute c
  have nobody := outcome.perm
  rw [hs, List.perm_nil, List.append_eq_nil_iff, List.map_eq_nil_iff] at nobody
  unfold call
  split
  · exact ⟨hs, fun key => (List.append_nil _).symm⟩
  · refine ⟨nobody.2, fun key => ?_⟩
    show under key (c.takes ((s.lists.execute c).reply.getD .none)) ++
      (s.lists.execute c).lists.entries key = s.lists.entries key ++ under key c.gives
    cases hv : (s.lists.execute c).reply with
    | some v =>
      have h := outcome.entries_eq hv key
      rw [nobody.1, List.map_nil, List.append_nil] at h
      exact h
    | none =>
      obtain ⟨name, seconds, rfl⟩ := outcome.of_waits hv
      rw [outcome.lists_of_waits hv]
      exact (List.append_nil _).symm

theorem answer_entries (x : Setting) (r : Request) {s : Solo} (hs : s.lists.waiters = []) :
    (x.answer r s).2.lists.waiters = [] ∧ ∀ key,
      under key (Event.answer r (x.answer r s).1).taken ++ (x.answer r s).2.lists.entries key =
        s.lists.entries key ++ under key (Event.answer r (x.answer r s).1).given := by
  cases r with
  | clock | log | draw | connect => exact ⟨hs, fun key => (List.append_nil _).symm⟩
  | command e c => exact x.call_entries e c hs

/-- **Over a whole run no entry is lost and none is made up.** -/
theorem run_entries {α : Type} (x : Setting) (p : Course α) {s : Solo}
    (hs : s.lists.waiters = []) :
    (p.run x.answer s).state.lists.waiters = [] ∧ ∀ key,
      under key ((p.run x.answer s).events.flatMap Event.taken) ++
          (p.run x.answer s).state.lists.entries key =
        s.lists.entries key ++ under key ((p.run x.answer s).events.flatMap Event.given) := by
  induction p generalizing s with
  | done a => exact ⟨hs, fun key => (List.append_nil _).symm⟩
  | mark m next ih => exact ih hs
  | ask r next ih =>
    obtain ⟨hw, first⟩ := x.answer_entries r hs
    obtain ⟨hw', rest⟩ := ih (x.answer r s).1 hw
    refine ⟨hw', fun key => ?_⟩
    have events : ((Course.ask r next).run x.answer s).events =
        .answer r (x.answer r s).1 :: ((next (x.answer r s).1).run x.answer (x.answer r s).2).events := rfl
    have state : ((Course.ask r next).run x.answer s).state =
        ((next (x.answer r s).1).run x.answer (x.answer r s).2).state := rfl
    rw [events, state, List.flatMap_cons, List.flatMap_cons, under_append, under_append,
      List.append_assoc, rest key, ← List.append_assoc, first key, List.append_assoc]

/-! ## Counting -/

/-- A count that does not fail tells the length of the list, and leaves the lists as they are. -/
theorem run_value {x : Setting} {st : Solo} (h : x.fails st.calls = none) (s : Semaphore) :
    (Course.perform s.value).run x.answer st =
      ⟨[.answer (.command s.store.executor (.length s.name)) (.ok (.int (st.lists.length s.name.key)))],
        .ok (st.lists.length s.name.key), { st with calls := st.calls + 1 }⟩ := by
  have told : x.call (.length s.name) st =
      (.ok (.int (st.lists.length s.name.key)), { st with calls := st.calls + 1 }) := by
    unfold call
    rw [h]
    rfl
  rw [s.value_eq, s.store.length_eq]
  show (Course.run x.answer (Course.perform (Op.done (s.store.style.received
    (x.call (.length s.name) st).1) >>= fun reply => Op.ofExcept (Reply.count reply)))
      (x.call (.length s.name) st).2).after (.answer (.command s.store.executor (.length s.name))
        (x.call (.length s.name) st).1) = _
  rw [told]
  rfl

end Setting

end Permits
