/-
  Conservation — entries in the world are neither lost nor made up.

  The history of a world tells which entries were **taken** out of lists, and which were **given** to
  them (`World.taken`, `World.given`), each in the order in which it came about.  Whatever callers do
  and in whatever order, what was taken of a list followed by what is in it is what was in it at the
  start followed by what was given to it (`Reaches.conserves`).
-/
import Permits.Proofs.World.Basic

namespace Permits

open Text
open Course (Event)

/-! ## Entries in events -/

namespace Course.Event

/-- The entry that an event takes out of a list, with the list's key. -/
def taken : Event → List (Bytes × Bytes)
  | .answer (.command _ c) (.ok v) => c.takes v
  | _ => []

/-- The entry that an event gives to a list, with the list's key. -/
def given : Event → List (Bytes × Bytes)
  | .answer (.command _ c) (.ok _) => c.gives
  | _ => []

end Course.Event

namespace World

/-- The entries that were taken, in order of service. -/
def taken (w : World) : List (Bytes × Bytes) := w.history.flatMap fun p => p.2.taken

/-- The entries that were given, in order. -/
def given (w : World) : List (Bytes × Bytes) := w.history.flatMap fun p => p.2.given

@[simp] theorem taken_goOn (w : World) (i : Nat) (e : Event)
    (rest : Course (Except Failure Unit)) : (w.goOn i e rest).taken = w.taken ++ e.taken := by
  show (w.history ++ [(i, e)]).flatMap _ = _
  simp [taken]

@[simp] theorem given_goOn (w : World) (i : Nat) (e : Event)
    (rest : Course (Except Failure Unit)) : (w.goOn i e rest).given = w.given ++ e.given := by
  show (w.history ++ [(i, e)]).flatMap _ = _
  simp [given]

/-! ## The law -/

/-- Entries that are about to be taken count as taken. -/
def Conserves (before : Bytes → List Bytes) (pending : List (Bytes × Bytes)) (w : World) : Prop :=
  ∀ key, under key (w.taken ++ pending) ++ w.lists.entries key = before key ++ under key w.given

/-- An event that neither takes nor gives changes nothing. -/
theorem Conserves.goOn {before : Bytes → List Bytes} {w : World} (h : w.Conserves before [])
    {i : Nat} {e : Event} (ht : e.taken = []) (hg : e.given = [])
    (rest : Course (Except Failure Unit)) : (w.goOn i e rest).Conserves before [] := by
  intro key
  rw [taken_goOn, given_goOn, ht, hg, List.append_nil w.taken, List.append_nil w.given]
  exact h key

/-- A pop that was served takes the entry that was meant for it. -/
theorem Conserves.hand {before : Bytes → List Bytes} {w : World} {key entry : Bytes}
    {pending : List (Bytes × Bytes)} (h : w.Conserves before ((key, entry) :: pending)) {i : Nat}
    (hw : w.Awaits i key) : (w.hand i (Lists.pair key entry)).Conserves before pending := by
  obtain ⟨x, name, seconds, next, hc, rfl⟩ := hw
  unfold World.hand
  rw [hc]
  intro key
  have hg : (Event.answer (.command x (.blockingPop name seconds))
      (.ok (Lists.pair name.key entry))).given = [] := rfl
  have ht : (Event.answer (.command x (.blockingPop name seconds))
      (.ok (Lists.pair name.key entry))).taken = [(name.key, entry)] := rfl
  rw [taken_goOn, given_goOn, hg, ht, List.append_nil, List.append_assoc]
  exact h key

theorem Step.conserves {k : Conditions} {w w' : World} (hs : Step k w w') (hw : Coherent k w)
    {before : Bytes → List Bytes} (h : w.Conserves before []) : w'.Conserves before [] := by
  cases hs with
  | tick => exact h
  | @tell i r next hc a ha =>
    cases r with
    | clock | log | draw | connect => exact h.goOn rfl rfl _
    | command => exact ha.elim
  | pass hc => exact h.goOn rfl rfl _
  | @serve i x c v next hc free hv =>
    have outcome := w.lists.outcome_execute c
    have distinct := (List.nodup_append.mp (served_distinct hw c)).1
    -- The command's own entry and those of the pops it serves are taken in one go.
    have first : ({ w with lists := (w.lists.execute c).lists }.goOn i
        (.answer (.command x c) (.ok v)) (next (.ok v))).Conserves before
          ((w.lists.execute c).served.map Waiter.takes) := by
      intro key
      have hk := h key
      have ho := outcome.entries_eq hv key
      rw [List.append_nil] at hk
      rw [under_append] at ho
      rw [taken_goOn, given_goOn]
      show under key (w.taken ++ c.takes v ++ _) ++ (w.lists.execute c).lists.entries key =
        before key ++ under key (w.given ++ c.gives)
      calc under key (w.taken ++ c.takes v ++ (w.lists.execute c).served.map Waiter.takes) ++
            (w.lists.execute c).lists.entries key
          = under key w.taken ++ (w.lists.entries key ++ under key c.gives) := by
            rw [← ho]
            simp
        _ = before key ++ under key (w.given ++ c.gives) := by
            rw [← List.append_assoc, hk]
            simp
    refine handAll_induction
      (P := fun rest w => w.Conserves before (rest.map Waiter.takes)) ?_ first distinct
      (awaits_served hw free c _ _)
    intro u e rest w hp ha
    exact hp.hand ha
  | wait => exact h
  | @expire v hm due =>
    unfold World.hand
    split
    · next x c next hc =>
      refine Conserves.goOn (w := { w with lists := w.lists.leave v.ticket }) h ?_ ?_ _
      · exact c.takes_none
      · obtain ⟨y, name, seconds, next', hc', -⟩ := hw.awaits v hm
        have heq := hc'.symm.trans hc
        cases heq
        rfl
    · exact h
  | @fail i x c f next hc hf =>
    exact Conserves.goOn (w := { w with lists := w.lists.leave i }) h rfl rfl _

/-- **No entry is lost and none is made up**, in whatever order callers take their turns. -/
theorem Reaches.conserves {k : Conditions} {start w : World} (h : Reaches k start w)
    (hw : Coherent k start) (hs : start.history = []) (key : Bytes) :
    under key w.taken ++ w.lists.entries key =
      start.lists.entries key ++ under key w.given := by
  have law : w.Conserves start.lists.entries [] := by
    induction h with
    | refl =>
      intro key
      simp [taken, given, hs]
    | step hr hs ih => exact hs.conserves (hr.coherent hw) ih
  have hk := law key
  rw [List.append_nil] at hk
  exact hk

end World

end Permits
