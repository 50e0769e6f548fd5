/-
  Delivery — every permit that was taken reached the caller whose call took it.

  Callers exchange permits in a world, each by a routine of its own and in any order.  In every state
  that they reach together (`World.delivered`), the entries taken of a list, in order, and then the
  list itself are what the list was and then one permit for each push; and the receipts of all
  callers are in order.
-/
import Permits.Proofs.Receipts
import Permits.Proofs.World.Accounts

namespace Permits

open Text
open Course (Event)

/-! ## Pushes -/

namespace Course.Event

/-- Is an event a push to a list that was acknowledged? -/
def isPush (key : Bytes) : Event → Bool
  | .answer (.command _ (.push name _)) (.ok _) => name.key = key
  | _ => false

end Course.Event

theorem Course.Event.length_under_given (key : Bytes) (e : Event) :
    (under key e.given).length = if e.isPush key then 1 else 0 := by
  cases e with
  | moment m => rfl
  | answer r a =>
    cases r with
    | clock | log | draw | connect => rfl
    | command x c =>
      cases a with
      | error f => cases c <;> rfl
      | ok v =>
        cases c with
        | pop | blockingPop | length => rfl
        | push name v => by_cases hk : name.key = key <;> simp [given, Command.gives, isPush, hk]

/-- Entries of a list are counted by the events that they stand in. -/
theorem length_under {f : Event → List (Bytes × Bytes)} {p : Event → Bool} {key : Bytes}
    (h : ∀ e, (under key (f e)).length = if p e then 1 else 0) (history : List (Nat × Event)) :
    (under key (history.flatMap fun q => f q.2)).length = history.countP fun q => p q.2 := by
  induction history with
  | nil => rfl
  | cons q rest ih =>
    rw [List.flatMap_cons, under_append, List.length_append, h, ih, List.countP_cons, Nat.add_comm]

/-- Where only one kind of entry is given, what a list is given is told by the number of pushes. -/
theorem under_given {history : List (Nat × Event)} {entry : Bytes}
    (h : ∀ e ∈ history, ∀ p ∈ e.2.given, p.2 = entry) (key : Bytes) :
    under key (history.flatMap (·.2.given)) =
      List.replicate (history.countP (·.2.isPush key)) entry := by
  refine List.eq_replicate_iff.mpr ⟨length_under (Event.length_under_given key) history, fun b hb => ?_⟩
  obtain ⟨e, he, hp⟩ := List.mem_flatMap.mp (mem_under.mp hb)
  exact h e he _ hp

namespace World

/-- The number of pushes to a list so far. -/
def pushes (w : World) (key : Bytes) : Nat := w.history.countP fun p => p.2.isPush key

/-- The receipts of one caller. -/
def receipts (w : World) (i : Nat) : Receipts := Receipts.ledger.read {} (w.eventsOf i)

variable {k : Conditions} {lists : Lists} {t : Number.Double} {routines : Nat → Routine}

/-- **Every permit that was taken reached the caller whose call took it.**  Callers exchange permits
    as they like and in any order, and calls may fail.  Then

    - what was taken of a list, in order, followed by what is in it is what was in it at the start
      followed by one permit for each push;
    - what a call took is what its result tells, and what was taken between two moments of a caller
      is at most one entry;
    - an entry that was handed to a caller is in its receipts, once. -/
theorem delivered (hl : lists.waiters = []) (ht : k.reads t)
    (hr : ∀ i, (routines i).Only Call.Exchanges) {w : World}
    (h : Reaches k (start lists t routines) w) :
    (∀ key, under key w.taken ++ w.lists.entries key =
      lists.entries key ++ List.replicate (w.pushes key) [0x31]) ∧
    (∀ i, (w.receipts i).Fine) ∧
    ∀ i, (w.receipts i).settled.flatMap (·.1) ++ (w.receipts i).taken =
      (w.eventsOf i).flatMap Event.taken := by
  have coherent := coherent_start hl ht routines
  have even : Receipts.Even {} := ⟨⟨by simp, Nat.zero_le 1, by simp⟩, rfl⟩
  have keeps : (start lists t routines).Keeps k Receipts.ledger Receipts.Fine
      (fun _ g => g.Even) {} :=
    fun i => even.routine (hr i)
  have fine : ∀ i, (w.receipts i).Fine := fun i => (h.keeps coherent keeps i).invariant
  refine ⟨fun key => ?_, fine, fun i => Receipts.read_taken {} (w.eventsOf i)⟩
  have permits : ∀ e ∈ w.history, ∀ p ∈ e.2.given, p.2 = [0x31] := by
    intro e he p hp
    rw [← Lists.stored_permit]
    refine (fine e.1).permits p ?_
    rw [receipts, Receipts.read_given]
    exact List.mem_append_right _ (List.mem_flatMap.mpr ⟨e.2, mem_under.mpr he, hp⟩)
  rw [h.conserves coherent rfl key, given, under_given permits key]
  rfl

/-- One caller acquires a permit and another releases one. -/
def handover : Nat → Routine
  | 0 => .call (.acquire ⟨⟨"lists", .awaited⟩⟩ (.text "k") (.float (.finite false 1))) fun _ =>
    .ends (.ok ())
  | 1 => .call (.release ⟨⟨"lists", .direct⟩⟩ (.text "k")) fun _ => .ends (.ok ())
  | _ => .ends (.ok ())

/-- The acquire comes first and waits until it is served by the release, which returns. -/
theorem handover_delivered : ∃ w, Reaches .still (start {} (.finite false 1) handover) w ∧
    w.taken = [([0x6b], [0x31])] ∧ w.pushes [0x6b] = 1 ∧ (w.receipts 1).settled.length = 1 ∧
    (∀ key, under key w.taken ++ w.lists.entries key = List.replicate (w.pushes key) [0x31]) ∧
    ∀ i, (w.receipts i).Fine := by
  have exchanges : ∀ i, (handover i).Only Call.Exchanges := by
    intro i
    match i with
    | 0 | 1 => exact ⟨trivial, fun _ _ => trivial⟩
    | i + 2 => trivial
  have waits := Reaches.step (Reaches.step .refl (.tell (k := .still)
    (w := start {} (.finite false 1) handover) (i := 0) (r := .clock) rfl rfl))
    (.wait (i := 0) rfl rfl rfl)
  have served := waits.step (.serve (i := 1) rfl rfl rfl)
  have returned := (served.step (.tell (i := 1) (r := .log _) rfl (a := ()) trivial)).step
    (.pass (i := 1) rfl)
  obtain ⟨entries, fine, -⟩ := delivered rfl rfl exchanges returned
  exact ⟨_, returned, rfl, rfl, rfl, entries, fine⟩

end World

end Permits
