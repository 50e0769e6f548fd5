/-
  Minting — a new semaphore has as many permits as it was made with.

  Before the fresh name is filled nothing is sent (`always_mint`), and to fill it is to push one
  permit after the other (`always_releaseTimes`).  So after a lone caller has minted a semaphore, the
  list of its name is what it was followed by the permits (`Semaphore.minted`), and no other list is
  changed.
-/
import Permits.Proofs.Receipts
import Permits.Proofs.Solo

namespace Permits

open Text
open Course (Event)

namespace Semaphore

variable {admits : (r : Request) → r.Answer → Prop} {g : Receipts}

/-- The receipts of a caller that has given some permits more. -/
def Filled (name : Name) (n : Nat) (g g' : Receipts) : Prop :=
  g'.settled = g.settled ∧ g'.taken = g.taken ∧
    g'.given = g.given ++ List.replicate n (name.key, [0x31])

theorem Filled.refl (name : Name) (g : Receipts) : Filled name 0 g g :=
  ⟨rfl, rfl, (List.append_nil _).symm⟩

theorem Filled.trans {name : Name} {m n : Nat} {g g' g'' : Receipts} (h : Filled name m g g')
    (h' : Filled name n g' g'') : Filled name (m + n) g g'' := by
  refine ⟨h'.1.trans h.1, h'.2.1.trans h.2.1, ?_⟩
  rw [h'.2.2, h.2.2, List.append_assoc, List.replicate_append_replicate]

/-- A push that is acknowledged gives one permit. -/
theorem filled_push (s : ListStore) (name : Name) (v : Value) (g : Receipts) :
    Filled name 1 g (Receipts.ledger.update g (.sent s (.push name permit) (.ok v))) := by
  refine ⟨rfl, List.append_nil _, ?_⟩
  show g.given ++ [(name.key, Lists.stored permit)] = _
  rw [Lists.stored_permit]
  rfl

theorem always_release {s : ListStore} {name : Name} {post : Except Failure Value → Receipts → Prop}
    (hok : ∀ v g', Filled name 1 g g' → post (.ok v) g') (herror : ∀ f g', post (.error f) g') :
    (Course.perform (Permits.release s name)).Always admits Receipts.ledger (fun _ => True) post g := by
  rw [Permits.release_eq]
  refine Course.always_push trivial fun a _ => ⟨trivial, ?_⟩
  refine Course.pushed_of_ignoresLog Receipts.ledger_ignoresLog trivial ?_
  cases a with
  | ok v => exact hok v _ (filled_push s name v g)
  | error f => exact herror _ _

/-- Permits that are released one after the other are all given if the last one is. -/
theorem always_releaseTimes (s : Semaphore) :
    ∀ (n : Nat) (g : Receipts),
      (Course.perform (s.releaseTimes n)).Always admits Receipts.ledger (fun _ => True)
        (fun r g' => ∀ v, r = .ok v → Filled s.name n g g') g
  | 0, g => ⟨trivial, fun _ _ => Filled.refl s.name g⟩
  | 1, g => always_release (fun _ _ hg _ _ => hg) fun _ _ _ he => nomatch he
  | n + 2, g => by
    refine Course.always_perform_bind (always_release (fun v g' hg => ?_) fun _ _ _ he => nomatch he)
    refine (s.always_releaseTimes (n + 1) g').mono fun r g'' _ h v hv => ?_
    rw [Nat.add_comm (n + 1) 1]
    exact hg.trans (h v hv)

/-- A positive count of permits is taken as it is. -/
theorem release_int (s : Semaphore) {n : Nat} (h : 1 ≤ n) : s.release (.int n) = s.releaseTimes n := by
  have below : isBelow 1 (.int n) = .ok false := by
    have hn : ¬(n : Int) < 1 := by omega
    show Except.ok (decide ((n : Int) < 1)) = .ok false
    rw [decide_eq_false hn]
  have count : releaseCount (.int n) = .ok n := by
    rw [releaseCount, below]
    rfl
  rw [release_eq, count]
  rfl

/-- What sends nothing gives and takes nothing. -/
theorem always_nothing {α : Type} {op : Op α} (h : op.Sends fun _ => False) (g : Receipts) :
    (Course.perform op).Always admits Receipts.ledger (fun _ => True) (fun _ g' => g' = g) g := by
  refine Course.always_of_all h (fun g' r a hr _ hg => ?_) (fun _ _ => trivial) rfl
  rw [← hg]
  cases r with
  | clock | draw | connect => exact Receipts.ledger.quiet g' _ a rfl
  | log r => exact Receipts.ledger_ignoresLog g' r
  | command => exact hr.elim

/-- To fill a semaphore with some permits is to release them if its callers wait as its store does. -/
theorem always_fill {style : Style} (s : Semaphore) {n : Nat} (h : 1 ≤ n) (g : Receipts) :
    (Course.perform (fill style s (.int n))).Always admits Receipts.ledger (fun _ => True)
      (fun r g' => r = .ok () → s.store.style = style → Filled s.name n g g') g := by
  by_cases own : s.store.style = style
  · rw [fill_of_eq own, s.release_int h]
    refine Course.always_perform_bind ((s.always_releaseTimes n g).mono fun r g' _ hr => ?_)
    cases r with
    | error f => exact fun he => nomatch he
    | ok v => exact ⟨trivial, fun _ _ => hr v rfl⟩
  · have sends : (fill style s (.int n)).Sends fun _ => True := sends_fill trivial
    refine (Course.always_of_all (I := fun _ => True) sends (fun _ _ _ _ _ _ => trivial)
      (fun _ _ => trivial) trivial).mono fun _ _ _ _ _ fits => absurd fits own

/-- A semaphore that is minted with `n` permits gets them all, unless its store is given and waits in
    another way than its callers. -/
theorem always_mint (options : Options) (source : SourceRef) (n : Nat) (g : Receipts) :
    (Course.perform (mint options source (.int n))).Always admits Receipts.ledger (fun _ => True)
      (fun r g' => ∀ s, r = .ok s → s.store.style = options.style → Filled s.name n g g') g := by
  have below : isBelow 0 (.int n) = .ok false := by
    have hn : ¬(n : Int) < 0 := by omega
    show Except.ok (decide ((n : Int) < 0)) = .ok false
    rw [decide_eq_false hn]
  rw [mint_eq]
  refine Course.always_perform_bind (Course.always_ofExcept trivial ?_)
  rw [below]
  -- Up to the filling nothing is sent.
  refine Course.always_perform_bind ((always_nothing Identifier.sends_mint g).mono ?_)
  rintro r _ - rfl
  cases r with
  | error f => exact fun _ he => nomatch he
  | ok name =>
    refine Course.always_perform_bind ((always_nothing sends_create.waitedFor _).mono ?_)
    rintro r _ - rfl
    cases r with
    | error f => exact fun _ he => nomatch he
    | ok s =>
      show (Course.perform (if (Value.int n).isTrue then _ else _)).Always _ _ _ _ _
      by_cases hn : n = 0
      -- To fill it with nothing is left out; a release of nothing would be refused.
      · subst hn
        refine ⟨trivial, fun _ hs _ => ?_⟩
        cases hs
        exact Filled.refl s.name _
      · have positive : (Value.int n).isTrue = true := by
          show ((n : Int) != 0) = true
          simp [hn]
        rw [if_pos positive]
        refine Course.always_perform_bind ((s.always_fill (Nat.pos_of_ne_zero hn) _).mono
          fun r g' _ hr => ?_)
        cases r with
        | error f => exact fun _ he => nomatch he
        | ok u =>
          refine ⟨trivial, fun _ hs fits => ?_⟩
          cases hs
          exact hr rfl fits

variable {x : Setting} {options : Options} {source : SourceRef} {n : Nat} {st st' : Solo}
  {s : Semaphore}

/-- **A new semaphore has as many permits as it was made with**, and nothing else is changed. -/
theorem minted (hs : st.lists.waiters = []) (fits : s.store.style = options.style)
    (h : (mint options source (.int n)).run x.answer st = (.ok s, st')) :
    st'.lists.waiters = [] ∧ ∀ key, st'.lists.entries key =
      st.lists.entries key ++ if key = s.name.key then List.replicate n [0x31] else [] := by
  obtain ⟨result, state⟩ := Course.run_perform x.answer (mint options source (.int n)) st
  obtain ⟨nobody, entries⟩ := x.run_entries (Course.perform (mint options source (.int n))) hs
  have filled := (always_mint options source n {} : Course.Always (fun _ _ => True) _ _ _ _ _).run
    x.answer (fun _ _ => trivial) st s
  rw [h] at result state
  -- The receipts tell what the events took and gave, and the lists follow from that.
  generalize (Course.perform (mint options source (.int n))).run x.answer st = run at *
  obtain ⟨settled, taken, given⟩ := filled result fits
  have none_taken : run.events.flatMap Event.taken = [] := by
    have all_taken := Receipts.read_taken {} run.events
    rw [settled, taken] at all_taken
    exact all_taken.symm
  have all_given : run.events.flatMap Event.given = List.replicate n (s.name.key, [0x31]) := by
    rw [Receipts.read_given] at given
    exact given
  rw [state] at nobody entries
  refine ⟨nobody, fun key => ?_⟩
  have hk := entries key
  rw [none_taken, all_given, under_replicate] at hk
  exact hk

end Semaphore

end Permits
