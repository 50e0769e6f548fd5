/-
  Releasing — many permits at once are as many permits one after the other.

  1. **Rounds** (`releaseTimes_succ`): to release many permits is to release one, and then the others
     if that went well.  So the row can be cut anywhere (`releaseTimes_add`).
  2. **Single releases** (`releaseTimes_eq_times`): each round is a release of its own, and the last
     one tells what the whole comes to.

  Both are equations between operations and speak of no surroundings, so they hold in all of them: in
  those where some push fails as in those that reply whatever they like (`releases_add`).
-/
import Permits.Proofs.Interruption

namespace Permits

open Course (Event onOk)

namespace Op

/-- Whenever an operation has been run many times in a row, there is one result of each time. -/
theorem returns_times {α : Type} (op : Op α) : ∀ n, (op.times n).Returns fun as => as.length = n
  | 0 => rfl
  | n + 1 => (returns_any op).bind fun _ _ => (returns_times op n).bind fun _ h => congrArg (· + 1) h

end Op

namespace Semaphore

variable (s : Semaphore)

/-! ## Rounds -/

/-- The first round, and then the others. -/
theorem releaseTimes_succ {n : Nat} (h : 1 ≤ n) :
    s.releaseTimes (n + 1) = Permits.release s.store s.name >>= fun _ => s.releaseTimes n := by
  cases n with
  | zero => cases h
  | succ n => rfl

/-- **A row of releases can be cut anywhere** in front of a release. -/
theorem releaseTimes_add {m : Nat} (hm : 1 ≤ m) :
    ∀ n, s.releaseTimes (n + m) = s.releaseTimes n >>= fun _ => s.releaseTimes m
  | 0 => by
    rw [Nat.zero_add]
    rfl
  | 1 => by
    rw [Nat.add_comm]
    exact s.releaseTimes_succ hm
  | n + 2 => by
    let one : Op Value := Permits.release s.store s.name
    calc s.releaseTimes (n + 2 + m)
        = s.releaseTimes (n + 1 + m + 1) := by rw [Nat.add_right_comm (n + 1)]
      _ = one >>= fun _ => s.releaseTimes (n + 1 + m) :=
          s.releaseTimes_succ (Nat.le_add_left_of_le hm)
      _ = one >>= fun _ => s.releaseTimes (n + 1) >>= fun _ => s.releaseTimes m := by
          rw [releaseTimes_add hm (n + 1)]
      _ = s.releaseTimes (n + 2) >>= fun _ => s.releaseTimes m := (Op.bind_assoc one _ _).symm

/-! ## Single releases -/

/-- A release of many permits is as many single releases, and has the result of the last one. -/
theorem releaseTimes_eq_times : ∀ n, s.releaseTimes n =
    (Permits.release s.store s.name).times n >>= fun acks => .ok (acks.getLastD .none)
  | 0 => rfl
  | 1 => by
    show Permits.release s.store s.name =
      (Permits.release s.store s.name >>= fun ack => Op.ok [ack]) >>= _
    rw [Op.bind_assoc]
    exact (Op.bind_ok _).symm
  | n + 2 => by
    have rest := releaseTimes_eq_times (n + 1)
    show (Permits.release s.store s.name >>= fun _ => s.releaseTimes (n + 1)) =
      (Permits.release s.store s.name >>= fun ack =>
        (Permits.release s.store s.name).times (n + 1) >>= fun acks => Op.ok (ack :: acks)) >>= _
    rw [rest, Op.bind_assoc]
    refine congrArg (Permits.release s.store s.name >>= ·) (funext fun ack => ?_)
    -- There is another acknowledgment behind the first one, so the last of all is the last of those.
    show ((Permits.release s.store s.name >>= fun next =>
        (Permits.release s.store s.name).times n >>= fun acks => Op.ok (next :: acks)) >>= _) =
      ((Permits.release s.store s.name >>= fun next =>
        (Permits.release s.store s.name).times n >>= fun acks => Op.ok (next :: acks)) >>= _) >>= _
    simp only [Op.bind_assoc]
    rfl

/-! ## Runs -/

/-- A positive integer is a count of permits. -/
theorem release_of_one_le {n : Int} (h : 1 ≤ n) : s.release (.int n) = s.releaseTimes n.toNat := by
  have natural : ((n.toNat : Nat) : Int) = n := Int.toNat_of_nonneg (Int.le_trans (by decide) h)
  have positive : 1 ≤ n.toNat := by omega
  rw [← s.release_int positive, natural]

/-- **Releasing is additive.**  In any surroundings, whatever they reply and whichever pushes fail in them,

    - a release of `n` permits and then, if it did not fail, one of `m` permits go as one release of
      `n + m` permits: with the same requests and answers in the same order, the same result or failure,
      and the same state in the end;
    - and a release of `n` permits goes as `n` single releases up to the first that fails, with the result
      of the last one. -/
theorem releases_add {σ : Type} (answer : (r : Request) → σ → r.Answer × σ) {n m : Int} (hn : 1 ≤ n)
    (hm : 1 ≤ m) (t : σ) :
    let first := Course.perform (s.release (.int n))
    let whole := Course.perform (s.release (.int (n + m)))
    let singles := Course.perform ((Permits.release s.store s.name).times n.toNat)
    (first >>= onOk fun _ => Course.perform (s.release (.int m))).run answer t = whole.run answer t ∧
      (first.run answer t).events = (singles.run answer t).events ∧
      (first.run answer t).state = (singles.run answer t).state ∧
      (first.run answer t).result = (singles.run answer t).result.map (·.getLastD .none) ∧
      ∀ acks, (singles.run answer t).result = .ok acks → acks.length = n.toNat := by
  intro first whole singles
  have sum : (n + m).toNat = n.toNat + m.toNat := Int.toNat_add (by omega) (by omega)
  have cut : s.release (.int (n + m)) = s.release (.int n) >>= fun _ => s.release (.int m) := by
    rw [s.release_of_one_le (by omega), s.release_of_one_le hn, s.release_of_one_le hm, sum]
    exact s.releaseTimes_add (by omega) n.toNat
  have rounds : first = singles >>= fun r => .done (r.map (·.getLastD .none)) := by
    show Course.perform (s.release (.int n)) = _
    rw [s.release_of_one_le hn, s.releaseTimes_eq_times, Course.perform_bind]
    refine congrArg (singles >>= ·) (funext fun r => ?_)
    cases r <;> rfl
  refine ⟨?_, ?_, ?_, ?_, fun acks hacks => ?_⟩
  · show _ = (Course.perform (s.release (.int (n + m)))).run answer t
    rw [cut, Course.perform_bind]
  · rw [rounds, Course.run_bind]
    exact List.append_nil _
  · rw [rounds, Course.run_bind]
    rfl
  · rw [rounds, Course.run_bind]
    rfl
  · have ends := Course.ends_run answer ((Permits.release s.store s.name).times n.toNat) t
    change Op.Ends _ (singles.run answer t).result at ends
    rw [hacks] at ends
    exact (Op.returns_times _ _).ends ends

/-- Two permits are released and then three, and the third push of all fails, as it does where five are
    released at once: two single releases went well, and there is no fourth. -/
theorem fivefold_releases_add :
    let first := Course.perform (prompt.release (.int 2))
    ((first >>= onOk fun _ => Course.perform (prompt.release (.int 3))).run thirdFails.answer
        { lists := {} }) =
      (Course.perform (prompt.release (.int (2 + 3)))).run thirdFails.answer { lists := {} } ∧
    (first.run thirdFails.answer { lists := {} }).result = .ok (.int 2) ∧
    ((Course.perform (prompt.release (.int 5))).run thirdFails.answer { lists := {} }).result =
      .error (.missingKey (.text "k")) := by
  obtain ⟨both, -⟩ := prompt.releases_add thirdFails.answer (n := 2) (m := 3) (by decide) (by decide)
    { lists := {} }
  exact ⟨both, rfl, rfl⟩

end Semaphore

end Permits
