/-
  Order — rounding keeps the order of numbers, and the sign of those that are not too small.

  1. **To the nearest** (`nearest_mono`): which numbers are rounded to at most `k` is said by one bound
     (`nearest_le_iff`), and a bound can be scaled.
  2. **To 53 significant bits** (`roundUnits_mono`): two numbers are rounded on one grid, or there is a
     power of two between them (`grids_of_le`), which lies on both of their grids.
  3. **Fractions** (`Double.ofIntRatio_le`, `Double.zero_lt_ofIntRatio_iff`): of two fractions the greater
     one is rounded to no less.  One with a small denominator is no less than a unit unless it is zero,
     so it is not rounded to nothing.
-/
import Permits.Proofs.Rounding

namespace Permits.Number

/-! ## To the nearest -/

/-- A quotient is rounded to at most `k` exactly if it is no nearer to `k + 1`, and the tie is broken
    towards the even one of the two. -/
theorem nearest_le_iff {num den : Nat} (hd : 0 < den) (k : Nat) :
    nearest num den ≤ k ↔
      2 * num < den * (2 * k + 1) ∨ 2 * num = den * (2 * k + 1) ∧ k % 2 = 0 := by
  have whole := Nat.div_add_mod num den
  have rest := Nat.mod_lt num hd
  unfold nearest
  simp only
  generalize num / den = q at *
  generalize num % den = r at *
  have odd : den * (2 * k + 1) = 2 * (den * k) + den := by
    rw [Nat.mul_succ, Nat.mul_left_comm]
  rcases Nat.lt_trichotomy k q with hk | rfl | hk
  · obtain ⟨d, rfl⟩ : ∃ d, q = k + 1 + d := ⟨q - k - 1, by omega⟩
    have far : den * (k + 1 + d) = den * k + den + den * d := by
      rw [Nat.mul_add, Nat.mul_succ]
    refine iff_of_false ?_ (by omega)
    split
    · omega
    · split <;> omega
  · split
    · omega
    · split <;> omega
  · obtain ⟨d, rfl⟩ : ∃ d, k = q + 1 + d := ⟨k - q - 1, by omega⟩
    have far : den * (q + 1 + d) = den * q + den + den * d := by
      rw [Nat.mul_add, Nat.mul_succ]
    refine iff_of_true ?_ (.inl (by omega))
    split
    · omega
    · split <;> omega

/-- A greater quotient is rounded to no less. -/
theorem nearest_mono {num den num' den' : Nat} (hd : 0 < den) (hd' : 0 < den')
    (h : num * den' ≤ num' * den) : nearest num den ≤ nearest num' den' := by
  have bound := (nearest_le_iff hd' (nearest num' den')).mp (Nat.le_refl _)
  generalize nearest num' den' = k at bound ⊢
  rw [nearest_le_iff hd]
  -- Both sides of the bound are scaled by `den`, and `den'` is cancelled at the end.
  have scaled : 2 * num * den' ≤ 2 * num' * den := by
    rw [Nat.mul_assoc, Nat.mul_assoc]
    exact Nat.mul_le_mul_left 2 h
  have swapped : den' * (2 * k + 1) * den = den * (2 * k + 1) * den' := by
    ac_rfl
  rcases bound with below | ⟨tie, even⟩
  · have strict : 2 * num' * den < den' * (2 * k + 1) * den := Nat.mul_lt_mul_of_pos_right below hd
    refine .inl (Nat.lt_of_mul_lt_mul_right (a := den') ?_)
    omega
  · have most : 2 * num ≤ den * (2 * k + 1) := by
      refine Nat.le_of_mul_le_mul_right ?_ hd'
      rw [tie] at scaled
      omega
    rcases Nat.lt_or_eq_of_le most with less | same
    · exact .inl less
    · exact .inr ⟨same, even⟩

theorem nearest_le_of_le {num den k : Nat} (hd : 0 < den) (h : num ≤ den * k) :
    nearest num den ≤ k := by
  rw [nearest_le_iff hd]
  have odd : den * (2 * k + 1) = 2 * (den * k) + den := by
    rw [Nat.mul_succ, Nat.mul_left_comm]
  omega

/-! ## To 53 significant bits -/

theorem spacing_pos (n : Nat) : 0 < spacing n := Nat.two_pow_pos _

/-- Below a power of two, a quotient is rounded to no more than it. -/
theorem roundUnits_le_pow {num den bits : Nat} (hd : 0 < den) (h : num / den < Nat.pow 2 bits) :
    roundUnits num den ≤ Nat.pow 2 bits := by
  have reach : (num / den).log2 - 52 ≤ bits := by
    have := log2_sub_le h
    omega
  have below : num < den * 2 ^ bits := by
    rw [Nat.mul_comm]
    exact (Nat.div_lt_iff_lt_mul hd).mp h
  change nearest num (den * 2 ^ ((num / den).log2 - 52)) * 2 ^ ((num / den).log2 - 52) ≤ 2 ^ bits
  generalize (num / den).log2 - 52 = e at reach ⊢
  have split : 2 ^ bits = 2 ^ (bits - e) * 2 ^ e := by
    rw [← Nat.pow_add, Nat.sub_add_cancel reach]
  have fits : num ≤ den * 2 ^ e * 2 ^ (bits - e) := by
    rw [Nat.mul_assoc, Nat.mul_comm (2 ^ e), ← split]
    exact Nat.le_of_lt below
  rw [split]
  exact Nat.mul_le_mul_right _ (nearest_le_of_le (Nat.mul_pos hd (Nat.two_pow_pos e)) fits)

/-- From a power of two on, a quotient is rounded to no less than it. -/
theorem pow_le_roundUnits {num den bits : Nat} (h : Nat.pow 2 bits ≤ num / den) :
    Nat.pow 2 bits ≤ roundUnits num den := by
  have nonzero : num / den ≠ 0 := Nat.ne_of_gt (Nat.lt_of_lt_of_le (Nat.two_pow_pos bits) h)
  have log : 2 ^ (num / den).log2 ≤ num / den := Nat.log2_self_le nonzero
  have bits_le : bits ≤ (num / den).log2 := (Nat.le_log2 nonzero).mpr h
  change 2 ^ bits ≤ nearest num (den * 2 ^ ((num / den).log2 - 52)) * 2 ^ ((num / den).log2 - 52)
  generalize (num / den).log2 = b at log bits_le ⊢
  have whole : 2 ^ (b - (b - 52)) ≤ nearest num (den * 2 ^ (b - 52)) := by
    refine Nat.le_trans ?_ (div_le_nearest num (den * 2 ^ (b - 52)))
    rw [← Nat.div_div_eq_div_mul, Nat.le_div_iff_mul_le (Nat.two_pow_pos _), ← Nat.pow_add,
      Nat.sub_add_cancel (Nat.sub_le b 52)]
    exact log
  calc 2 ^ bits ≤ 2 ^ b := Nat.pow_le_pow_right (by decide) bits_le
    _ = 2 ^ (b - (b - 52)) * 2 ^ (b - 52) := by
        rw [← Nat.pow_add, Nat.sub_add_cancel (Nat.sub_le b 52)]
    _ ≤ _ := Nat.mul_le_mul_right _ whole

/-- Two numbers lie on grids of one spacing, or there is a power of two between them. -/
theorem grids_of_le {q q' : Nat} (h : q ≤ q') :
    q.log2 - 52 = q'.log2 - 52 ∨ ∃ bits, q < Nat.pow 2 bits ∧ Nat.pow 2 bits ≤ q' := by
  by_cases zero' : q' = 0
  · obtain rfl : q = q' := by omega
    exact .inl rfl
  have reached : 2 ^ q'.log2 ≤ q' := Nat.log2_self_le zero'
  by_cases zero : q = 0
  · subst zero
    exact .inr ⟨q'.log2, Nat.two_pow_pos _, reached⟩
  have logs : q.log2 ≤ q'.log2 := (Nat.le_log2 zero').mpr (Nat.le_trans (Nat.log2_self_le zero) h)
  rcases Nat.lt_or_eq_of_le logs with less | same
  · exact .inr ⟨q'.log2, (Nat.log2_lt zero).mp less, reached⟩
  · exact .inl (by rw [same])

/-- **A greater quotient is rounded to no less.** -/
theorem roundUnits_mono {num den num' den' : Nat} (hd : 0 < den) (hd' : 0 < den')
    (h : num * den' ≤ num' * den) : roundUnits num den ≤ roundUnits num' den' := by
  have quotients : num / den ≤ num' / den' := by
    rw [Nat.le_div_iff_mul_le hd']
    refine Nat.le_of_mul_le_mul_right ?_ hd
    calc num / den * den' * den = num / den * den * den' := Nat.mul_right_comm ..
      _ ≤ num * den' := Nat.mul_le_mul_right den' (Nat.div_mul_le_self num den)
      _ ≤ num' * den := h
  rcases grids_of_le quotients with same | ⟨bits, below, reached⟩
  · have step : spacing (num / den) = spacing (num' / den') := congrArg (Nat.pow 2) same
    have positive := spacing_pos (num' / den')
    show nearest num (den * spacing (num / den)) * spacing (num / den) ≤
      nearest num' (den' * spacing (num' / den')) * spacing (num' / den')
    rw [step]
    generalize spacing (num' / den') = step at positive ⊢
    refine Nat.mul_le_mul_right step
      (nearest_mono (Nat.mul_pos hd positive) (Nat.mul_pos hd' positive) ?_)
    rw [← Nat.mul_assoc, ← Nat.mul_assoc]
    exact Nat.mul_le_mul_right step h
  · exact Nat.le_trans (roundUnits_le_pow hd below) (pow_le_roundUnits reached)

theorem roundUnits_zero (den : Nat) : roundUnits 0 den = 0 := by
  have nothing : ∀ d, nearest 0 d = 0 := by
    intro d
    simp [nearest]
  rw [roundUnits, nothing, Nat.zero_mul]

/-- What comes to a unit or more is not rounded to nothing. -/
theorem roundUnits_pos {num den : Nat} (hd : 0 < den) (h : den ≤ num) : 0 < roundUnits num den := by
  have one : Nat.pow 2 0 ≤ num / den := (Nat.one_le_div_iff hd).mpr h
  exact pow_le_roundUnits one

/-! ## Finite numbers -/

namespace Double

theorem ofUnits_of_isFinite {negative : Bool} {num den : Nat}
    (h : (ofUnits negative num den).isFinite = true) :
    ofUnits negative num den = .finite negative (roundUnits num den) := by
  rw [isFinite_ofUnits] at h
  unfold ofUnits
  rw [if_pos h]

/-- A fraction that is rounded to a finite number keeps its sign. -/
theorem ofIntRatio_of_isFinite {n : Int} {den : Nat} (h : (ofIntRatio n den).isFinite = true) :
    ofIntRatio n den = .finite (n < 0) (roundUnits (n.natAbs * one) den) := by
  rw [ofIntRatio, ofRatio] at h ⊢
  exact ofUnits_of_isFinite h

/-- **A greater fraction is rounded to no less.** -/
theorem ofIntRatio_le {n n' : Int} {den den' : Nat} (hd : 0 < den) (hd' : 0 < den')
    (hf : (ofIntRatio n den).isFinite = true) (hf' : (ofIntRatio n' den').isFinite = true)
    (h : n * den' ≤ n' * den) : (ofIntRatio n den).le (ofIntRatio n' den') = true := by
  -- Magnitudes are ordered as they are when positive, and the other way round when negative.
  have scaled : ∀ {a a' d d' : Nat}, a * d' ≤ a' * d → a * one * d' ≤ a' * one * d := by
    intro a a' d d' hle
    rw [Nat.mul_right_comm, Nat.mul_right_comm a']
    exact Nat.mul_le_mul_right one hle
  rw [ofIntRatio_of_isFinite hf, ofIntRatio_of_isFinite hf']
  show decide (signed _ _ ≤ signed _ _) = true
  rw [decide_eq_true_eq]
  by_cases neg : n < 0
  · by_cases neg' : n' < 0
    · have magnitudes : n'.natAbs * den ≤ n.natAbs * den' := by
        obtain ⟨a, rfl⟩ : ∃ a : Nat, n = -a := ⟨n.natAbs, by omega⟩
        obtain ⟨a', rfl⟩ : ∃ a' : Nat, n' = -a' := ⟨n'.natAbs, by omega⟩
        rw [Int.natAbs_neg, Int.natAbs_neg, Int.natAbs_natCast, Int.natAbs_natCast]
        rw [Int.neg_mul, Int.neg_mul] at h
        exact_mod_cast Int.neg_le_neg_iff.mp h
      have rounded := roundUnits_mono hd' hd (scaled magnitudes)
      simp only [signed, neg, neg', decide_true, if_true]
      omega
    · simp only [signed, neg, neg', decide_true, decide_false, if_true, Bool.false_eq_true, if_false]
      omega
  · by_cases neg' : n' < 0
    · exfalso
      have low : n' * den < 0 := Int.mul_neg_of_neg_of_pos neg' (by omega)
      have high : 0 ≤ n * den' := Int.mul_nonneg (by omega) (by omega)
      omega
    · have magnitudes : n.natAbs * den' ≤ n'.natAbs * den := by
        obtain ⟨a, rfl⟩ := Int.eq_ofNat_of_zero_le (Int.not_lt.mp neg)
        obtain ⟨a', rfl⟩ := Int.eq_ofNat_of_zero_le (Int.not_lt.mp neg')
        exact_mod_cast h
      have rounded := roundUnits_mono hd hd' (scaled magnitudes)
      simp only [signed, neg, neg', decide_false, Bool.false_eq_true, if_false]
      omega

/-- **A fraction with a small denominator is rounded to more than zero exactly if it is more.** -/
theorem zero_lt_ofIntRatio_iff {n : Int} {den : Nat} (hd : 0 < den) (small : den ≤ one)
    (hf : (ofIntRatio n den).isFinite = true) :
    Double.zero.lt (ofIntRatio n den) = true ↔ 0 < n := by
  rw [ofIntRatio_of_isFinite hf]
  show decide (signed false 0 < signed _ _) = true ↔ 0 < n
  rw [decide_eq_true_eq]
  by_cases neg : n < 0
  · simp only [signed, neg, decide_true, if_true, Bool.false_eq_true, if_false]
    omega
  · simp only [signed, neg, decide_false, Bool.false_eq_true, if_false]
    generalize one = unit at small ⊢
    rcases Int.lt_or_eq_of_le (Int.not_lt.mp neg) with positive | rfl
    · have enough : den ≤ n.natAbs * unit :=
        Nat.le_trans small (Nat.le_mul_of_pos_left unit (by omega))
      have rounded := roundUnits_pos hd enough
      omega
    · rw [Int.natAbs_zero, Nat.zero_mul, roundUnits_zero]
      omega

end Double

end Permits.Number
