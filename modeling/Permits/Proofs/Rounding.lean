/-
  Rounding — where the finite numbers end.

  Halfway between the greatest finite number and the next power of two, numbers begin to be rounded
  to infinity.  That is at `Double.overflow`, and half a spacing below any other power of two the
  same happens (`roundUnits_lt_iff`): a quotient is rounded below `2 ^ bits` exactly if it lies more
  than half a spacing below it, since of the two neighbours of the halfway point the power of two is
  the even one.

  So a fraction is rounded to a finite number exactly if it is below `overflow`
  (`Double.isFinite_ofIntRatio`).
-/
import Permits.Number.Double

namespace Permits.Number

/-! ## To the nearest -/

theorem div_le_nearest (num den : Nat) : num / den ≤ nearest num den := by
  unfold nearest
  simp only
  split
  · exact Nat.le_refl _
  · split <;> omega

/-- A quotient is rounded below an even number exactly if it is more than a half below it. -/
theorem nearest_lt_iff {num den k : Nat} (hd : 0 < den) (hk : k % 2 = 0) :
    nearest num den < k ↔ 2 * num + den < 2 * (den * k) := by
  have whole := Nat.div_add_mod num den
  have rest := Nat.mod_lt num hd
  have scaled : ∀ a, a < k ↔ den * a < den * k := fun a => (Nat.mul_lt_mul_left hd).symm
  unfold nearest
  simp only
  generalize num / den = q at *
  generalize num % den = r at *
  have one_more : den * (q + 1) = den * q + den := Nat.mul_succ den q
  split
  · rw [scaled q]
    constructor
    · intro h
      have step : den * (q + 1) ≤ den * k := Nat.mul_le_mul_left den ((scaled q).mpr h)
      omega
    · omega
  · split
    · rw [scaled (q + 1)]
      constructor
      · intro h
        have step : den * (q + 2) ≤ den * k := Nat.mul_le_mul_left den ((scaled (q + 1)).mpr h)
        have two_more : den * (q + 2) = den * (q + 1) + den := Nat.mul_succ den (q + 1)
        omega
      · omega
    · -- The quotient lies halfway, and an even number is reached only from the odd one below it.
      have even : q + q % 2 < k ↔ q + 1 < k := by omega
      rw [even, scaled (q + 1)]
      omega

/-! ## To 53 significant bits -/

/-- The spacing is at most that of the numbers below a power of two, if the number is below it. -/
theorem log2_sub_le {q bits : Nat} (h : q < Nat.pow 2 bits) : q.log2 - 52 ≤ bits - 53 := by
  by_cases hq : q = 0
  · subst hq
    simp
  · have log : q.log2 < bits := (Nat.log2_lt hq).mpr h
    omega

/-- **A quotient is rounded below a power of two exactly if it is more than half a spacing below
    it.** -/
theorem roundUnits_lt_iff {num den bits : Nat} (hd : 0 < den) (hb : 54 ≤ bits) :
    roundUnits num den < Nat.pow 2 bits ↔
      2 * num + den * Nat.pow 2 (bits - 53) < 2 * (den * Nat.pow 2 bits) := by
  change roundUnits num den < 2 ^ bits ↔ 2 * num + den * 2 ^ (bits - 53) < 2 * (den * 2 ^ bits)
  have pos : ∀ e, 0 < 2 ^ e := fun e => Nat.two_pow_pos e
  unfold roundUnits spacing
  simp only
  change nearest num (den * 2 ^ _) * 2 ^ _ < _ ↔ _
  generalize hq : num / den = q
  generalize he : q.log2 - 52 = e
  -- As long as the spacing is no greater than the power of two, that is a multiple of it.
  have grid : e < bits → (nearest num (den * 2 ^ e) * 2 ^ e < 2 ^ bits ↔
      2 * num + den * 2 ^ e < 2 * (den * 2 ^ bits)) := by
    intro hlt
    have split : 2 ^ bits = 2 ^ (bits - e) * 2 ^ e := by
      rw [← Nat.pow_add, Nat.sub_add_cancel (Nat.le_of_lt hlt)]
    have even : 2 ^ (bits - e) % 2 = 0 := by
      obtain ⟨d, hd⟩ : ∃ d, bits - e = d + 1 := ⟨bits - e - 1, by omega⟩
      rw [hd, Nat.pow_succ, Nat.mul_mod_left]
    rw [split, Nat.mul_lt_mul_right (pos e), nearest_lt_iff (Nat.mul_pos hd (pos e)) even,
      Nat.mul_assoc den, Nat.mul_comm (2 ^ e)]
  have below : num < den * (q + 1) := by
    rw [← hq]
    exact Nat.lt_mul_div_succ num hd
  have above : den * q ≤ num := by
    rw [← hq]
    exact Nat.mul_div_le num den
  by_cases large : 2 ^ bits ≤ q
  · -- Beyond the power of two nothing is rounded below it.
    have far : den * 2 ^ bits ≤ num := Nat.le_trans (Nat.mul_le_mul_left den large) above
    refine iff_of_false ?_ (by omega)
    by_cases hlt : e < bits
    · rw [grid hlt]
      omega
    · have nonzero : q ≠ 0 := Nat.ne_of_gt (Nat.lt_of_lt_of_le (pos bits) large)
      have reached : 2 ^ e ≤ q :=
        Nat.le_trans (Nat.pow_le_pow_right (by decide) (by omega)) (Nat.log2_self_le nonzero)
      have least : 1 ≤ nearest num (den * 2 ^ e) := by
        refine Nat.le_trans ?_ (div_le_nearest num (den * 2 ^ e))
        rw [← Nat.div_div_eq_div_mul, hq]
        exact (Nat.one_le_div_iff (pos e)).mpr reached
      have spaced : 2 ^ bits ≤ 2 ^ e := Nat.pow_le_pow_right (by decide) (by omega)
      have := Nat.mul_le_mul_right (2 ^ e) least
      omega
  · have log := log2_sub_le (Nat.lt_of_not_le large)
    rw [he] at log
    rw [grid (by omega)]
    by_cases small : q < 2 ^ (bits - 1)
    · -- Below half the power of two there is room for any spacing.
      have log := log2_sub_le small
      rw [he] at log
      have room : ∀ d, d ≤ bits - 1 → den * 2 ^ d ≤ den * 2 ^ (bits - 1) := fun d hd =>
        Nat.mul_le_mul_left den (Nat.pow_le_pow_right (by decide) hd)
      have double : den * 2 ^ bits = 2 * (den * 2 ^ (bits - 1)) := by
        obtain ⟨b, rfl⟩ : ∃ b, bits = b + 1 := ⟨bits - 1, by omega⟩
        rw [Nat.add_sub_cancel, Nat.pow_succ]
        ac_rfl
      have half : num < den * 2 ^ (bits - 1) :=
        Nat.lt_of_lt_of_le below (Nat.mul_le_mul_left den small)
      have fits := room e (by omega)
      have fits' := room (bits - 53) (by omega)
      exact iff_of_true (by omega) (by omega)
    · have exact_log : e = bits - 53 := by
        have nonzero : q ≠ 0 := by
          rintro rfl
          exact small (pos _)
        have least : bits - 1 ≤ q.log2 := (Nat.le_log2 nonzero).mpr (Nat.le_of_not_lt small)
        omega
      rw [exact_log]

/-- The same of a multiple of a smaller power of two, which both sides have in common. -/
theorem roundUnits_mul_lt_iff {num den : Nat} (hd : 0 < den) (room scale : Nat) :
    roundUnits (num * Nat.pow 2 scale) den < Nat.pow 2 (room + 54 + scale) ↔
      num < den * (Nat.pow 2 (room + 54) - Nat.pow 2 room) := by
  have pos : 0 < 2 ^ (scale + 1) := Nat.two_pow_pos _
  have half : den * 2 ^ (room + 54 + scale - 53) = den * 2 ^ room * 2 ^ (scale + 1) := by
    rw [Nat.mul_assoc, ← Nat.pow_add]
    congr 2
    omega
  have whole : 2 * (den * 2 ^ (room + 54 + scale)) = den * 2 ^ (room + 54) * 2 ^ (scale + 1) := by
    rw [Nat.pow_add 2 (room + 54) scale, Nat.pow_succ 2 scale]
    generalize 2 ^ (room + 54) = a
    ac_rfl
  have twice : 2 * (num * 2 ^ scale) = num * 2 ^ (scale + 1) := by
    rw [Nat.pow_succ]
    ac_rfl
  rw [roundUnits_lt_iff hd (by omega)]
  change 2 * (num * 2 ^ scale) + den * 2 ^ (room + 54 + scale - 53) <
    2 * (den * 2 ^ (room + 54 + scale)) ↔ num < den * (2 ^ (room + 54) - 2 ^ room)
  rw [half, whole, twice, ← Nat.add_mul, Nat.mul_lt_mul_right pos, Nat.mul_sub]
  omega

/-! ## Finite numbers -/

namespace Double

/-- The least integer that is rounded to infinity: half a spacing above the greatest finite
    number. -/
@[irreducible]
def overflow : Nat := Nat.pow 2 1024 - Nat.pow 2 970

theorem isFinite_ofUnits (negative : Bool) (num den : Nat) :
    (ofUnits negative num den).isFinite = true ↔ roundUnits num den < limit := by
  unfold ofUnits
  simp only
  split <;> simp_all [isFinite]

/-- The bounds as powers of two. -/
theorem bounds_eq : ∃ room scale, one = Nat.pow 2 scale ∧ limit = Nat.pow 2 (room + 54 + scale) ∧
    overflow = Nat.pow 2 (room + 54) - Nat.pow 2 room :=
  ⟨970, 1074, by decide +kernel⟩

/-- **A fraction is rounded to a finite number exactly if it is below `overflow`.** -/
theorem isFinite_ofIntRatio {n : Int} {den : Nat} (hd : 0 < den) :
    (ofIntRatio n den).isFinite = true ↔ n.natAbs < den * overflow := by
  obtain ⟨room, scale, hone, hlimit, hoverflow⟩ := bounds_eq
  rw [ofIntRatio, ofRatio, isFinite_ofUnits, hone, hlimit, hoverflow]
  exact roundUnits_mul_lt_iff hd room scale

/-- An integer is rounded to a finite number exactly if it is below `overflow`. -/
theorem isFinite_ofInt {n : Int} : (ofInt n).isFinite = true ↔ n.natAbs < overflow := by
  rw [ofInt, isFinite_ofIntRatio Nat.one_pos, Nat.one_mul]

end Double

end Permits.Number
