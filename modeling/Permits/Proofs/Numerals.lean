/-
  Numerals — which number the text of an integer writes, and that blanks around a text do not count.

  1. **Blanks** (`Double.ofText?_between`): they are dropped at both ends before anything is read.
  2. **Digits** (`IsPlain`): a digit of ASCII is left alone by every step of reading — it is no blank, no
     sign and no underscore, it begins no name, and it is its own digit.  So a row of digits is a
     numeral as it stands.
  3. **Integers** (`Double.ofText?_toString`): the digits of an integer have its value, and the decimal
     without a fraction or an exponent is rounded as the integer is, once.
-/
import Mathlib.Data.List.TakeWhile
import Permits.Number.Numeral
import Permits.Proofs.Order

namespace Permits.Number

open Text

/-! ## Blanks -/

/-- Blanks around characters are dropped with those at their own ends. -/
theorem trimBlanks_append {front back : List Char} (hf : ∀ c ∈ front, isBlank c = true)
    (hb : ∀ c ∈ back, isBlank c = true) (cs : List Char) :
    trimBlanks (front ++ cs ++ back) = trimBlanks cs := by
  have hb' : ∀ c ∈ back.reverse, isBlank c = true := fun c hc => hb c (List.mem_reverse.mp hc)
  unfold trimBlanks
  rw [List.append_assoc, List.dropWhile_append_of_pos hf, List.dropWhile_append]
  split
  · next blank =>
    have nothing : cs.dropWhile isBlank = [] := List.isEmpty_iff.mp blank
    have nothing' : back.dropWhile isBlank = [] := List.dropWhile_eq_nil_iff.mpr hb
    rw [nothing, nothing']
  · rw [List.reverse_append, List.dropWhile_append_of_pos hb']

/-- A text between blanks writes what it writes alone. -/
theorem Double.ofText?_between {front back : List Char} (hf : ∀ c ∈ front, isBlank c = true)
    (hb : ∀ c ∈ back, isBlank c = true) (s : String) :
    ofText? (String.ofList front ++ s ++ String.ofList back) = ofText? s := by
  have chars : (String.ofList front ++ s ++ String.ofList back).toList = front ++ s.toList ++ back := by
    simp
  rw [ofText?, ofText?, chars, Double.ofChars?, Double.ofChars?, prepare, prepare,
    trimBlanks_append hf hb]

/-! ## Rows of digits -/

/-- A digit of ASCII is the character of a number below ten. -/
theorem exists_digitChar {c : Char} (h : c.isDigit = true) : ∃ d < 10, c = Nat.digitChar d := by
  have bounds : 48 ≤ c.toNat ∧ c.toNat ≤ 57 := by
    simpa [Char.isDigit, UInt32.le_iff_toNat_le] using h
  refine ⟨c.toNat - 48, by omega, ?_⟩
  apply Char.toNat_inj.mp
  rw [Nat.toNat_digitChar_of_lt_ten (by omega)]
  omega

/-- A character that is left alone when a numeral is prepared and its groups are joined. -/
structure IsKept (c : Char) : Prop where
  solid : isBlank c = false
  itself : asciiDigit c = c
  ungrouped : c ≠ '_'

/-- A digit of ASCII, which has no other part in a numeral. -/
structure IsPlain (c : Char) : Prop extends IsKept c where
  digit : c.isDigit = true
  unsigned : c ≠ '-' ∧ c ≠ '+'
  nameless : c.toLower ≠ 'i' ∧ c.toLower ≠ 'n'

theorem isKept_minus : IsKept '-' := ⟨by decide, by decide, by decide⟩

theorem isPlain_of_isDigit {c : Char} (h : c.isDigit = true) : IsPlain c := by
  obtain ⟨d, hd, rfl⟩ := exists_digitChar h
  have solid : ∀ d < 10, isBlank (Nat.digitChar d) = false := by decide
  have itself : ∀ d < 10, asciiDigit (Nat.digitChar d) = Nat.digitChar d := by decide
  have others : ∀ d < 10, Nat.digitChar d ≠ '_' ∧ Nat.digitChar d ≠ '-' ∧ Nat.digitChar d ≠ '+' ∧
      (Nat.digitChar d).toLower ≠ 'i' ∧ (Nat.digitChar d).toLower ≠ 'n' := by decide
  obtain ⟨ungrouped, minus, plus, i, n⟩ := others d hd
  exact ⟨⟨solid d hd, itself d hd, ungrouped⟩, h, ⟨minus, plus⟩, ⟨i, n⟩⟩

theorem prepare_of_isKept {cs : List Char} (h : ∀ c ∈ cs, IsKept c) : prepare cs = cs := by
  have undropped : ∀ l : List Char, (∀ c ∈ l, IsKept c) → l.dropWhile isBlank = l := by
    intro l hl
    cases l with
    | nil => rfl
    | cons c l => exact List.dropWhile_cons_of_neg (by simp [(hl c (List.mem_cons_self ..)).solid])
  have reversed : ∀ c ∈ cs.reverse, IsKept c := fun c hc => h c (List.mem_reverse.mp hc)
  rw [prepare, trimBlanks, undropped cs h, undropped _ reversed, List.reverse_reverse]
  exact (List.map_congr_left fun c hc => (h c hc).itself).trans (List.map_id cs)

theorem ungroup_of_isKept {previous : Char} {cs : List Char} (hp : previous ≠ '_')
    (h : ∀ c ∈ cs, IsKept c) : ungroup previous cs = some cs := by
  induction cs generalizing previous with
  | nil => simp [ungroup, hp]
  | cons c cs ih =>
    have hc : c ≠ '_' := (h c (List.mem_cons_self ..)).ungrouped
    have rest := ih hc fun c' hc' => h c' (List.mem_cons_of_mem c hc')
    simp [ungroup, hp, hc, rest]

/-- What is left alone is read as it stands. -/
theorem Double.ofChars?_of_isKept {cs : List Char} (h : ∀ c ∈ cs, IsKept c) :
    ofChars? cs = unsigned? (splitSign cs).1 (splitSign cs).2 := by
  rw [ofChars?, prepare_of_isKept h, ungroup_of_isKept (by decide) h]
  rfl

/-- A row of digits is not the name of a number, for such a name begins with `i` or `n`. -/
theorem ne_name_of_digits {ds : List Char} (nonempty : ds ≠ []) (h : ∀ c ∈ ds, c.isDigit = true)
    {c : Char} (hc : c = 'i' ∨ c = 'n') (cs : List Char) :
    String.ofList (ds.map Char.toLower) ≠ String.ofList (c :: cs) := by
  intro same
  have chars := String.ofList_injective same
  cases ds with
  | nil => exact nonempty rfl
  | cons d ds =>
    obtain ⟨i, n⟩ := (isPlain_of_isDigit (h d (List.mem_cons_self ..))).nameless
    have first : d.toLower = c := (List.cons.inj chars).1
    rcases hc with rfl | rfl
    · exact i first
    · exact n first

theorem decimal?_of_digits {ds : List Char} (nonempty : ds ≠ []) (h : ∀ c ∈ ds, c.isDigit = true) :
    decimal? ds = some ⟨natOfDigits ds, 0⟩ := by
  have all : ds.takeWhile Char.isDigit = ds := List.takeWhile_eq_self_iff.mpr h
  have none : ds.dropWhile Char.isDigit = [] := List.dropWhile_eq_nil_iff.mpr h
  simp [decimal?, all, none, nonempty, exponent?]

/-- A row of digits alone is a numeral without a fraction or an exponent. -/
theorem unsigned?_of_digits (negative : Bool) {ds : List Char} (nonempty : ds ≠ [])
    (h : ∀ c ∈ ds, c.isDigit = true) :
    unsigned? negative ds = some (Decimal.toDouble negative ⟨natOfDigits ds, 0⟩) := by
  have inf := ne_name_of_digits nonempty h (.inl rfl) ['n', 'f']
  have infinity := ne_name_of_digits nonempty h (.inl rfl) ['n', 'f', 'i', 'n', 'i', 't', 'y']
  have nan := ne_name_of_digits nonempty h (.inr rfl) ['a', 'n']
  have unnamed : ¬(String.ofList (ds.map Char.toLower) = "inf" ∨
      String.ofList (ds.map Char.toLower) = "infinity") := by
    rintro (same | same)
    · exact inf same
    · exact infinity same
  rw [unsigned?]
  rw [if_neg unnamed, if_neg nan, decimal?_of_digits nonempty h]
  rfl

/-! ## Integers -/

theorem natOfDigits_toDigits (n : Nat) : natOfDigits (Nat.toDigits 10 n) = n := by
  rw [natOfDigits, ← Nat.ofDigitChars_eq_foldl]
  exact Nat.ofDigitChars_ten_toDigits

/-- A whole number without an exponent is rounded once. -/
theorem Decimal.toDouble_of_whole (negative : Bool) (n : Nat) :
    Decimal.toDouble negative ⟨n, 0⟩ = .ofRatio negative n 1 := by
  by_cases zero : n = 0
  · subst zero
    have room : 0 < Double.limit := by decide +kernel
    rw [Double.ofRatio, Nat.zero_mul, Double.ofUnits, roundUnits_zero, if_pos room, Decimal.toDouble,
      if_pos rfl]
  · have moderate : ¬((0 : Int) < -(n.log2 + 400 : Int)) := by omega
    have power : ∀ e : Int, e ≤ 0 → powerOfTen e = 1 := by
      intro e he
      rw [powerOfTen, Int.toNat_of_nonpos he]
    rw [Decimal.toDouble]
    simp only
    rw [if_neg zero, if_neg (by decide), if_neg moderate, power 0 (by decide), power (-0) (by decide),
      Nat.mul_one]

/-- A row of digits, with or without a minus sign, writes a whole number. -/
theorem Double.ofChars?_of_digits {ds : List Char} (nonempty : ds ≠ [])
    (h : ∀ c ∈ ds, c.isDigit = true) :
    ofChars? ds = some (.ofRatio false (natOfDigits ds) 1) ∧
      ofChars? ('-' :: ds) = some (.ofRatio true (natOfDigits ds) 1) := by
  have plain : ∀ c ∈ ds, IsPlain c := fun c hc => isPlain_of_isDigit (h c hc)
  have kept : ∀ c ∈ ds, IsKept c := fun c hc => (plain c hc).toIsKept
  have kept' : ∀ c ∈ '-' :: ds, IsKept c := List.forall_mem_cons.mpr ⟨isKept_minus, kept⟩
  have unsigned : splitSign ds = (false, ds) := by
    cases ds with
    | nil => exact absurd rfl nonempty
    | cons d ds =>
      obtain ⟨minus, plus⟩ := (plain d (List.mem_cons_self ..)).unsigned
      unfold splitSign
      split
      · next same => exact absurd (List.cons.inj same).1 minus
      · next same => exact absurd (List.cons.inj same).1 plus
      · rfl
  constructor
  · rw [ofChars?_of_isKept kept, unsigned, unsigned?_of_digits false nonempty h,
      Decimal.toDouble_of_whole]
  · rw [ofChars?_of_isKept kept']
    show unsigned? true ds = _
    rw [unsigned?_of_digits true nonempty h, Decimal.toDouble_of_whole]

/-- **The text of an integer writes the number that the integer is rounded to.** -/
theorem Double.ofText?_toString (n : Int) : ofText? (toString n) = some (ofInt n) := by
  have digits : ∀ m, ∀ c ∈ Nat.toDigits 10 m, c.isDigit = true := fun m c hc =>
    Nat.isDigit_of_mem_toDigits (by decide) (by decide) hc
  cases n with
  | ofNat m =>
    have chars : (toString (Int.ofNat m)).toList = Nat.toDigits 10 m := by
      show (Nat.repr m).toList = _
      rw [Nat.repr_eq_ofList_toDigits, String.toList_ofList]
    rw [ofText?, chars, (ofChars?_of_digits Nat.toDigits_ne_nil (digits m)).1, natOfDigits_toDigits,
      ofInt, ofIntRatio]
    have positive : decide (Int.ofNat m < 0) = false := decide_eq_false (Int.not_lt.mpr (Int.natCast_nonneg m))
    have magnitude : (Int.ofNat m).natAbs = m := Int.natAbs_natCast m
    rw [positive, magnitude]
  | negSucc m =>
    have chars : (toString (Int.negSucc m)).toList = '-' :: Nat.toDigits 10 (m + 1) := by
      show ("-" ++ Nat.repr (m + 1)).toList = _
      rw [Nat.repr_eq_ofList_toDigits]
      simp
    rw [ofText?, chars, (ofChars?_of_digits Nat.toDigits_ne_nil (digits (m + 1))).2,
      natOfDigits_toDigits, ofInt, ofIntRatio]
    have negative : decide (Int.negSucc m < 0) = true := decide_eq_true (by omega)
    rw [negative, Int.natAbs_negSucc]

end Permits.Number
