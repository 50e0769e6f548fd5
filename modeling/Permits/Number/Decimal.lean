/-
  Decimal notation of binary64 numbers.

  1. **From decimal** (`Decimal.toDouble`): `digits · 10^exponent`, rounded once.  Exponents far
     outside the range are cut off first; there the result is zero or infinite whatever the digits.
  2. **To decimal** (`shortest`): the fewest significant digits that read back as the same number.
     On the grid of each digit count only the two neighbours of the number are tried; the first
     count with a hit wins, and of two hits the nearer one.
  3. **The text** (`Double.text`): positional from 10⁻⁴ up to below 10¹⁶ and always with a digit
     behind the point, otherwise one digit in front of the point and an exponent of at least two
     digits.
-/
import Permits.Number.Double

namespace Permits.Number

/-- The non-negative number `digits · 10^exponent`. -/
structure Decimal where
  digits : Nat
  exponent : Int
  deriving DecidableEq, Repr

/-- Ten to a power; one if the power is negative. -/
def powerOfTen (e : Int) : Nat := Nat.pow 10 e.toNat

/-! ## From decimal -/

/-- The nearest binary64 number.  A non-zero decimal with an exponent above 400 is at least 10⁴⁰¹,
    and one with an exponent below `-(log₂ digits + 400)` is below 10⁻⁴⁰⁰. -/
def Decimal.toDouble (negative : Bool) (d : Decimal) : Double :=
  if d.digits = 0 then .finite negative 0
  else if 400 < d.exponent then .infinite negative
  else if d.exponent < -(d.digits.log2 + 400 : Int) then .finite negative 0
  else .ofRatio negative (d.digits * powerOfTen d.exponent) (powerOfTen (-d.exponent))

/-! ## To decimal -/

/-- Does `digits · 10^exponent` round to `units`?  The numbers that do lie within half a spacing,
    the ends included when the last bit is zero; below a power of two the spacing is half as large. -/
def Decimal.readsBack (units : Nat) (d : Decimal) : Bool :=
  let step := spacing units
  -- In quarters of a unit: half a spacing is `2 * step`, and half of the smaller one is `step`.
  let low := 4 * units - (if units = Nat.pow 2 units.log2 ∧ 1 < step then step else 2 * step)
  let high := 4 * units + 2 * step
  let num := d.digits * powerOfTen d.exponent * (4 * Double.one)
  let den := powerOfTen (-d.exponent)
  if (units / step) % 2 = 0 then low * den ≤ num && num ≤ high * den
  else low * den < num && num < high * den

/-- The number of digits in front of the point; not positive for a number below one tenth. -/
def pointOf (units : Nat) : Int :=
  (Nat.toDigits 10 (units * powerOfTen 400 / Double.one)).length - 400

/-- The decimal next to `units` with the last digit at `10^exponent`, if one reads back; the nearer
    of the two, and the even one when both are equally near. -/
def neighbour? (units : Nat) (exponent : Int) : Option Decimal :=
  let num := units * powerOfTen (-exponent)
  let den := Double.one * powerOfTen exponent
  let below : Decimal := ⟨num / den, exponent⟩
  let above : Decimal := ⟨num / den + 1, exponent⟩
  match below.readsBack units, above.readsBack units with
  | true, true => some ⟨nearest num den, exponent⟩
  | true, false => some below
  | false, true => some above
  | false, false => none

/-- The decimal of fewest digits that reads back as `units`; seventeen digits always do. -/
def shortest (units : Nat) : Decimal :=
  let point := pointOf units
  ((List.range 17).findSome? fun n : Nat => neighbour? units (point - (n + 1 : Nat))).getD ⟨0, 0⟩

/-! ## The text of a number -/

/-- Decimal digits without the zeros at their end. -/
def dropZeros (digits : List Char) : List Char := (digits.reverse.dropWhile (· == '0')).reverse

/-- An exponent with its sign and at least two digits. -/
def exponentText (e : Int) : String :=
  let digits := toString e.natAbs
  (if e < 0 then "-" else "+") ++ (if digits.length < 2 then "0" ++ digits else digits)

/-- Digits with the point after the first `point` of them: positional from 10⁻⁴ up to below
    10¹⁶. -/
def layout (digits : List Char) (point : Int) : String :=
  let zeros (n : Int) : List Char := List.replicate n.toNat '0'
  if point ≤ -4 ∨ 16 < point then
    let fraction := if digits.length ≤ 1 then [] else '.' :: digits.drop 1
    String.ofList (digits.take 1 ++ fraction) ++ "e" ++ exponentText (point - 1)
  else if point ≤ 0 then String.ofList (['0', '.'] ++ zeros (-point) ++ digits)
  else if digits.length ≤ point then
    String.ofList (digits ++ zeros (point - digits.length) ++ ['.', '0'])
  else String.ofList (digits.take point.toNat ++ '.' :: digits.drop point.toNat)

/-- A positive number of units as text. -/
def unitsText (units : Nat) : String :=
  let d := shortest units
  let digits := Nat.toDigits 10 d.digits
  layout (dropZeros digits) (digits.length + d.exponent)

/-- A binary64 number as text. -/
def Double.text : Double → String
  | .nan _ => "nan"
  | .infinite negative => if negative then "-inf" else "inf"
  | .finite negative units =>
    (if negative then "-" else "") ++ (if units = 0 then "0.0" else unitsText units)

example : (Double.ofRatio false 1 10).text = "0.1" := by decide +kernel
example : (Double.ofRatio true 1 100000).text = "-1e-05" := by decide +kernel
example : (Double.ofInt 9007199254740993).text = "9007199254740992.0" := by decide +kernel
example : (Double.ofInt 10000000000000000).text = "1e+16" := by decide +kernel
example : (Double.finite false 1).text = "5e-324" := by decide +kernel

end Permits.Number
