/-
  Numerals — reading numbers written as text.

  1. **Preparation** (`prepare`): blanks at both ends are dropped and every decimal digit of any
     script becomes the ASCII digit of its value.
  2. **Grouping** (`ungroup`): an underscore is allowed between two digits only, and drops out.
  3. **Fractional numerals** (`Double.ofChars?`): an optional sign, then digits with an optional
     point and an optional exponent, or a name of infinity or of not-a-number in any case.  The
     value is the exact decimal, rounded once.
  4. **Whole numerals** (`readInteger`): an optional sign and digits.  More than `digitLimit` digits
     are refused, before anything behind the digits is looked at.
-/
import Permits.Text.Class
import Permits.Number.Decimal

namespace Permits.Number

open Permits.Text

/-! ## Preparation -/

def trimBlanks (cs : List Char) : List Char :=
  ((cs.dropWhile isBlank).reverse.dropWhile isBlank).reverse

/-- The ASCII digit with the value of `c`, for a decimal digit `c` of any script. -/
def asciiDigit (c : Char) : Char :=
  match digit? c with
  | some d => Nat.digitChar d
  | none => c

/-- The characters of a numeral without surrounding blanks, all digits in ASCII. -/
def prepare (cs : List Char) : List Char := (trimBlanks cs).map asciiDigit

/-- The value of a run of ASCII digits. -/
def natOfDigits (ds : List Char) : Nat := ds.foldl (fun n c => 10 * n + (c.toNat - '0'.toNat)) 0

/-- The sign in front of a numeral, and what follows it. -/
def splitSign : List Char → Bool × List Char
  | '-' :: cs => (true, cs)
  | '+' :: cs => (false, cs)
  | cs => (false, cs)

/-! ## Fractional numerals -/

/-- Drops the underscores; `none` unless each stands between two digits.  `previous` is the
    character in front of the list. -/
def ungroup (previous : Char) : List Char → Option (List Char)
  | [] => if previous = '_' then none else some []
  | c :: cs =>
    if c = '_' then
      if previous.isDigit then ungroup '_' cs else none
    else if previous = '_' && !c.isDigit then none
    else (ungroup c cs).map (c :: ·)

/-- The exponent at the end of a numeral: nothing at all, or `e`, a sign and digits. -/
def exponent? : List Char → Option Int
  | [] => some 0
  | e :: cs =>
    let (negative, ds) := splitSign cs
    if (e = 'e' ∨ e = 'E') ∧ ds ≠ [] ∧ ds.all Char.isDigit then
      some (Double.signed negative (natOfDigits ds))
    else none

/-- Digits with an optional point among, before or behind them, and an optional exponent. -/
def decimal? (cs : List Char) : Option Decimal :=
  let whole := cs.takeWhile Char.isDigit
  let rest := cs.dropWhile Char.isDigit
  let (fraction, rest) := match rest with
    | '.' :: r => (r.takeWhile Char.isDigit, r.dropWhile Char.isDigit)
    | r => ([], r)
  if whole = [] ∧ fraction = [] then none
  else (exponent? rest).map fun e => ⟨natOfDigits (whole ++ fraction), e - fraction.length⟩

/-- The number written by an unsigned numeral. -/
def unsigned? (negative : Bool) (cs : List Char) : Option Double :=
  let name := String.ofList (cs.map Char.toLower)
  if name = "inf" ∨ name = "infinity" then some (.infinite negative)
  else if name = "nan" then some .undefined
  else (decimal? cs).map (·.toDouble negative)

/-- The binary64 number nearest to the numeral. -/
def Double.ofChars? (cs : List Char) : Option Double := do
  let cs ← ungroup ' ' (prepare cs)
  let (negative, body) := splitSign cs
  unsigned? negative body

def Double.ofText? (s : String) : Option Double := Double.ofChars? s.toList

/-! ## Whole numerals -/

/-- The most digits that a whole numeral may have. -/
def digitLimit : Nat := 4300

/-- Why characters are no whole numeral. -/
inductive IntegerFault where
  | malformed
  | tooLong (digits : Nat)
  deriving DecidableEq, Repr

/-- The digits at the front, underscores between two of them dropped, and what follows; `none` if an
    underscore stands elsewhere.  `previous` is the character in front of the list. -/
def groupedDigits (previous : Char) : List Char → Option (List Char × List Char)
  | [] => if previous = '_' then none else some ([], [])
  | c :: cs =>
    if c.isDigit then (groupedDigits c cs).map fun (ds, rest) => (c :: ds, rest)
    else if c = '_' then if previous.isDigit then groupedDigits c cs else none
    else if previous = '_' then none
    else some ([], c :: cs)

/-- The integer that a whole numeral writes. -/
def readInteger (cs : List Char) : Except IntegerFault Int :=
  let (negative, body) := splitSign (prepare cs)
  match groupedDigits ' ' body with
  | none => .error .malformed
  | some (ds, rest) =>
    -- The length counts first, whatever stands behind the digits.
    if digitLimit < ds.length then .error (.tooLong ds.length)
    else if ds = [] ∨ rest ≠ [] then .error .malformed
    else .ok (Double.signed negative (natOfDigits ds))

example : Double.ofText? " +1_0.5e1\n" = some (.ofInt 105) := by decide +kernel
example : Double.ofText? "1__0" = none := by decide +kernel
example : Double.ofText? "1e400" = some (.infinite false) := by decide +kernel
example : (readInteger " -1_0 ".toList).toOption = some (-10) := by decide +kernel

end Permits.Number
