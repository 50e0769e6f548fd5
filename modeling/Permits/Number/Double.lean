/-
  Binary64 numbers — seconds, clock readings and every other fractional number are of this type.

  1. **One grid.**  Each finite binary64 number is a whole multiple of 2⁻¹⁰⁷⁴, so a finite number is
     a sign and a natural number of such *units*.  Comparison is comparison of integers, and a sum
     is exact before it is rounded.
  2. **One rounding** (`roundUnits`): a quotient of natural numbers goes to the nearest number of at
     most 53 significant bits, a half going to the even neighbour.  The spacing is found first, then
     the quotient is rounded to a whole number of spacings.
  3. **The operations** are the exact result, rounded once: `ofRatio`, `add`, `sub`, `mul`.  What
     rounds to 2¹⁰²⁴ or more is infinite.

  The sign of zero is kept, and a comparison with `nan` is false.  A `nan` carries a payload, by which
  one that is passed on can be told from others; that of an undefined result is zero.
-/

namespace Permits.Number

/-! ## Rounding -/

/-- The natural number nearest to `num / den`; a half goes to the even one. -/
def nearest (num den : Nat) : Nat :=
  let q := num / den
  let twice := 2 * (num % den)
  if twice < den then q else if den < twice then q + 1 else q + q % 2

/-- The distance between neighbours of 53 significant bits around `n`: one below 2⁵³. -/
def spacing (n : Nat) : Nat := Nat.pow 2 (n.log2 - 52)

/-- The number of at most 53 significant bits nearest to `num / den`. -/
def roundUnits (num den : Nat) : Nat :=
  let step := spacing (num / den)
  nearest num (den * step) * step

/-! ## The numbers -/

/-- A binary64 number; `finite s n` is `n` units of 2⁻¹⁰⁷⁴, negated if `s`. -/
inductive Double where
  | finite (negative : Bool) (units : Nat)
  | infinite (negative : Bool)
  | nan (payload : Nat)
  deriving DecidableEq, Repr, Inhabited

namespace Double

/-- How many units make one. -/
def one : Nat := Nat.pow 2 1074

/-- The first magnitude, in units, that is too large: 2¹⁰²⁴. -/
def limit : Nat := Nat.pow 2 1024 * one

/-- `± num / den` rounded to the nearest binary64 number, the quotient given in units. -/
def ofUnits (negative : Bool) (num den : Nat) : Double :=
  let n := roundUnits num den
  if n < limit then .finite negative n else .infinite negative

/-- `± num / den` rounded to the nearest binary64 number. -/
def ofRatio (negative : Bool) (num den : Nat) : Double := ofUnits negative (num * one) den

/-- `n / den` for an integer `n`, rounded. -/
def ofIntRatio (n : Int) (den : Nat) : Double := ofRatio (n < 0) n.natAbs den

/-- An integer rounded; beyond the range of finite numbers the result is infinite. -/
def ofInt (n : Int) : Double := ofIntRatio n 1

/-- Zero, with the plus sign. -/
def zero : Double := .finite false 0

def isFinite : Double → Bool
  | .finite .. => true
  | _ => false

/-- The result of an operation that has none. -/
def undefined : Double := .nan 0

/-- Is the number a zero of either sign? -/
def isZero : Double → Bool
  | .finite _ n => n == 0
  | _ => false

/-- A sign and a magnitude as one integer. -/
def signed (negative : Bool) (n : Nat) : Int := if negative then -(n : Int) else n

/-! ## Order -/

def lt : Double → Double → Bool
  | .nan _, _ | _, .nan _ => false
  | .infinite s, .infinite t => s && !t
  | .infinite s, .finite .. => s
  | .finite .., .infinite t => !t
  | .finite s m, .finite t n => signed s m < signed t n

def le : Double → Double → Bool
  | .nan _, _ | _, .nan _ => false
  | .infinite s, .infinite t => s || !t
  | .infinite s, .finite .. => s
  | .finite .., .infinite t => !t
  | .finite s m, .finite t n => signed s m ≤ signed t n

/-- The later of two clock readings; the first of them when they cannot be told apart. -/
def max (x y : Double) : Double := if lt x y then y else x

/-! ## Arithmetic -/

def neg : Double → Double
  | .finite s n => .finite (!s) n
  | .infinite s => .infinite (!s)
  | .nan _ => undefined

/-- The exact sum, rounded.  A sum of zero is negative only when both terms are. -/
def add : Double → Double → Double
  | .nan _, _ | _, .nan _ => undefined
  | .infinite s, .infinite t => if s = t then .infinite s else undefined
  | .infinite s, _ | _, .infinite s => .infinite s
  | .finite s m, .finite t n =>
    let sum := signed s m + signed t n
    -- Opposite terms cancel to the positive zero.
    if sum = 0 then .finite (s && t) 0 else ofUnits (sum < 0) sum.natAbs 1

def sub (x y : Double) : Double := add x (neg y)

/-- The exact product, rounded. -/
def mul : Double → Double → Double
  | .nan _, _ | _, .nan _ => undefined
  | .infinite s, .infinite t => .infinite (s != t)
  | .infinite s, .finite t n | .finite t n, .infinite s =>
    if n = 0 then undefined else .infinite (s != t)
  | .finite s m, .finite t n => ofUnits (s != t) (m * n) one

/-! ## Integers near a number -/

/-- A number that no integer is near to. -/
inductive NoInteger where
  | infinite
  | nan
  deriving DecidableEq, Repr

/-- The integer nearest to the number; a half goes to the even one. -/
def round : Double → Except NoInteger Int
  | .finite s n => .ok (signed s (nearest n one))
  | .infinite _ => .error .infinite
  | .nan _ => .error .nan

/-- The integer that is left when the fraction is dropped. -/
def truncate : Double → Except NoInteger Int
  | .finite s n => .ok (signed s (n / one))
  | .infinite _ => .error .infinite
  | .nan _ => .error .nan

end Double

end Permits.Number
