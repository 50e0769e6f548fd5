/-
  Values — what callers hand in and what a store replies.

  Hosts call with whatever they have, and a store may reply anything, so arguments and replies are
  values of one dynamic type.

  1. **The type** (`Value`): nothing, truth values, integers, binary64 numbers, text, bytes, spans
     of time, lists and tuples, semaphores, and objects of other types.  Of such an object is known
     what others get to see of it (`Object`): how it reads, whether it counts as true and may be a
     key, how much it is if it is a number (`Amount`), and what comes of converting it to seconds.
  2. **Type names** (`typeName`, `qualifiedTypeName`): the words that messages use.
  3. **Truth** (`isTrue`): zero and what is empty count as false.
  4. **Numbers** (`isBelow?`, `index?`): which values are in order with integers, and which of them
     may stand for one.
  5. **Keys** (`keyFault?`, `sameKey`): which values may name an entry of a table, and when two of
     them name the same one.  Numbers of all types are compared by how much they are; a semaphore is
     the same only as itself, and so are a not-a-number and most objects.
-/
import Permits.Failure.Kind
import Permits.Number.Double
import Permits.Name.Basic

namespace Permits

open Number Text

/-- A span of time: whole days of either sign, and seconds and microseconds within the day.  No
    span is longer than 999999999 days. -/
structure Span where
  days : Int
  seconds : Nat
  microseconds : Nat
  days_le : days.natAbs ≤ 999999999
  seconds_lt : seconds < 86400
  microseconds_lt : microseconds < 1000000
  deriving DecidableEq, Repr

/-- The whole span in microseconds. -/
def Span.totalMicroseconds (s : Span) : Int :=
  (s.days * 86400 + s.seconds) * 1000000 + s.microseconds

/-- The span of some microseconds, unless it is too long. -/
def Span.ofMicroseconds? (n : Int) : Option Span :=
  let rest := (n % 86400000000).toNat
  if h : (n / 86400000000).natAbs ≤ 999999999 then
    some ⟨n / 86400000000, rest / 1000000, rest % 1000000, h, by omega, by omega⟩
  else none

/-- Days, seconds and microseconds of any size are carried over; the sum is the same. -/
theorem Span.totalMicroseconds_of_ofMicroseconds? {n : Int} {s : Span}
    (h : ofMicroseconds? n = some s) : s.totalMicroseconds = n := by
  dsimp only [ofMicroseconds?] at h
  split at h
  · obtain rfl := Option.some.inj h
    simp only [totalMicroseconds]
    omega
  · simp at h

/-! ## Amounts -/

/-- How much a number is, whatever its type. -/
inductive Amount where
  | ratio (q : Rat)
  | infinite (negative : Bool)
  deriving DecidableEq, Repr, Inhabited

namespace Amount

def isZero : Amount → Bool
  | ratio q => q == 0
  | infinite _ => false

/-- Is it less than an integer? -/
def isBelow (bound : Int) : Amount → Bool
  | ratio q => q < bound
  | infinite negative => negative

/-- The amount without its fraction, if it has any whole part. -/
def truncate : Amount → Except Double.NoInteger Int
  | ratio q => .ok (q.num.tdiv q.den)
  | infinite _ => .error .infinite

end Amount

/-- How much a binary64 number is. -/
def Number.Double.amount? : Double → Option Amount
  | finite s m => some (.ratio (mkRat (signed s m) one))
  | infinite s => some (.infinite s)
  | nan _ => none

/-! ## Objects -/

/-- A number that is neither an integer nor a binary64 number. -/
structure Object.Quantity where
  /-- How much it is; a number that lies apart from all amounts has none. -/
  amount : Option Amount
  /-- Is it in order with integers? -/
  isOrdered : Bool
  /-- May it stand for an integer, if it is as much as one? -/
  isIntegral : Bool
  deriving DecidableEq, Repr, Inhabited

/-- What an object is made of. -/
inductive Object.Shape where
  | plain (isTrue : Bool)
  | number (quantity : Object.Quantity)
  /-- An empty container whose items have no order. -/
  | container
  /-- An empty row. -/
  | row
  deriving DecidableEq, Repr, Inhabited

/-- An object of some other type, by all that is looked at.  Unless it is a number, it equals objects of
    its own type only, and is in no order with numbers. -/
structure Object where
  type : String
  /-- The type in messages about an operation that it lacks. -/
  qualifiedType : String := type
  /-- Objects of one type are equal if these are; what is a key equals no object that is none. -/
  identity : Nat := 0
  shape : Object.Shape := .plain true
  /-- May the object be a key? -/
  isKey : Bool := true
  /-- The object as it stands inside a message, or why it cannot be written. -/
  text : Except Refusal String
  /-- The binary64 number that the object converts to, or what converting it runs into; `none` if it
      is not meant to be converted. -/
  number : Option (Except Refusal Double) := none
  deriving Repr

namespace Object

/-- The number that an object is. -/
def quantity? (o : Object) : Option Quantity :=
  match o.shape with
  | .number q => some q
  | .plain _ | .container | .row => none

/-- How much an object is. -/
def amount? (o : Object) : Option Amount := o.quantity?.bind (·.amount)

/-- Is an object in order with integers? -/
def isOrdered (o : Object) : Bool := o.quantity?.any (·.isOrdered)

/-- How much an object is that may be a key. -/
def keyAmount? (o : Object) : Option Amount := if o.isKey then o.amount? else none

/-- Does an object count as true?  Any number does but zero. -/
def isTrue (o : Object) : Bool :=
  match o.shape with
  | .plain isTrue => isTrue
  | .number q => !q.amount.any (·.isZero)
  | .container | .row => false

/-- Is an object a number, or does it convert to one? -/
def isNumber (o : Object) : Bool := o.quantity?.isSome || o.number.isSome

/-- Is an object less than an integer?  What is no amount is less than nothing. -/
def isBelow? (o : Object) (bound : Int) : Option Bool :=
  if o.isOrdered then some (o.amount?.any (·.isBelow bound)) else none

/-- The integer that an object stands for. -/
def index? (o : Object) : Option Int :=
  match o.quantity? with
  | some ⟨some (.ratio q), _, true⟩ => if q.den = 1 then some q.num else none
  | _ => none

end Object

/-- A dynamic value. -/
inductive Value where
  | none
  | bool (b : Bool)
  | int (n : Int)
  | float (x : Double)
  | text (s : String)
  | bytes (bs : Bytes)
  | byteArray (bs : Bytes)
  | span (s : Span)
  | list (items : List Value)
  | tuple (items : List Value)
  /-- A semaphore as others see it; `identity` tells it from all others. -/
  | semaphore (className : String) (name : Name) (timeout : Double) (identity : Nat)
  | other (object : Object)
  deriving Repr, Inhabited

namespace Value

/-! ## Type names -/

/-- The name of a value's type. -/
def typeName : Value → String
  | .none => "NoneType"
  | .bool _ => "bool"
  | .int _ => "int"
  | .float _ => "float"
  | .text _ => "str"
  | .bytes _ => "bytes"
  | .byteArray _ => "bytearray"
  | .span _ => "timedelta"
  | .list _ => "list"
  | .tuple _ => "tuple"
  | .semaphore className .. => className
  | .other o => o.type

/-- The name of a value's type in messages about an operation that the type lacks. -/
def qualifiedTypeName : Value → String
  | .span _ => "datetime.timedelta"
  | .other o => o.qualifiedType
  | v => v.typeName

/-! ## Truth -/

/-- Zero and what is empty count as false. -/
def isTrue : Value → Bool
  | .none => false
  | .bool b => b
  | .int n => n != 0
  | .float x => !x.isZero
  | .text s => s != ""
  | .bytes bs | .byteArray bs => !bs.isEmpty
  | .span s => s.totalMicroseconds != 0
  | .list items | .tuple items => !items.isEmpty
  | .semaphore .. => true
  | .other o => o.isTrue

/-! ## Numbers -/

/-- The integer that a truth value or an integer is. -/
def asInt? : Value → Option Int
  | .bool b => some (if b then 1 else 0)
  | .int n => some n
  | _ => Option.none

/-- The integer that a value stands for. -/
def index? : Value → Option Int
  | .other o => o.index?
  | v => v.asInt?

/-- Is a value less than an integer?  What is no real number is in no order with it. -/
def isBelow? (bound : Int) : Value → Option Bool
  | .float x => some (x.lt (.ofInt bound))
  | .other o => o.isBelow? bound
  | v => v.asInt?.map fun n => n < bound

/-! ## Values as keys -/

mutual

/-- The type that keeps a value from being a key, if there is one. -/
def keyFault? : Value → Option String
  | .list _ => some "list"
  | .byteArray _ => some "bytearray"
  | .other o => if o.isKey then Option.none else some o.type
  | .tuple items => keyFaultOfItems? items
  | _ => Option.none

def keyFaultOfItems? : List Value → Option String
  | [] => Option.none
  | v :: vs => (keyFault? v).or (keyFaultOfItems? vs)

end

/-- How much a value is that may be a key. -/
def amount? : Value → Option Amount
  | .float x => x.amount?
  | .other o => o.keyAmount?
  | v => v.asInt?.map fun n => .ratio n

mutual

/-- Do two values name the same entry of a table? -/
def sameKey (v w : Value) : Bool :=
  match amount? v, amount? w with
  | some p, some q => p == q
  | Option.none, Option.none =>
    match v, w with
    | .none, .none => true
    | .text s, .text t => s == t
    | .bytes a, .bytes b => a == b
    | .span a, .span b => a == b
    | .tuple a, .tuple b => sameKeys a b
    | .semaphore _ _ _ i, .semaphore _ _ _ j => i == j
    | .float (.nan p), .float (.nan q) => p == q && p != 0
    | .other a, .other b => a.type == b.type && a.identity == b.identity && a.isKey == b.isKey
    | _, _ => false
  | _, _ => false

def sameKeys : List Value → List Value → Bool
  | [], [] => true
  | v :: vs, w :: ws => sameKey v w && sameKeys vs ws
  | _, _ => false

end

end Value

end Permits
