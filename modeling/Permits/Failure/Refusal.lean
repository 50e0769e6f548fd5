/-
  Refusals — why a failure cannot be raised with the arguments it was given.

  Some kinds of failures look at their arguments, to form their text or to find their kind.  What
  they cannot take is refused, and the refusal (`Refusal`) is raised in their place.

  1. **How many** (`Refusal.count`): some kinds take an exact number of arguments.
  2. **Which form**: a text (`textAt`), a position (`position`), or a row of items (`items`).

  A message that names the type of an argument names only as much of it as fits into some bytes.
-/
import Permits.Value.Shown
import Permits.Text.Coding

namespace Permits.Refusal

open Text

/-! ## Wording -/

def ofType (message : String) : Refusal := ⟨.of "TypeError", message⟩

def ofValue (message : String) : Refusal := ⟨.of "ValueError", message⟩

/-- As much of a type's name as fits into `limit` bytes, between quotes. -/
def quotedType (limit : Nat) (type : String) : String := "'" ++ Utf8.clip limit type ++ "'"

def notIntegerText (type : String) : String :=
  quotedType 200 type ++ " object cannot be interpreted as an integer"

/-- How much of a text that should be an integer is shown. -/
def shownLimit : Nat := 200

/-- A text that is shown so should be an integer. -/
def notIntegerLiteral (shown : String) : Refusal :=
  ofValue ("invalid literal for int() with base 10: " ++
    String.ofList (shown.toList.take shownLimit))

/-- An integer is written with more digits than are read. -/
def tooManyDigits (count : Nat) : Refusal :=
  ofValue ("Exceeds the limit (4300 digits) for integer string conversion: value has " ++
    toString count ++ " digits; use sys.set_int_max_str_digits() to increase the limit")

/-- An exact number of arguments was not met; `bound` tells on which side, if one side alone is
    bounded. -/
def count (bound : String) (expected given : Nat) : Refusal :=
  ofType ("function takes " ++ bound ++ " " ++ toString expected ++ " arguments (" ++
    toString given ++ " given)")

/-- An argument is no text.  The type is cut to fifty bytes; if that splits a character, the message
    itself is no text, which is a failure of its own. -/
def notText (argument : String) (v : Value) : Refusal :=
  let type := match v with
    | .none => "None"
    | v => v.qualifiedTypeName
  let start := argument ++ " must be str, not "
  match Utf8.decode (Utf8.encode start ++ (Utf8.encode type).take 50) with
  | .ok message => ofType message
  | .error fault => ⟨.of "UnicodeDecodeError", Coding.faultText fault⟩

/-! ## The forms of arguments -/

/-- The text that the argument at a place has to be; places count from one. -/
def textAt (place : Nat) : Value → Except Refusal String
  | .text s => .ok s
  | v => .error (notText ("argument " ++ toString place) v)

/-- Does an integer fit into 64 bits? -/
def fitsWord (n : Int) : Bool := -9223372036854775808 ≤ n && n < 9223372036854775808

/-- The position that an argument has to be: an integer of 64 bits. -/
def position (v : Value) : Except Refusal Int :=
  match v.index? with
  | some n =>
    if fitsWord n then .ok n
    else .error ⟨.of "OverflowError", "Python int too large to convert to C ssize_t"⟩
  | none => .error (ofType (notIntegerText v.qualifiedTypeName))

/-- Is a value a container that is known to be empty? -/
def isEmptyContainer : Value → Bool
  | .other o => o.shape = .container ∨ o.shape = .row
  | _ => false

/-- The items of a value that is made of some; text is made of characters, and bytes of numbers. -/
def items : Value → Except Refusal (List Value)
  | .list vs | .tuple vs => .ok vs
  | .text s => .ok (s.toList.map fun c => .text (String.singleton c))
  | .bytes bs | .byteArray bs => .ok (bs.map fun b => .int b.toNat)
  | v =>
    if isEmptyContainer v then .ok []
    else .error (ofType (quotedType 200 v.qualifiedTypeName ++ " object is not iterable"))

end Permits.Refusal
