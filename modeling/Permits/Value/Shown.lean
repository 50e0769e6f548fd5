/-
  The text of a value.

  1. **Shown** (`shown`): the form in which a value stands inside a message or a list, with quotes
     around text and bytes.
  2. **Displayed** (`displayed`): the form in which a value becomes text itself.  Text is its own,
     a span of time reads as days and a clock time, and every other value is as it is shown.

  Not every value has a text: an integer of more than `digitLimit` digits is refused
  (`Refusal.overlong`), as is one with more digits that is read, and an object may have a reason of
  its own.  Of several items the first without a text decides.
-/
import Permits.Value.Basic
import Permits.Text.Quoted
import Permits.Number.Numeral

namespace Permits

open Number Text

/-! ## Spans of time -/

/-- A span by its parts, those that are zero left out. -/
def Span.shown (s : Span) : String :=
  let part (name : String) (n : Int) : List String := if n = 0 then [] else [name ++ "=" ++ toString n]
  let parts := part "days" s.days ++ part "seconds" s.seconds ++ part "microseconds" s.microseconds
  "datetime.timedelta(" ++ (if parts = [] then "0" else ", ".intercalate parts) ++ ")"

/-- `n` with zeros in front up to `width` digits. -/
def padded (width n : Nat) : String :=
  let digits := toString n
  String.ofList (List.replicate (width - digits.length) '0') ++ digits

/-- A span as days, if any, and a clock time. -/
def Span.displayed (s : Span) : String :=
  let days := if s.days = 0 then ""
    else toString s.days ++ (if s.days.natAbs = 1 then " day, " else " days, ")
  let fraction := if s.microseconds = 0 then "" else "." ++ padded 6 s.microseconds
  days ++ toString (s.seconds / 3600) ++ ":" ++ padded 2 (s.seconds / 60 % 60) ++ ":" ++
    padded 2 (s.seconds % 60) ++ fraction

/-- An integer has more digits than are written. -/
def Refusal.overlong : Refusal :=
  ⟨.of "ValueError", "Exceeds the limit (4300 digits) for integer string conversion; use " ++
    "sys.set_int_max_str_digits() to increase the limit"⟩

namespace Value

/-! ## All values -/

/-- An integer in decimal digits, unless there are too many. -/
def shownInt (n : Int) : Except Refusal String :=
  if (Nat.toDigits 10 n.natAbs).length ≤ digitLimit then .ok (toString n) else .error .overlong

/-- A semaphore: its class, its name and the seconds that it waits. -/
def shownSemaphore (className : String) (name : Name) (timeout : Double) : String :=
  "<" ++ className ++ " name=" ++ name.shown ++ " timeout=" ++ timeout.text ++ ">"

mutual

/-- A value as it stands inside a message. -/
def shown : Value → Except Refusal String
  | .none => .ok "None"
  | .bool b => .ok (if b then "True" else "False")
  | .int n => shownInt n
  | .float x => .ok x.text
  | .text s => .ok (quoted s)
  | .bytes bs => .ok ("b" ++ quotedBytes bs)
  | .byteArray bs => .ok ("bytearray(b" ++ quotedBuffer bs ++ ")")
  | .span s => .ok s.shown
  | .list items => do return "[" ++ ", ".intercalate (← shownItems items) ++ "]"
  | .tuple [v] => do return "(" ++ (← shown v) ++ ",)"
  | .tuple items => do return "(" ++ ", ".intercalate (← shownItems items) ++ ")"
  | .semaphore className name timeout _ => .ok (shownSemaphore className name timeout)
  | .other o => o.text

def shownItems : List Value → Except Refusal (List String)
  | [] => .ok []
  | v :: vs => do
    let text ← shown v
    let texts ← shownItems vs
    return text :: texts

end

/-- A value as text of its own. -/
def displayed : Value → Except Refusal String
  | .text s => .ok s
  | .span s => .ok s.displayed
  | v => v.shown

end Value

end Permits
