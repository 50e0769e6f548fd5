/-
  Located failures — faults in a text that has files and lines.

  Such a failure is raised with a message and, if there is a second argument and no third, with a
  row that tells where the fault is: file, line, column, the line's text, and perhaps where the fault
  ends.  The text names the file without its folders, if it is a text, and the line, if it is a number.
-/
import Permits.Failure.Refusal

namespace Permits.Raised

open Refusal

/-- Where a fault is, as far as the text tells it. -/
structure Location where
  file : Option String
  line : Option Int

/-- A file's name without its folders. -/
def baseName (path : String) : String := ((path.splitOn "/").getLast?).getD path

/-- The file that a value names. -/
def fileName? : Value → Option String
  | .text path => some (baseName path)
  | _ => none

/-- The line that a value numbers; truth values do not count, and a number of more than 64 bits
    reads as -1. -/
def lineNumber? : Value → Option Int
  | .int n => some (if fitsWord n then n else -1)
  | _ => none

/-- The location that a row of four to six items tells. -/
def locationOf (row : Value) : Except Refusal Location := do
  let row ← items row
  match row with
  | file :: line :: _ :: _ :: rest =>
    match rest.length with
    | 0 | 2 => return ⟨fileName? file, lineNumber? line⟩
    | 1 => .error (ofType "end_offset must be provided when end_lineno is provided")
    | _ => .error (count "at most" 6 row.length)
  | row => .error (count "at least" 4 row.length)

/-- A message and where it is about. -/
def locatedText (message : Value) (location : Location) : Except Refusal String := do
  let text ← message.displayed
  let line := location.line.map fun n => "line " ++ toString n
  match location.file.toList ++ line.toList with
  | [] => return text
  | place => return text ++ " (" ++ ", ".intercalate place ++ ")"

/-- The text of a located failure, once its row was looked at. -/
def located : List Value → Except Refusal (Except Refusal String)
  | [] => .ok (Value.displayed .none)
  | [message, row] => do return locatedText message (← locationOf row)
  | message :: _ => .ok message.displayed

example : locatedText (.text "bad") ⟨some "b.txt", some 3⟩ = .ok "bad (b.txt, line 3)" := by rfl
example : locatedText (.text "bad") ⟨none, some 3⟩ = .ok "bad (line 3)" := by rfl

end Permits.Raised
