/-
  Failures of the operating system — kinds that go by numbers.

  Such a failure may be raised with a number and a text, with up to two files behind them.  Then the
  number decides the kind (`canonical`), and the text tells number, text and files (`text?`).  A
  failure to go on without blocking may have a number of characters in the place of a file.
-/
import Permits.Failure.Refusal

namespace Permits.Raised.System

/-! ## Kinds -/

/-- Further names of the kind of failures of the operating system. -/
def names : List String := ["EnvironmentError", "IOError", "OSError"]

/-- The kind that the number of a failure of the operating system stands for. -/
def kindOfNumber (n : Int) : String :=
  match n with
  | 1 | 13 => "PermissionError"
  | 2 => "FileNotFoundError"
  | 3 => "ProcessLookupError"
  | 4 => "InterruptedError"
  | 10 => "ChildProcessError"
  | 11 | 114 | 115 => "BlockingIOError"
  | 17 => "FileExistsError"
  | 20 => "NotADirectoryError"
  | 21 => "IsADirectoryError"
  | 32 | 108 => "BrokenPipeError"
  | 103 => "ConnectionAbortedError"
  | 104 => "ConnectionResetError"
  | 110 => "TimeoutError"
  | 111 => "ConnectionRefusedError"
  | _ => "OSError"

/-- The kinds of failures of the operating system. -/
def kinds : List String :=
  ["OSError", "BlockingIOError", "BrokenPipeError", "ChildProcessError", "ConnectionError",
   "ConnectionAbortedError", "ConnectionRefusedError", "ConnectionResetError", "FileExistsError",
   "FileNotFoundError", "InterruptedError", "IsADirectoryError", "NotADirectoryError",
   "PermissionError", "ProcessLookupError", "TimeoutError"]

/-- A number, a text and what is behind them; arguments in other numbers mean nothing special. -/
def parts? : List Value → Option (Value × Value × List Value)
  | number :: reason :: rest => if rest.length ≤ 3 then some (number, reason, rest) else none
  | _ => none

/-- The kind that is meant by one of its names. -/
def canonical (kind : String) (args : List Value) : String :=
  if names.contains kind then
    match parts? args with
    | some (number, _, _) => (number.asInt?.map kindOfNumber).getD "OSError"
    | none => "OSError"
  else kind

/-! ## Texts -/

/-- Is a value a number of any type? -/
def isNumber : Value → Bool
  | .float _ => true
  | .other o => o.isNumber
  | v => v.asInt?.isSome

/-- The file that the first of some arguments is; a failure to go on without blocking takes a
    number as that of the characters that were written. -/
def file? (kind : String) : List Value → Except Refusal (Option Value)
  | [] | .none :: _ => .ok none
  | v :: _ =>
    if kind = "BlockingIOError" ∧ isNumber v then
      match v.index? with
      | some n =>
        if Refusal.fitsWord n then .ok none
        else .error (.ofValue ("cannot fit " ++ Refusal.quotedType 200 v.qualifiedTypeName ++
          " into an index-sized integer"))
      | none => .error (.ofType (Refusal.notIntegerText v.qualifiedTypeName))
    else .ok (some v)

/-- A number, a text, and up to two files. -/
def wording (number reason : Value) (file other : Option Value) : Except Refusal String := do
  let head := "[Errno " ++ (← number.displayed) ++ "] " ++ (← reason.displayed)
  match file, other with
  | some file, some other => return head ++ ": " ++ (← file.shown) ++ " -> " ++ (← other.shown)
  | some file, none => return head ++ ": " ++ (← file.shown)
  | none, _ => return head

/-- The text of a failure with a number and a text; `none` if the arguments are no such. -/
def text? (kind : String) (args : List Value) :
    Except Refusal (Option (Except Refusal String)) :=
  match parts? args with
  | none => .ok none
  | some (number, reason, rest) => do
    let file ← file? kind rest
    let other ← file? "" (rest.drop 2)
    return some (wording number reason file other)

end Permits.Raised.System
