/-
  Redirections — failures of a store that name another node to ask.

  Such a failure is raised with a text: a slot, a blank, and a node as host, colon and number.  The
  text is taken apart when the failure is raised, so one of another form is refused.
-/
import Permits.Failure.Refusal
import Permits.Number.Numeral

namespace Permits.Raised

open Number Refusal

/-- Both parts of something that was split. -/
def twoParts : List String → Except Refusal (String × String)
  | [a, b] => .ok (a, b)
  | parts =>
    if parts.length < 2 then
      .error (ofValue ("not enough values to unpack (expected 2, got " ++ toString parts.length ++ ")"))
    else .error (ofValue "too many values to unpack (expected 2)")

/-- What is in front of the last colon and what is behind it; one part if there is none. -/
def splitLastColon (node : String) : List String :=
  match (node.splitOn ":").reverse with
  | last :: before :: rest => [":".intercalate (before :: rest).reverse, last]
  | parts => parts

/-- The integer that a text writes. -/
def integerIn (s : String) : Except Refusal Int :=
  match readInteger s.toList with
  | .ok n => .ok n
  | .error .malformed => .error (notIntegerLiteral (Text.quoted s))
  | .error (.tooLong digits) => .error (tooManyDigits digits)

/-- Checks the argument of a redirection. -/
def checkRedirection : Value → Except Refusal Unit
  | .text s => do
    let (slot, node) ← twoParts (s.splitOn " ")
    let (_, number) ← twoParts (splitLastColon node)
    let _ ← integerIn slot
    let _ ← integerIn number
  | .bytes _ | .byteArray _ => .error (ofType "a bytes-like object is required, not 'str'")
  | v => .error ⟨.of "AttributeError", quotedType 50 v.qualifiedTypeName ++ " object has no attribute 'split'"⟩

end Permits.Raised
