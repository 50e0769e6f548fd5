/-
  Raised coding failures — the arguments of characters that cannot be written and bytes that cannot
  be read.

  Such a failure takes an encoding, what was to be coded, the range at fault and a reason, all of
  them; a failure to translate has no encoding.  The arguments are looked at from left to right,
  except that bytes are told from other values last.
-/
import Permits.Failure.Refusal

namespace Permits.Raised

open Text Refusal

/-- Characters that an encoding cannot write. -/
def encodingText : List Value → Except Refusal String
  | [encoding, text, first, stop, reason] => do
    let encoding ← textAt 1 encoding
    let text ← textAt 2 text
    let first ← position first
    let stop ← position stop
    let reason ← textAt 5 reason
    return Coding.encodingText encoding text first stop reason
  | args => .error (count "exactly" 5 args.length)

/-- The bytes that an argument has to be. -/
def bytesOf : Value → Except Refusal Bytes
  | .bytes bs | .byteArray bs => .ok bs
  | v => .error (ofType ("a bytes-like object is required, not " ++ quotedType 100 v.qualifiedTypeName))

/-- Bytes that are no text in an encoding. -/
def decodingText : List Value → Except Refusal String
  | [encoding, bytes, first, stop, reason] => do
    let encoding ← textAt 1 encoding
    let first ← position first
    let stop ← position stop
    let reason ← textAt 5 reason
    let bytes ← bytesOf bytes
    return Coding.decodingText encoding bytes first stop reason
  | args => .error (count "exactly" 5 args.length)

/-- Characters that have no counterpart. -/
def translatingText : List Value → Except Refusal String
  | [text, first, stop, reason] => do
    let text ← textAt 1 text
    let first ← position first
    let stop ← position stop
    let reason ← textAt 4 reason
    return Coding.translatingText text first stop reason
  | args => .error (count "exactly" 4 args.length)

end Permits.Raised
