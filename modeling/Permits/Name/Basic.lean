/-
  Names of lists — the text or bytes that address a semaphore's list in the store.

  The store knows a list by its **key**, the bytes of its name, so a text and its UTF-8 bytes address
  the same list.
-/
import Permits.Text.Quoted

namespace Permits

open Text

/-- The name of a list. -/
inductive Name where
  | text (s : String)
  | bytes (bs : Bytes)
  deriving DecidableEq, Repr, Inhabited

/-- The bytes by which the store knows the list. -/
def Name.key : Name → Bytes
  | text s => Utf8.encode s
  | bytes bs => bs

/-- The name as it stands inside a message. -/
def Name.shown : Name → String
  | text s => quoted s
  | bytes bs => "b" ++ quotedBytes bs

end Permits
