/-
  Quoted text — how text and bytes are shown inside messages.

  Text stands between single quotes, or between double quotes when it holds a single quote and no
  double one.  A backslash, the quote in use, line feed, carriage return and tab are escaped by a
  letter; what else does not print is escaped by its code in two, four or eight hexadecimal digits.
  Bytes are shown as the characters of their values, of which only those of ASCII print.  The bytes
  of a buffer that can change are shown with every single quote escaped.
-/
import Permits.Text.Class
import Permits.Text.Utf8

namespace Permits.Text

/-- `n` in hexadecimal, with zeros in front up to `width` digits. -/
def hex (width n : Nat) : List Char :=
  let digits := Nat.toDigits 16 n
  List.replicate (width - digits.length) '0' ++ digits

/-- The quote that is put around characters. -/
def quoteFor (cs : List Char) : Char :=
  if cs.contains '\'' && !cs.contains '"' then '"' else '\''

/-- A character by its code. -/
def escapeCode (c : Char) : List Char :=
  if c.toNat < 0x100 then '\\' :: 'x' :: hex 2 c.toNat
  else if c.toNat < 0x10000 then '\\' :: 'u' :: hex 4 c.toNat
  else '\\' :: 'U' :: hex 8 c.toNat

/-- One character between quotes; `plain` tells which are shown as themselves. -/
def escape (plain : Char → Bool) (escaped c : Char) : List Char :=
  if c = escaped ∨ c = '\\' then ['\\', c]
  else if c = '\n' then ['\\', 'n']
  else if c = '\r' then ['\\', 'r']
  else if c = '\t' then ['\\', 't']
  else if plain c then [c]
  else escapeCode c

/-- Characters between quotes, those equal to `escaped` behind a backslash. -/
def enclose (plain : Char → Bool) (escaped : Char) (cs : List Char) : String :=
  let quote := quoteFor cs
  String.ofList (quote :: cs.flatMap (escape plain escaped) ++ [quote])

/-- A text between quotes. -/
def quoted (s : String) : String :=
  let cs := s.toList
  enclose isPrintable (quoteFor cs) cs

/-- The characters that bytes are shown as. -/
def charsOfBytes (bs : Bytes) : List Char := bs.map fun b => Char.ofNat b.toNat

/-- Is `c` a character of ASCII that is shown as itself? -/
def isPlainByte (c : Char) : Bool := c.toNat < 0x80 && isPrintable c

/-- Bytes between quotes. -/
def quotedBytes (bs : Bytes) : String :=
  let cs := charsOfBytes bs
  enclose isPlainByte (quoteFor cs) cs

/-- The bytes of a buffer between quotes; a single quote is escaped whatever stands around it. -/
def quotedBuffer (bs : Bytes) : String := enclose isPlainByte '\'' (charsOfBytes bs)

example : quoted "it's" = "\"it's\"" := by decide +kernel
example : quoted "a\u00a0\n" = "'a\\xa0\\n'" := by decide +kernel
example : quotedBytes [0, 255, 39, 34] = "'\\x00\\xff\\'\"'" := by decide +kernel

end Permits.Text
