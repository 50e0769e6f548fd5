/-
  Coding failures in words — characters that an encoding cannot write, and bytes that are no text.

  Such a failure tells the range that is at fault.  A single character or byte is shown itself
  (`rangeText`), a longer range by its first and its last position.  The end of a range is the
  position behind it.
-/
import Permits.Text.Quoted

namespace Permits.Text.Coding

/-- The last position before `stop`.  Positions are integers of 64 bits, which come round. -/
def lastBefore (stop : Int) : Int := (stop - 1).bmod 18446744073709551616

/-- The range from `first` up to `stop`; `shownAt` tells what stands at a position. -/
def rangeText (part : String) (shownAt : Int → Option String) (first stop : Int) : String :=
  match if stop = first + 1 then shownAt first else none with
  | some shown => part ++ " " ++ shown ++ " in position " ++ toString first
  | none => part ++ "s in position " ++ toString first ++ "-" ++ toString (lastBefore stop)

/-- A character by its code. -/
def shownCharacter (cs : List Char) (i : Int) : Option String :=
  if i < 0 then none
  else cs[i.toNat]?.map fun c => "'" ++ String.ofList (escapeCode c) ++ "'"

/-- A byte by its value; whatever stands in front of the first byte reads as 255. -/
def shownByte (bs : Bytes) (i : Int) : Option String :=
  let byte := if i < 0 then some 255 else bs[i.toNat]?
  byte.map fun b => "0x" ++ String.ofList (hex 2 b.toNat)

/-- Characters that an encoding cannot write. -/
def encodingText (encoding text : String) (first stop : Int) (reason : String) : String :=
  "'" ++ encoding ++ "' codec can't encode " ++
    rangeText "character" (shownCharacter text.toList) first stop ++ ": " ++ reason

/-- Bytes that are no text in an encoding. -/
def decodingText (encoding : String) (bs : Bytes) (first stop : Int) (reason : String) : String :=
  "'" ++ encoding ++ "' codec can't decode " ++
    rangeText "byte" (shownByte bs) first stop ++ ": " ++ reason

/-- Characters that have no counterpart. -/
def translatingText (text : String) (first stop : Int) (reason : String) : String :=
  "can't translate " ++ rangeText "character" (shownCharacter text.toList) first stop ++ ": " ++ reason

/-- The reason that bytes are no text, in words. -/
def reasonText : Utf8.Reason → String
  | .invalidStart => "invalid start byte"
  | .invalidContinuation => "invalid continuation byte"
  | .unexpectedEnd => "unexpected end of data"

/-- Bytes that are no text in UTF-8, by their first fault. -/
def faultText (f : Utf8.Fault) : String :=
  let shownAt (i : Int) : Option String := if i = f.position then shownByte [f.byte] 0 else none
  "'utf-8' codec can't decode " ++
    rangeText "byte" shownAt f.position (f.position + f.length) ++ ": " ++ reasonText f.reason

example : encodingText "ascii" "a€b" 1 2 "no" =
    "'ascii' codec can't encode character '\\u20ac' in position 1: no" := by decide +kernel
example : decodingText "utf-8" [0xe2, 0x82] 0 2 "no" =
    "'utf-8' codec can't decode bytes in position 0-1: no" := by decide +kernel

end Permits.Text.Coding
