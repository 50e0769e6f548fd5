/-
  UTF-8 — the encoded form of text, and strict decoding.

  1. **Encoding** (`encode`): the bytes of a text; distinct texts have distinct bytes.
  2. **Decoding** (`decode`): accepts exactly the bytes of a text.
  3. **The fault** (`fault`): for bytes that are no text, the first bad range and why.  A range is
     as long as the part of a sequence that could still have become a character.
  4. **Clipping** (`clip`): as much of a text as fits into a number of bytes.  A character that is cut
     in two leaves a replacement character.
-/

namespace Permits.Text

/-- A string of bytes. -/
abbrev Bytes := List UInt8

namespace Utf8

/-! ## Encoding and decoding -/

/-- The UTF-8 bytes of a text. -/
def encode (s : String) : Bytes := s.toByteArray.data.toList

/-- Distinct texts have distinct bytes. -/
theorem encode_injective {s t : String} (h : encode s = encode t) : s = t := by
  apply String.toByteArray_inj.mp
  exact ByteArray.ext (Array.toList_inj.mp h)

/-- Why a sequence of bytes is no character. -/
inductive Reason where
  | invalidStart
  | invalidContinuation
  | unexpectedEnd
  deriving DecidableEq, Repr

/-- The first range of bytes that is no text. -/
structure Fault where
  position : Nat
  length : Nat
  /-- The first byte of the range. -/
  byte : UInt8
  reason : Reason
  deriving DecidableEq, Repr

/-! ## The first fault -/

/-- What a leading byte asks of the bytes behind it: their number, and the range of the first. -/
def demand? (b : UInt8) : Option (Nat × UInt8 × UInt8) :=
  if b < 0x80 then some (0, 0x80, 0xbf)
  else if b < 0xc2 then none
  else if b < 0xe0 then some (1, 0x80, 0xbf)
  else if b = 0xe0 then some (2, 0xa0, 0xbf)
  else if b = 0xed then some (2, 0x80, 0x9f)
  else if b < 0xf0 then some (2, 0x80, 0xbf)
  else if b = 0xf0 then some (3, 0x90, 0xbf)
  else if b < 0xf4 then some (3, 0x80, 0xbf)
  else if b = 0xf4 then some (3, 0x80, 0x8f)
  else none

/-- How many of the `count` bytes asked for are there; the first must lie in the range given, the
    others are any continuation bytes.  The reason is that of the first byte that fails. -/
def continuation : Nat → UInt8 → UInt8 → Bytes → Nat × Option Reason
  | 0, _, _, _ => (0, none)
  | _ + 1, _, _, [] => (0, some .unexpectedEnd)
  | count + 1, low, high, b :: bs =>
    if low ≤ b ∧ b ≤ high then
      let (n, reason) := continuation count 0x80 0xbf bs
      (n + 1, reason)
    else (0, some .invalidContinuation)

/-- The first fault of bytes that start at `position`; `skip` bytes still belong to the character
    before them. -/
def faultFrom (position skip : Nat) : Bytes → Option Fault
  | [] => none
  | b :: bs =>
    match skip with
    | skip + 1 => faultFrom (position + 1) skip bs
    | 0 =>
      match demand? b with
      | none => some ⟨position, 1, b, .invalidStart⟩
      | some (count, low, high) =>
        match continuation count low high bs with
        | (n, some reason) => some ⟨position, n + 1, b, reason⟩
        | (n, none) => faultFrom (position + 1) n bs

/-- The first range that is no text. -/
def fault (bs : Bytes) : Fault :=
  (faultFrom 0 0 bs).getD ⟨0, bs.length, bs.headD 0, .invalidStart⟩

/-- The text that the bytes encode, or their first fault. -/
def decode (bs : Bytes) : Except Fault String :=
  let array : ByteArray := ⟨bs.toArray⟩
  if h : array.IsValidUTF8 then .ok (.ofByteArray array h) else .error (fault bs)

/-- Every text is read back from its bytes. -/
theorem decode_encode (s : String) : decode (encode s) = .ok s := by
  have h : (⟨(encode s).toArray⟩ : ByteArray) = s.toByteArray := by simp [encode]
  unfold decode
  simp only [h, s.isValidUTF8, dif_pos]

/-- What is read are the bytes of the text. -/
theorem encode_of_decode {bs : Bytes} {s : String} (h : decode bs = .ok s) : encode s = bs := by
  unfold decode at h
  dsimp only at h
  split at h
  · next valid =>
    obtain rfl := Except.ok.inj h
    rfl
  · cases h

/-! ## Clipping -/

/-- The characters that fit into `budget` bytes, and a replacement for one that is cut in two. -/
def clipChars : Nat → List Char → List Char
  | _, [] => []
  | budget, c :: cs =>
    if c.utf8Size ≤ budget then c :: clipChars (budget - c.utf8Size) cs
    else if budget = 0 then []
    else ['\ufffd']

/-- As much of a text as fits into `limit` bytes. -/
def clip (limit : Nat) (s : String) : String := String.ofList (clipChars limit s.toList)

/-- Characters that all fit are kept. -/
theorem clipChars_of_le {budget : Nat} {cs : List Char}
    (h : (String.ofList cs).utf8ByteSize ≤ budget) : clipChars budget cs = cs := by
  induction cs generalizing budget with
  | nil => rfl
  | cons c cs ih =>
    rw [String.ofList_cons, String.utf8ByteSize_append, String.utf8ByteSize_singleton] at h
    rw [clipChars, if_pos (by omega), ih (by omega)]

/-- A text that fits is kept. -/
theorem clip_of_le {limit : Nat} {s : String} (h : s.utf8ByteSize ≤ limit) : clip limit s = s := by
  rw [clip, clipChars_of_le (by simpa using h), String.ofList_toList]

example : fault [0x61, 0xe2, 0x82] = ⟨1, 2, 0xe2, .unexpectedEnd⟩ := by decide
example : fault [0xed, 0xa0, 0x80] = ⟨0, 1, 0xed, .invalidContinuation⟩ := by decide
example : clip 3 "aéé" = "aé" := by decide +kernel
example : clip 4 "aéé" = "aé\ufffd" := by decide +kernel

end Utf8

end Permits.Text
