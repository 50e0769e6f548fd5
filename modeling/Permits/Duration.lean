/-
  Durations — how long a caller is ready to wait, in seconds.

  A duration is a number, a span of time, text or bytes that write a number, or an object that
  converts to one; hosts hand their arguments over as text.  `Duration.seconds` gives the nearest
  binary64 number, which has to be finite.  A truth value is refused although it would count as a
  number elsewhere.

  What converting an object runs into is refused as a duration if it is a value error or a type
  error, and else it is what the caller gets.
-/
import Permits.Failure
import Permits.Number.Numeral

namespace Permits.Duration

open Number Text

/-- Bytes as characters, of which only those of ASCII can be part of a numeral. -/
def asciiChars (bs : Bytes) : List Char :=
  bs.map fun b => if b < 0x80 then Char.ofNat b.toNat else '\ufffd'

/-- The number that a text writes. -/
def ofText (s : String) : Except Failure Double :=
  match Double.ofText? s with
  | some x => .ok x
  | none => .error (.durationText (.text s))

/-- What the caller gets where converting an object runs into a refusal. -/
def unconverted (o : Object) (r : Refusal) : Failure :=
  if r.kind.isA "ValueError" then
    match o.text with
    | .ok _ => .durationText (.other o)
    | .error unwritten => (Failure.ofRefusal unwritten).whileHandling (.ofRefusal r)
  else if r.kind.isA "TypeError" then .durationType o.type
  else .ofRefusal r

/-- The number that an object converts to. -/
def ofObject (o : Object) : Except Failure Double :=
  match o.number with
  | some (.ok x) => .ok x
  | some (.error r) => .error (unconverted o r)
  | none => .error (.durationType o.type)

/-- The number that a duration stands for, before it is known to be finite. -/
def number : Value → Except Failure Double
  | .span s => .ok (.ofIntRatio s.totalMicroseconds 1000000)
  | .bool _ => .error .durationFlag
  | .float x => .ok x
  | .int n =>
    let x := Double.ofInt n
    if x.isFinite then .ok x else .error .durationTooLarge
  | .text s => ofText s
  | .bytes bs =>
    match Utf8.decode bs with
    | .ok s => ofText s
    | .error fault => .error (.undecodable fault)
  | .byteArray bs =>
    match Double.ofChars? (asciiChars bs) with
    | some x => .ok x
    | none => .error (.durationText (.byteArray bs))
  | .other o => ofObject o
  | v => .error (.durationType v.typeName)

theorem number_int (n : Int) : number (.int n) =
    if (Double.ofInt n).isFinite then .ok (.ofInt n) else .error .durationTooLarge := rfl

theorem number_bytes (bs : Bytes) : number (.bytes bs) =
    match Utf8.decode bs with
    | .ok s => ofText s
    | .error fault => .error (.undecodable fault) := rfl

/-- The duration in seconds, a finite number. -/
def seconds (duration : Value) : Except Failure Double := do
  let x ← number duration
  if x.isFinite then .ok x else .error (.durationUnbounded x)

/-- Seconds are the number that a duration stands for, if that is finite. -/
theorem seconds_eq_ok_iff {duration : Value} {x : Double} :
    seconds duration = .ok x ↔ number duration = .ok x ∧ x.isFinite = true := by
  rw [seconds]
  cases number duration with
  | error f => exact iff_of_false (fun h => nomatch h) fun h => nomatch h.1
  | ok y =>
    show (if y.isFinite then Except.ok y else .error (Failure.durationUnbounded y)) = .ok x ↔ _
    split
    · next finite =>
      refine ⟨fun h => ⟨h, ?_⟩, fun h => h.1⟩
      obtain rfl := Except.ok.inj h
      exact finite
    · next infinite =>
      refine iff_of_false (fun h => nomatch h) fun ⟨h, finite⟩ => ?_
      obtain rfl := Except.ok.inj h
      exact infinite finite

/-- An integer is a number of seconds exactly if it is not rounded to infinity. -/
theorem seconds_int_eq_ok_iff {n : Int} {x : Double} :
    seconds (.int n) = .ok x ↔ Double.ofInt n = x ∧ x.isFinite = true := by
  rw [seconds_eq_ok_iff, number_int]
  split
  · exact and_congr_left fun _ => ⟨Except.ok.inj, congrArg _⟩
  · next infinite =>
    refine iff_of_false (fun h => nomatch h.1) fun ⟨h, finite⟩ => ?_
    rw [h] at infinite
    exact infinite finite

/-- A text is a number of seconds exactly if it writes one that is finite. -/
theorem seconds_text_eq_ok_iff {s : String} {x : Double} :
    seconds (.text s) = .ok x ↔ Double.ofText? s = some x ∧ x.isFinite = true := by
  have written : number (.text s) = .ok x ↔ Double.ofText? s = some x := by
    show ofText s = .ok x ↔ _
    rw [ofText]
    cases Double.ofText? s with
    | none => exact iff_of_false (fun h => nomatch h) fun h => nomatch h
    | some y => exact ⟨fun h => congrArg some (Except.ok.inj h), fun h => congrArg _ (Option.some.inj h)⟩
  rw [seconds_eq_ok_iff, written]

theorem isFinite_of_seconds {duration : Value} {x : Double} (h : seconds duration = .ok x) :
    x.isFinite = true :=
  (seconds_eq_ok_iff.mp h).2

/-- A finite number stands for itself. -/
theorem seconds_float {x : Double} (h : x.isFinite = true) : seconds (.float x) = .ok x :=
  if_pos h

/-- No duration at all. -/
theorem seconds_zero : seconds (.int 0) = .ok .zero := by
  have zero : Double.ofInt 0 = .zero := by decide +kernel
  exact seconds_int_eq_ok_iff.mpr ⟨zero, rfl⟩

/-- The duration in seconds together with the fact that they are finite. -/
def finiteSeconds (duration : Value) : Except Failure { x : Double // x.isFinite = true } :=
  match h : seconds duration with
  | .ok x => .ok ⟨x, isFinite_of_seconds h⟩
  | .error f => .error f

/-- Seconds are found together with the fact that they are finite. -/
theorem finiteSeconds_of_seconds {duration : Value} {x : Double} (h : seconds duration = .ok x) :
    finiteSeconds duration = .ok ⟨x, isFinite_of_seconds h⟩ := by
  rw [finiteSeconds]
  split
  · next y hy =>
    obtain rfl := Except.ok.inj (hy.symm.trans h)
    rfl
  · next f hf => cases hf.symm.trans h

theorem finiteSeconds_error {d : Value} {f : Failure} (h : seconds d = .error f) :
    finiteSeconds d = .error f := by
  rw [finiteSeconds]
  split
  · next hx => exact nomatch hx.symm.trans h
  · next hg => rw [Except.error.inj (hg.symm.trans h)]

end Permits.Duration
