/-
  Identifiers — the names that new semaphores get.

  An identifier is five segments of eight decimal digits joined by dashes.  Each digit is one draw
  from a random source, and the draws are used in order, so an identifier spells out its forty
  draws.  A source that fails is fatal: a name is never made up without it.

  Digits are drawn inside a generator, and whatever arises there leaves it (`Failure.leaving`): that
  a drawn value has no text, or that the source's own failure has none.
-/
import Permits.Op.Basic

namespace Permits.Identifier

def segmentLength : Nat := 8

def segmentCount : Nat := 5

def separator : String := "-"

/-- What the failure of a source is made into.  A failure that no program is expected to handle is
    left as it is; any other is told, unless its own text cannot be had. -/
def failed (f : Failure) : Failure :=
  if f.isOrdinary then
    match f.message with
    | .ok _ => .randomness f
    | .error unwritten => ((Failure.ofRefusal unwritten).whileHandling f).leaving .generator
  else f

/-- A drawn digit, or why there is none. -/
def drawn : Except Failure Value → Except Failure String
  | .ok digit =>
    match digit.displayed with
    | .ok text => .ok text
    | .error unwritten => .error ((Failure.ofRefusal unwritten).leaving .generator)
  | .error f => .error (failed f)

/-- No draw ends by a failure that is reserved for iteration. -/
theorem endsIteration_of_drawn {answer : Except Failure Value} {f : Failure}
    (h : drawn answer = .error f) : f.endsIteration = false := by
  unfold drawn at h
  split at h
  · split at h <;> cases h
    exact Failure.endsIteration_leaving ..
  · next e =>
    cases h
    unfold failed
    split
    · split
      · exact Failure.endsIteration_of_isOwn rfl
      · exact Failure.endsIteration_leaving ..
    · next exits =>
      -- What is reserved for iteration is an ordinary failure, which this one is not.
      exact Bool.eq_false_iff.mpr fun ends => exits (Failure.isOrdinary_of_endsIteration ends)

/-- One digit, drawn from 0 to 9. -/
def digit (source : SourceRef) : Op String := .askFor (.draw source 10) drawn

/-- One segment. -/
def segment (source : SourceRef) : Op String := do
  let digits ← (digit source).times segmentLength
  return String.join digits

/-- A whole identifier; nothing is written to a store. -/
def mint (source : SourceRef) : Op String := do
  let segments ← (segment source).times segmentCount
  return separator.intercalate segments

/-- A name is drawn in the same way whoever waits for it. -/
theorem coroutine_mint (source : SourceRef) : Op.coroutine (mint source) = mint source := by
  have digit : Op.coroutine (digit source) = digit source := by
    have same (a) : Style.awaited.received (drawn a) = drawn a :=
      Style.received_of_endsIteration (fun _ hf => endsIteration_of_drawn hf) _
    simp only [Identifier.digit, Op.coroutine_askFor, same]
  have segment : Op.coroutine (segment source) = segment source := by
    simp only [Identifier.segment, Op.coroutine_bind, Op.coroutine_times digit, Op.coroutine_pure]
  simp only [mint, Op.coroutine_bind, Op.coroutine_times segment, Op.coroutine_pure]

end Permits.Identifier
