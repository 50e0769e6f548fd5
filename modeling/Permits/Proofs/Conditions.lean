/-
  Conditions — what callers can rely on.

  1. **Replies** (`Command.Answers`): the form in which a store of lists answers a command.  A pop is
     answered by the oldest entry (`Command.handing`) or by nothing.
  2. **Timers** (`Timer`): clock readings with which a timer never fails.
  3. **Conditions** (`Conditions`): a timer, and the failures that calls may be answered with in place
     of a reply.  `Conditions.Admits` are the answers that they allow.
  4. **Pops** (`Conditions.Popped`): the three ways in which a pop ends.
-/
import Permits.Lists.Execute
import Permits.Permit

namespace Permits

open Number Text

/-! ## Replies -/

namespace Command

/-- The pop that waits up to some seconds: without seconds to wait it only polls. -/
def popFor (name : Name) (seconds : Double) : Command :=
  if seconds.le .zero then .pop name else .blockingPop name seconds

/-- The reply to a pop that got an entry. -/
def handing : Command → Bytes → Value
  | blockingPop name _, entry => Lists.pair name.key entry
  | _, entry => .bytes entry

/-- Is a value of the form in which a store of lists replies to a command? -/
def Answers : Command → Value → Prop
  | push .., v | length _, v => ∃ n : Nat, v = .int n
  | pop name, v => v = .none ∨ ∃ entry, v = (pop name).handing entry
  | blockingPop name seconds, v =>
    v = .none ∨ ∃ entry, v = (blockingPop name seconds).handing entry

end Command

/-! ## Timers and conditions -/

/-- Clock readings with which a timer never fails: it counts as started at each of them, and the
    time between any two can be told in milliseconds. -/
structure Timer where
  reads : Double → Prop
  started : ∀ {t}, reads t → t.isZero = false
  measured : ∀ {s t}, reads s → reads t → ∃ n, elapsed s t = .ok n

/-- The timer of a clock that stands still. -/
def Timer.still : Timer where
  reads t := t = .finite false 1
  started := by
    rintro t rfl
    rfl
  measured := by
    rintro s t rfl rfl
    have told : (elapsed (.finite false 1) (.finite false 1)).toBool = true := by decide +kernel
    cases h : elapsed (.finite false 1) (.finite false 1) with
    | ok n => exact ⟨n, rfl⟩
    | error f => rw [h] at told; cases told

/-- A timer, and what a store may raise in place of a reply. -/
structure Conditions extends Timer where
  raises : Failure → Prop

namespace Conditions

/-- The clock stands still, and no call fails. -/
def still : Conditions := ⟨.still, fun _ => False⟩

/-- The answers that the conditions allow. -/
def Admits (k : Conditions) : (r : Request) → r.Answer → Prop
  | .command _ c, .ok v => c.Answers v
  | .command .., .error f => k.raises f
  | .clock, t => k.reads t
  | .log _, _ | .draw .., _ | .connect _, _ => True

/-- Does no call fail? -/
def Calm (k : Conditions) : Prop := ∀ f, ¬k.raises f

/-- The ways in which a pop ends: the answer to its command, and what its caller gets. -/
inductive Popped (k : Conditions) (style : Style) (c : Command) :
    Except Failure Value → Except Failure Value → Prop where
  | entry (e : Bytes) : Popped k style c (.ok (c.handing e)) (.ok (.bytes e))
  | nothing : Popped k style c (.ok .none) (.ok .none)
  | raised {f : Failure} (h : k.raises f) : Popped k style c (.error f) (.error (style.raised f))

end Conditions

end Permits
