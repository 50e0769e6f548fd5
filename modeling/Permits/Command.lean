/-
  Commands — what a store is asked to do, and by whom.

  1. **A command** (`Command`) acts on one list: push, pop, pop with a wait, and length.
  2. **An executor** runs commands for callers of one style.  A **direct** caller waits for the
     reply on the spot.  An **awaited** one is suspended while its command runs, and a failure that
     is reserved for the end of an iteration cannot leave what was awaited: it arrives as
     `Failure.stopped` (`Style.raised`).
-/
import Permits.Name.Check

namespace Permits

open Number

/-! ## Callers and executors -/

/-- How a caller waits for the answer to a command. -/
inductive Style where
  | direct
  | awaited
  deriving DecidableEq, Repr, Inhabited

/-- A failure of something that was waited for, as it reaches the caller. -/
def Style.raised : Style → Failure → Failure
  | .direct, f => f
  | .awaited, f => f.leaving .coroutine

/-- The end of something that was waited for, as it reaches the caller. -/
def Style.received {α : Type} (s : Style) : Except Failure α → Except Failure α
  | .ok a => .ok a
  | .error f => .error (s.raised f)

/-- On the spot, everything reaches the caller as it is. -/
@[simp] theorem Style.received_direct {α : Type} (r : Except Failure α) :
    Style.direct.received r = r := by
  cases r <;> rfl

@[simp] theorem Style.received_received {α : Type} (s : Style) (r : Except Failure α) :
    s.received (s.received r) = s.received r := by
  cases s with
  | direct => rw [received_direct]
  | awaited =>
    cases r with
    | ok a => rfl
    | error f => exact congrArg Except.error (f.leaving_leaving ..)

/-- What is not reserved for iteration reaches every caller as it is. -/
theorem Style.received_of_endsIteration {α : Type} {r : Except Failure α}
    (h : ∀ f, r = .error f → f.endsIteration = false) (s : Style) : s.received r = r := by
  cases r with
  | ok a => rfl
  | error f =>
    cases s with
    | direct => rfl
    | awaited => exact congrArg Except.error (Failure.leaving_of_endsIteration (h f rfl))

/-- What runs commands, known by a label. -/
structure Executor where
  label : String
  style : Style
  deriving DecidableEq, Repr, Inhabited

def Executor.shown (e : Executor) : String := "<exec " ++ e.label ++ ">"

/-! ## Commands -/

/-- A command on one list. -/
inductive Command where
  /-- Append an entry; the reply acknowledges it. -/
  | push (name : Name) (entry : Value)
  /-- Take the oldest entry, waiting for one up to some seconds. -/
  | blockingPop (name : Name) (seconds : Double)
  /-- Take the oldest entry if there is one. -/
  | pop (name : Name)
  | length (name : Name)
  deriving Repr, Inhabited

namespace Command

/-- The word that a store knows the command by. -/
def word : Command → String
  | push .. => "RPUSH"
  | blockingPop .. => "BLPOP"
  | pop _ => "LPOP"
  | length _ => "LLEN"

def name : Command → Name
  | push name _ | blockingPop name _ | pop name | length name => name

/-- The arguments behind the word. -/
def arguments : Command → List Value
  | push name entry => [name.toValue, entry]
  | blockingPop name seconds => [name.toValue, .float seconds]
  | pop name | length name => [name.toValue]

end Command

end Permits
