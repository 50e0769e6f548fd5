/-
  Scripted random sources.

  A script says what every draw answers; the source counts the draws and keeps the bound that each
  of them asked for.  A draw that fails counts as well.
-/
import Permits.Simulation.Term

namespace Permits.Simulation

/-- What the draws of a source answer; draws are counted from zero. -/
inductive Script where
  /-- The items over and over again. -/
  | cycle (items : List Item)
  /-- The items once, and failures after that. -/
  | sequence (items : List Item)
  /-- The number of the draw divided by `divisor` and rounded down, below the bound. -/
  | quotient (divisor : Int)
  /-- The upper bits of a linear congruence modulo 2³¹, below the bound. -/
  | congruence (state : Int)
  deriving Inhabited

/-- A source of random draws. -/
structure Source where
  script : Script
  /-- How many draws were made so far. -/
  drawn : Nat
  /-- The bounds that they asked for, the latest first. -/
  bounds : List Nat
  length_bounds : bounds.length = drawn

namespace Source

/-- A source before its first draw. -/
def ofScript (script : Script) : Source := ⟨script, 0, [], rfl⟩

instance : Inhabited Source := ⟨ofScript default⟩

/-- The failure of a source that has no items left. -/
def exhausted : Failure := .ofRefusal ⟨.of "RuntimeError", "sequence exhausted"⟩

/-- The failure of a source whose script divides by zero. -/
def divided (message : String) : Failure := .ofRefusal ⟨.of "ZeroDivisionError", message⟩

/-- The bounds of all draws so far, in order. -/
def stops (s : Source) : List Nat := s.bounds.reverse

/-- The next state of the congruence. -/
def nextState (state : Int) : Int := (state * 1103515245 + 12345) % 2147483648

/-- The answer to the next draw, and the script that is left. -/
def answer (s : Source) (slots : Slots) (stop : Nat) : Except Failure Value × Script :=
  match s.script with
  | .cycle items =>
    match items[s.drawn % items.length]? with
    | some item => (item.resolve slots, s.script)
    | none => (.error (divided "integer modulo by zero"), s.script)
  | .sequence items =>
    match items[s.drawn]? with
    | some item => (item.resolve slots, s.script)
    | none => (.error exhausted, s.script)
  | .quotient divisor =>
    if divisor = 0 then (.error (divided "integer division or modulo by zero"), s.script)
    else (.ok (.int (Int.fdiv s.drawn divisor % stop)), s.script)
  | .congruence state =>
    let state := nextState state
    (.ok (.int (state / 65536 % stop)), .congruence state)

/-- One draw below `stop`. -/
def draw (s : Source) (slots : Slots) (stop : Nat) : Except Failure Value × Source :=
  let (answer, script) := s.answer slots stop
  (answer, ⟨script, s.drawn + 1, stop :: s.bounds, congrArg (· + 1) s.length_bounds⟩)

end Source

end Permits.Simulation
