/-
  Running sessions — steps one after the other, blocks with their bodies, and the report.

  1. **Answers** (`answered`): a step answers in place, also when it fails, and the session goes on.
     Tasks that were served during a step run at its end and belong to it.
  2. **Blocks** (`block`): the steps of a body run between entering and leaving; a body that is told
     to fail does so after its last step.
  3. **`Session.run`**: a whole session and its report.
-/
import Permits.Simulation.Session.Single

namespace Permits.Simulation.Session

open Number

/-- Runs a step and collects its answer: tasks that it served run at its end, and everything that
    happened belongs to it. -/
def answered (step : Turn Outcome) : Turn Answer := fun s =>
  let before := s.machine.events.length
  let ((result, body), s) := step s
  let s := { s with machine := s.machine.runWoken }
  let events := (s.machine.events.take (s.machine.events.length - before)).reverse
  (.mk result body events, s)

/-- Runs the body of a block and collects its answers; the block's own failure comes after it. -/
def blockBody (body : Turn (List Answer)) (failure : Option Throw) :
    StateT (List Answer) Turn (Except Failure Unit) := do
  let answers ← StateT.lift body
  set answers
  let s ← StateT.lift get
  match failure with
  | some t => return .error (t.resolve s.machine.slots)
  | none => return .ok ()

/-- A block with a body: its outcome, and the answers of the steps that ran.  The block of awaited
    callers is awaited as a whole. -/
def block (id : String) (body : Turn (List Answer)) (failure : Option Throw) : Turn Outcome := do
  match (← get).semaphore id with
  | .error f => return (.error f, none)
  | .ok held =>
    let front (op : Op Unit) := StateT.lift (perform op)
    let (result, answers) ← (Semaphore.block
      (front (held.use Semaphore.enter Semaphore.Mixed.enter))
      (front (held.use Semaphore.exit Semaphore.Mixed.exit))
      (blockBody body failure)).run []
    return (held.callers.received (result.map fun _ => .bool true), some answers)

/-- Keeps the result of a step in a slot. -/
def keep (slot : String) (step : Turn Outcome) : Turn Outcome := do
  let (result, body) ← step
  modify fun s => { s with machine := s.machine.keep slot result }
  return (result, body)

mutual

/-- Runs a step. -/
def execute : Step → Turn Outcome
  | .within id body failure => block id (executeAll body) failure
  | .keep slot step => keep slot (execute step)
  | step => do return (← single step, none)

/-- Runs steps one after the other. -/
def executeAll : List Step → Turn (List Answer)
  | [] => return []
  | step :: steps => do
    let a ← answered (execute step)
    let as ← executeAll steps
    return a :: as

end

/-! ## Whole sessions -/

/-- What a session leaves behind. -/
structure Report where
  answers : List Answer
  lists : List (Text.Bytes × List Text.Bytes)
  clock : Double
  /-- Tasks that still wait, in the order in which they began. -/
  pending : List String

/-- Runs a whole session on an empty store, with replies fixed for some of its calls. -/
def run (system : Source) (fixed : List (Nat × Item)) (steps : List Step) : Report :=
  let start : Session := { machine := { system := system, fixed := fixed } }
  let (answers, s) := executeAll steps start
  ⟨answers, s.machine.lists.toList, s.machine.clock, s.machine.tasks.map (·.id)⟩

end Permits.Simulation.Session
