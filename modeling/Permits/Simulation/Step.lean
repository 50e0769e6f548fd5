/-
  Steps — what a scripted session does, one step at a time.

  A step speaks of stores, semaphores, sources, registrars and slots by the names that earlier
  steps gave them.  Its arguments are terms.

  An **action** (`Action`) is a step that is a single operation, so it can be run in front or as a
  task; the other steps build things, look at them, or let time pass.
-/
import Permits.Registry
import Permits.Simulation.Source

namespace Permits.Simulation

/-! ## Parts of steps -/

/-- What a function does that a session registers. -/
inductive Behaviour where
  /-- Gives its arguments back. -/
  | echo
  | constant (result : Term)
  | failing (failure : Throw)

/-- The function that behaves so. -/
def Behaviour.command (slots : Slots) : Behaviour → Except Failure HostCommand
  | echo => .ok (.custom fun args => .ok (.list args))
  | constant result => do
    let v ← result.resolve slots
    return .custom fun _ => .ok v
  | failing failure => .ok (.custom fun _ => .fail (failure.resolve slots))

/-- What a store is reached through. -/
inductive Via where
  | executor
  | client
  /-- An executor and a client, of which the executor counts. -/
  | both
  /-- A client that the store builds itself. -/
  | default
  | url (url : Term) (options : List (String × Term))

/-- How a semaphore is made. -/
structure Making where
  style : Style
  store : Option String
  /-- The label of a client. -/
  client : Option String
  timeout : Option Term
  className : Option String

/-- What commands are registered on. -/
inductive RegistrarKind where
  | registry
  | host (refusal : Option (Nat × Throw))

/-! ## Steps -/

/-- A step that is a single operation. -/
inductive Action where
  | push (store : String) (name entry : Term)
  | blockingPop (store : String) (name timeout : Term)
  | length (store : String) (name : Term)
  | release (store : String) (name : Term)
  | acquire (store : String) (name duration : Term)
  | value (semaphore : String)
  | locked (semaphore : String)
  | acquirePermit (semaphore : String) (blocking timeout : Option Term)
  | releasePermits (semaphore : String) (count : Option Term)
  | enter (semaphore : String)
  | exit (semaphore : String)
  | call (registrar : String) (name : Term) (args : List Term)

/-- One step of a session. -/
inductive Step where
  | act (action : Action)
  | connect (id : String) (style : Style) (via : Via)
  | source (id : String) (script : Script)
  | draws (source : String)
  | create (id : String) (making : Making) (name : Term)
  | mint (id : String) (making : Making) (source : Option String) (value : Option Term)
  | name (semaphore : String)
  | showSemaphore (semaphore : String)
  | registrar (id : String) (kind : RegistrarKind)
  | register (registrar : String) (name : Term) (behaviour : Behaviour)
  | registerCommands (id store : String) (registrar source : Option String)
  | names (registrar : String)
  | showRegistrar (registrar : String)
  | contains (registrar : String) (name : Term)
  | advance (seconds : Term)
  /-- Start an action as a task, with a slot for its result. -/
  | spawn (id : String) (slot : Option String) (action : Action)
  /-- Run steps inside a semaphore's block, and fail at the end of them if told so. -/
  | within (semaphore : String) (body : List Step) (failure : Option Throw)
  /-- Keep the result of a step in a slot. -/
  | keep (slot : String) (step : Step)

instance : Inhabited Step := ⟨.names ""⟩

end Permits.Simulation
