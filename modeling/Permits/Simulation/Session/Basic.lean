/-
  Sessions — what a script has built so far.

  A session is the machine together with everything that steps have named (`Session`).  Sources,
  registrars and semaphores are shared: two names may stand for the same one.  A step ends in an
  **outcome**, and leaves an **answer**: the outcome and everything that happened during the step.
-/
import Permits.Call
import Permits.Semaphore.Mixed
import Permits.Simulation.Machine
import Permits.Simulation.Step

namespace Permits.Simulation

/-! ## What a session knows -/

/-- A semaphore that was made in a session. -/
structure Held where
  semaphore : Semaphore
  /-- How its callers wait. -/
  callers : Style
  /-- How many were made before it. -/
  number : Nat

namespace Held

/-- One of two ways to use a semaphore: where its callers wait as its store does, and where they do
    not. -/
def use {α : Type} (h : Held) (alike mixed : Semaphore → α) : α :=
  if h.callers = h.semaphore.store.style then alike h.semaphore else mixed h.semaphore

def toValue (h : Held) : Value := h.semaphore.toValue h.number

end Held

/-- The machine, and everything that steps have named. -/
structure Session where
  machine : Machine
  stores : List (String × ListStore) := []
  semaphores : List (String × Held) := []
  /-- The numbers of sources. -/
  sources : List (String × Nat) := []
  /-- The numbers of registrars. -/
  registrarNames : List (String × Nat) := []
  registrars : List Registrar := []

namespace Session

def store (s : Session) (id : String) : Except Failure ListStore := find s.stores id

def semaphore (s : Session) (id : String) : Except Failure Held := find s.semaphores id

def registrar (s : Session) (id : String) : Except Failure Registrar := do
  let number ← find s.registrarNames id
  match s.registrars[number]? with
  | some r => .ok r
  | none => .error (.missingKey (.text id))

/-- The source that a name stands for; no name stands for the randomness of the system. -/
def sourceRef (s : Session) : Option String → Except Failure SourceRef
  | none => .ok .system
  | some id => (find s.sources id).map .given

def resolve (s : Session) (t : Term) : Except Failure Value := t.resolve s.machine.slots

/-- The value of a term that may be absent. -/
def resolveOr (s : Session) (default : Value) : Option Term → Except Failure Value
  | none => .ok default
  | some t => s.resolve t

/-! ## Adding to it -/

/-- Adds a source under a name. -/
def addSource (s : Session) (id : String) (script : Script) : Session :=
  let machine := { s.machine with sources := s.machine.sources ++ [.ofScript script] }
  { s with sources := (id, s.machine.sources.length) :: s.sources, machine := machine }

/-- Adds a semaphore under a name. -/
def addSemaphore (s : Session) (id : String) (callers : Style) (semaphore : Semaphore) : Session :=
  { s with semaphores := (id, ⟨semaphore, callers, s.semaphores.length⟩) :: s.semaphores }

/-- Keeps a registrar at its number. -/
def putRegistrar (s : Session) (number : Nat) (r : Registrar) : Session :=
  { s with registrars := s.registrars.set number r }

/-- Adds a registrar under a name. -/
def addRegistrar (s : Session) (id : String) (r : Registrar) : Session :=
  { s with
    registrarNames := (id, s.registrars.length) :: s.registrarNames
    registrars := s.registrars ++ [r] }

end Session

/-! ## Outcomes and answers -/

/-- The outcome of a step and what happened during it, in order. -/
inductive Answer where
  | mk (result : Except Failure Value) (body : Option (List Answer)) (events : List Event)

/-- Something that is done with a session. -/
abbrev Turn := StateM Session

/-- The outcome of a step, and the answers of its body if it has one. -/
abbrev Outcome := Except Failure Value × Option (List Answer)

end Permits.Simulation
