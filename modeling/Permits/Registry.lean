/-
  Registries — semaphore operations as named commands of a host.

  1. **Commands** (`HostCommand`): the three commands of a semaphore store, and whatever else a
     host has.  A command checks its arguments itself; the three take none, a name, and a name with
     a duration.
  2. **A local registry** (`Registry`) stands in where there is no host.  It keeps the order of
     registration, and a name is bound once and for all.
  3. **A host** (`Host`) has a registry of its own: a later binding replaces an earlier one, it may
     refuse to register at all, and it remembers every name that it did not refuse.
  4. **Registering** (`Registrar.registerAll`): the three commands one after the other, up to the
     first that is refused.  **Offering** them (`Registrar.offer`) leaves a record when all went well.
-/
import Permits.Permit
import Permits.Identifier

namespace Permits

/-! ## Commands -/

def newCommand : String := "sema/new"

def incCommand : String := "sema/inc"

def decCommand : String := "sema/dec"

/-- A function that a host calls by name. -/
inductive HostCommand where
  /-- Mints a name. -/
  | new (source : SourceRef)
  /-- Releases a permit. -/
  | inc (store : ListStore)
  /-- Acquires a permit. -/
  | dec (store : ListStore)
  /-- Any other function. -/
  | custom (run : List Value → Op Value)

namespace HostCommand

/-- Is the command's result there at once, or has it to be awaited? -/
def style : HostCommand → Style
  | new _ | custom _ => .direct
  | inc store | dec store => store.style

/-- Runs the command with arguments. -/
def run : HostCommand → List Value → Op Value
  | new source, [] => do
    let name ← Identifier.mint source
    return .text name
  | inc store, [name] =>
    match store.style with
    | .direct => Direct.release store (Name.check name)
    | .awaited => .coroutine (Awaited.release store (Name.check name))
  | dec store, [name, duration] =>
    match store.style with
    | .direct => Direct.acquire store (Name.check name) duration
    | .awaited => .coroutine (Awaited.acquire store (Name.check name) duration)
  | custom run, args => run args
  | _, _ => .fail .wrongArguments

/-- A command that releases is the release itself. -/
theorem run_inc (store : ListStore) (name : Value) :
    (inc store).run [name] = .named name (release store) := by
  rw [← releaseTo_check]
  simp only [run, releaseTo]
  cases store.style with
  | direct => rfl
  | awaited => exact Op.coroutine_coroutine _

/-- A command that acquires is the acquire itself. -/
theorem run_dec (store : ListStore) (name duration : Value) :
    (dec store).run [name, duration] = acquireNamed store name duration := by
  simp only [run, acquireNamed, acquireFrom]
  cases store.style with
  | direct => rfl
  | awaited => exact Op.coroutine_coroutine _

end HostCommand

/-- The three commands of a store, in the order in which they are registered. -/
def semaphoreCommands (store : ListStore) (source : SourceRef) : List (Value × HostCommand) :=
  [(.text newCommand, .new source), (.text incCommand, .inc store), (.text decCommand, .dec store)]

/-- The command that a name is bound to in a table; a value that cannot be a key is refused. -/
def lookup (table : List (Value × HostCommand)) (name : Value) :
    Except Failure (Option HostCommand) :=
  match name.keyFault? with
  | some type => .error (.unhashable type)
  | none => .ok ((table.find? fun entry => entry.1.sameKey name).map (·.2))

/-! ## Local registries -/

/-- Commands by name, in order of registration. -/
structure Registry where
  table : List (Value × HostCommand) := []

namespace Registry

def names (r : Registry) : List Value := r.table.map (·.1)

def contains (r : Registry) (name : Value) : Except Failure Bool := do
  let found ← lookup r.table name
  return found.isSome

/-- Binds a name that is not bound yet.  A name that is bound is told; what cannot be written cannot
    be told either, and fails with the reason. -/
def register (r : Registry) (name : Value) (command : HostCommand) : Except Failure Registry := do
  if ← r.contains name then .error (Failure.alreadyRegistered name).told
  else .ok ⟨r.table ++ [(name, command)]⟩

/-- The command that a name is bound to. -/
def command (r : Registry) (name : Value) : Except Failure HostCommand := do
  match ← lookup r.table name with
  | some c => .ok c
  | none => .error (.unknownCommand name)

def shown (r : Registry) : Except Refusal String := do
  return "<LocalCommandRegistry commands=" ++ (← (Value.list r.names).shown) ++ ">"

end Registry

/-! ## Hosts -/

/-- A host's registry. -/
structure Host where
  /-- Every registration, in order. -/
  names : List Value := []
  /-- The bindings, the latest first. -/
  table : List (Value × HostCommand) := []
  /-- After how many registrations the host refuses, and with which failure. -/
  refusal : Option (Nat × Failure) := none

namespace Host

def contains (h : Host) (name : Value) : Except Failure Bool := do
  let found ← lookup h.table name
  return found.isSome

/-- Is it time to refuse? -/
def refuses (h : Host) : Option Failure :=
  match h.refusal with
  | some (count, failure) => if h.names.length = count then some failure else none
  | none => none

/-- Binds a name unless the host refuses.  A value that cannot be a key is remembered, but nothing
    is bound to it. -/
def register (h : Host) (name : Value) (command : HostCommand) : Except Failure Unit × Host :=
  match h.refuses with
  | some failure => (.error failure, h)
  | none =>
    let h := { h with names := h.names ++ [name] }
    match lookup h.table name with
    | .error failure => (.error failure, h)
    | .ok _ => (.ok (), { h with table := (name, command) :: h.table })

def command (h : Host) (name : Value) : Except Failure HostCommand := do
  match ← lookup h.table name with
  | some c => .ok c
  | none => .error (.missingKey name)

def shown (_ : Host) : String := "<Host>"

end Host

/-! ## Registrars -/

/-- Where commands are registered. -/
inductive Registrar where
  | registry (r : Registry)
  | host (h : Host)

namespace Registrar

def names : Registrar → List Value
  | registry r => r.names
  | host h => h.names

def contains : Registrar → Value → Except Failure Bool
  | registry r => r.contains
  | host h => h.contains

def command : Registrar → Value → Except Failure HostCommand
  | registry r => r.command
  | host h => h.command

/-- Registers a command; a registrar that fails may have changed all the same. -/
def register (r : Registrar) (name : Value) (command : HostCommand) :
    Except Failure Unit × Registrar :=
  match r with
  | registry r =>
    match r.register name command with
    | .ok r => (.ok (), registry r)
    | .error failure => (.error failure, registry r)
  | host h =>
    let (result, h) := h.register name command
    (result, host h)

def shown : Registrar → Except Refusal String
  | registry r => r.shown
  | host h => .ok h.shown

/-- Registers commands one after the other, up to the first that is refused; those before it stay
    registered. -/
def registerAll (r : Registrar) : List (Value × HostCommand) → Except Failure Unit × Registrar
  | [] => (.ok (), r)
  | (name, command) :: rest =>
    match r.register name command with
    | (.ok (), r) => r.registerAll rest
    | (.error f, r) => (.error f, r)

/-- Registers commands and tells the log, unless the registrar refuses one of them. -/
def offer (r : Registrar) (commands : List (Value × HostCommand)) :
    Op (Except Failure Unit × Registrar) :=
  match r.registerAll commands with
  | (.ok (), r) => do
    .log (.registered r.shown)
    return (.ok (), r)
  | (.error f, r) => return (.error f, r)

/-- Calls a command by name. -/
def call (r : Registrar) (name : Value) (args : List Value) : Op Value := do
  let command ← .ofExcept (r.command name)
  command.run args

end Registrar

end Permits
