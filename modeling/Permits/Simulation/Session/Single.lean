/-
  Single steps — every step of a session that has no body.

  1. **Running** (`perform`): an operation of the caller in front, on the session's machine.
  2. **Building**: stores, semaphores, registrars and sources get names.
  3. **Looking** (`look`): an answer that changes nothing.
  4. **`single`** runs a step without a body.
-/
import Permits.Simulation.Session.Action

namespace Permits.Simulation.Session

open Number

/-- Runs an operation in front. -/
def perform {α : Type} (op : Op α) : Turn (Except Failure α) := fun s =>
  let (result, machine) := s.machine.perform op
  (result, { s with machine := machine })

/-- Runs an operation in front and keeps its result in the session. -/
def performThen {α : Type} (op : Op α) (keep : α → Session → Session) (answer : α → Value) :
    Turn (Except Failure Value) := do
  match ← perform op with
  | .ok a =>
    modify (keep a)
    return .ok (answer a)
  | .error f => return .error f

/-- An answer that changes nothing. -/
def look (answer : Session → Except Failure Value) : Turn (Except Failure Value) := do
  return answer (← get)

/-- A change without an answer, unless it fails. -/
def change (result : Except Failure Session) : Turn (Except Failure Value) :=
  match result with
  | .ok s => do
    set s
    return .ok .none
  | .error f => return .error f

/-- The options of a client, in order. -/
def resolveOptions (s : Session) :
    List (String × Term) → Except Failure (List (String × Value))
  | [] => .ok []
  | (key, t) :: rest => do
    let v ← s.resolve t
    let rest ← s.resolveOptions rest
    return (key, v) :: rest

/-- Builds the handle on a store. -/
def connect (s : Session) (id : String) (style : Style) : Via → Op ListStore
  | .executor => ListStore.connect style (some ⟨id, style⟩) none
  | .client => ListStore.connect style none (some ⟨id ++ "-client", style⟩)
  | .both => ListStore.connect style (some ⟨id, style⟩) (some ⟨id ++ "-client", style⟩)
  | .default => ListStore.connect style none none
  | .url url options => do
    let url ← .ofExcept (s.resolve url)
    let options ← .ofExcept (s.resolveOptions options)
    ListStore.ofUrl style url options

/-- The name of a class; it must not hold the character that ends a name. -/
def classNameOf (name : String) : Except Failure String :=
  if name.contains '\x00' then
    .error (.ofRefusal (.ofValue "type name must not contain null characters"))
  else .ok name

/-- What a semaphore is made with. -/
def options (s : Session) (making : Making) : Except Failure Semaphore.Options := do
  let className ← making.className.mapM classNameOf
  let store ← making.store.mapM s.store
  let timeout ← making.timeout.mapM s.resolve
  return ⟨making.style, store, making.client.map fun label => ⟨label, making.style⟩, timeout,
    className⟩

/-- Keeps a new semaphore under a name and answers it. -/
def keepSemaphore (id : String) (callers : Style) (op : Op Semaphore) :
    Turn (Except Failure Value) := do
  let number := (← get).semaphores.length
  performThen op (fun m s => s.addSemaphore id callers m) fun m => m.toValue number

/-- Makes a semaphore for a name. -/
def create (s : Session) (making : Making) (name : Term) : Op Semaphore := do
  let options ← .ofExcept (s.options making)
  let name ← .ofExcept (s.resolve name)
  (Call.create options name).op

/-- Makes a semaphore with a fresh name. -/
def mint (s : Session) (making : Making) (source : Option String) (value : Option Term) :
    Op Semaphore := do
  let options ← .ofExcept (s.options making)
  let source ← .ofExcept (s.sourceRef source)
  let value ← .ofExcept (s.resolveOr (.int 0) value)
  (Call.mint options source value).op

/-- Registers one function. -/
def register (id : String) (name : Term) (behaviour : Behaviour) : Turn (Except Failure Value) := do
  let s ← get
  let parts := do
    let number ← find s.registrarNames id
    let r ← s.registrar id
    let name ← s.resolve name
    let command ← behaviour.command s.machine.slots
    return (number, r.register name command)
  match parts with
  | .ok (number, (result, r)) =>
    set (s.putRegistrar number r)
    return result.map fun _ => .none
  | .error f => return .error f

/-- Registers the three commands of a store on a registrar, or on a new local registry, and names
    it.  The answer tells whether it is the registrar that was given. -/
def registerCommands (id store : String) (given source : Option String) : Turn (Except Failure Value) := do
  let s ← get
  let (number, s) ← match given with
    | some name => pure (find s.registrarNames name, s)
    | none => pure (.ok s.registrars.length, { s with registrars := s.registrars ++ [.registry {}] })
  let parts := do
    let number ← number
    let store ← s.store store
    let source ← s.sourceRef source
    return (number, store, source)
  match parts with
  | .error f => return .error f
  | .ok (number, store, source) =>
    set s
    let r := (s.registrars[number]?).getD (.registry {})
    match ← perform (Call.register r store source).op with
    | .error f => return .error f
    | .ok (result, r) =>
      modify (·.putRegistrar number r)
      match result with
      | .error f => return .error f
      | .ok () =>
        modify fun s => { s with registrarNames := (id, number) :: s.registrarNames }
        return (Failure.orRefusal r.shown).map fun text => .list [.text text, .bool given.isSome]

/-- The failure to add something to the clock that is no number. -/
def notAddable (v : Value) : Failure :=
  .ofRefusal (.ofType ("unsupported operand type(s) for +: 'float' and " ++
    Refusal.quotedType 100 v.qualifiedTypeName))

/-- A number of seconds. -/
def secondsOf : Value → Except Failure Double
  | .float x => .ok x
  | v =>
    match v.asInt? with
    | some n =>
      let x := Double.ofInt n
      if x.isFinite then .ok x else .error .durationTooLarge
    | none => .error (notAddable v)

/-- Lets the clock run. -/
def advance (s : Session) (seconds : Term) : Except Failure Session := do
  let v ← s.resolve seconds
  let seconds ← secondsOf v
  return { s with machine := s.machine.advance seconds }

/-- Starts an action as a task; the answer tells whether it has ended. -/
def spawn (id : String) (slot : Option String) (action : Action) : Turn (Except Failure Value) :=
  fun s =>
    let (ended, machine) := s.machine.spawn id slot (action.op s)
    (.ok (.bool ended), { s with machine := machine })

/-- The names of a registrar: a local registry gives a tuple, and a host the list that it keeps. -/
def names : Registrar → Value
  | .registry r => .tuple r.names
  | .host h => .list h.names

/-- Runs a step without a body. -/
def single (step : Step) : Turn (Except Failure Value) := do
  let s ← get
  match step with
  | .act action => perform (action.op s)
  | .connect id style via =>
    performThen (s.connect id style via)
      (fun store s => { s with stores := (id, store) :: s.stores })
      fun store => .text store.shown
  | .source id script => change (.ok (s.addSource id script))
  | .draws id => look fun s => do
    let number ← find s.sources id
    let stops := ((s.machine.sources[number]?).map (·.stops)).getD []
    return .list (stops.map fun n : Nat => .int n)
  | .create id making name => keepSemaphore id making.style (s.create making name)
  | .mint id making source value => keepSemaphore id making.style (s.mint making source value)
  | .name id => look fun s => do return (← s.semaphore id).semaphore.name.toValue
  | .showSemaphore id => look fun s => do
    let held ← s.semaphore id
    return .text (← Failure.orRefusal held.toValue.shown)
  | .registrar id kind =>
    let r := match kind with
      | .registry => Registrar.registry {}
      | .host refusal => .host { refusal := refusal.map fun (n, t) => (n, t.resolve s.machine.slots) }
    change (.ok (s.addRegistrar id r))
  | .register id name behaviour => register id name behaviour
  | .registerCommands id store given source => registerCommands id store given source
  | .names id => look fun s => do return names (← s.registrar id)
  | .showRegistrar id => look fun s => do
    let r ← s.registrar id
    return .text (← Failure.orRefusal r.shown)
  | .contains id name => look fun s => do
    let r ← s.registrar id
    let name ← s.resolve name
    return .bool (← r.contains name)
  | .advance seconds => change (s.advance seconds)
  | .spawn id slot action => spawn id slot action
  | .within .. | .keep .. => return .ok .none

end Permits.Simulation.Session
