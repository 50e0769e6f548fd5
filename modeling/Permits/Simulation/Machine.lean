/-
  The machine — one store, one clock, and callers that take turns.

  1. **What it holds** (`Machine`): lists with the pops that wait on them, a clock that only moves
     when somebody waits, replies that are fixed beforehand for some of the calls, random sources,
     slots in which results are kept, and a list of everything that happened.
  2. **Answers** (`answer`): every request is answered at once, except a blocking pop on an empty
     list.
  3. **A caller in front** (`perform`) waits by letting the clock run, and gets nothing at the end.
  4. **A task** (`spawn`) waits in the background, as the operation that is left of it.  It goes on
     when a push serves it or when its deadline passes.
  5. **Time** (`advance`): deadlines pass in order; whoever's deadline passes gets nothing and runs
     on before the next.
-/
import Permits.Lists.Execute
import Permits.Op.Run
import Permits.Semaphore
import Permits.Simulation.Source

namespace Permits.Simulation

open Number Text

/-- Something that happened. -/
inductive Event where
  | called (executor : Executor) (command : Command)
  | connected (connection : Connection)
  | logged (record : Record)
  /-- A task came to its end. -/
  | ended (id : String) (result : Except Failure Value)

/-- A caller in the background: what is left of it waits for the entry that its ticket stands for. -/
structure Task where
  ticket : Nat
  id : String
  /-- The slot that keeps its result. -/
  slot : Option String
  rest : Op Value

/-- One store, one clock, and callers that take turns. -/
structure Machine where
  lists : Lists := {}
  clock : Double := .ofInt 1
  /-- The number of calls so far. -/
  calls : Nat := 0
  /-- Replies that are fixed beforehand, by the number of the call. -/
  fixed : List (Nat × Item) := []
  slots : Slots := []
  sources : List Source := []
  /-- What stands for the randomness of the system. -/
  system : Source
  /-- Tasks that wait, in the order in which they began. -/
  tasks : List Task := []
  /-- Tasks that were served and have not gone on yet, by their tickets. -/
  woken : List (Nat × Value) := []
  tickets : Nat := 0
  /-- What happened, the latest first. -/
  events : List Event := []

namespace Machine

def record (m : Machine) (e : Event) : Machine := { m with events := e :: m.events }

/-- Keeps a result in a slot; a failure leaves the slot as it is. -/
def keep (m : Machine) (slot : Option String) (result : Except Failure Value) : Machine :=
  match slot, result with
  | some name, .ok v => { m with slots := (name, v) :: m.slots }
  | _, _ => m

/-! ## Answers -/

/-- The store's reply to a command; `none` if the command has to wait.  Tasks that are served have
    yet to go on. -/
def reply (m : Machine) (command : Command) : Option Value × Machine :=
  let effect := m.lists.execute command
  let woken := effect.served.map fun (w, entry) => (w.ticket, Lists.pair w.key entry)
  (effect.reply, { m with lists := effect.lists, woken := m.woken ++ woken })

/-- A call: the reply that is fixed for its number, else the store's. -/
def call (m : Machine) (executor : Executor) (command : Command) :
    Option (Except Failure Value) × Machine :=
  let number := m.calls
  let m := { m.record (.called executor command) with calls := number + 1 }
  match m.fixed.lookup number with
  | some item => (some (item.resolve m.slots), m)
  | none =>
    let (reply, m) := m.reply command
    (reply.map .ok, m)

/-- One draw from a source. -/
def draw (m : Machine) (source : SourceRef) (stop : Nat) : Except Failure Value × Machine :=
  match source with
  | .system =>
    let (answer, system) := m.system.draw m.slots stop
    (answer, { m with system := system })
  | .given number =>
    match m.sources[number]? with
    | some s =>
      let (answer, s) := s.draw m.slots stop
      (answer, { m with sources := m.sources.set number s })
    | none => (.error Source.exhausted, m)

/-- The answer to a request; `none` if it has to wait. -/
def answer : (r : Request) → Machine → Option r.Answer × Machine
  | .command executor command, m => m.call executor command
  | .clock, m => (some m.clock, m)
  | .log record, m => (some (), m.record (.logged record))
  | .draw source stop, m =>
    let (answer, m) := m.draw source stop
    (some answer, m)
  | .connect connection, m => (some (), m.record (.connected connection))

/-! ## Tasks -/

/-- Puts what is left of a task where it belongs: a task at its end is reported, any other waits
    for an entry.  The first result tells whether the task has ended. -/
def settle (m : Machine) (id : String) (slot : Option String) (rest : Op Value) : Bool × Machine :=
  match rest with
  | .done result => (true, (m.keep slot result).record (.ended id result))
  | .ask (.command _ (.blockingPop name seconds)) _ =>
    let ticket := m.tickets
    (false, { m with
      lists := m.lists.wait ⟨ticket, name.key, m.clock.add seconds⟩
      tasks := m.tasks ++ [⟨ticket, id, slot, rest⟩]
      tickets := ticket + 1 })
  -- Every other request is answered at once, so no task stops at one.
  | .ask .. => (true, m)

/-- Lets a task that waits go on with a reply. -/
def resume (m : Machine) (ticket : Nat) (reply : Value) : Machine :=
  match m.tasks.find? (·.ticket == ticket) with
  | none => m
  | some task =>
    let m := { m with tasks := m.tasks.filter (·.ticket != ticket) }
    let (rest, m) := (task.rest.reply (.ok reply)).proceed answer m
    (m.settle task.id task.slot rest).2

/-- Lets the tasks go on that were served, in the order in which they were.  A task that was served
    runs to its end without another command. -/
def runWoken (m : Machine) : Machine :=
  m.woken.foldl (fun m (ticket, reply) => m.resume ticket reply) { m with woken := [] }

/-! ## Time -/

/-- A deadline passes: the clock is not before it any more, and whoever still waits gets nothing
    and goes on. -/
def expire (m : Machine) (w : Waiter) : Machine :=
  if m.lists.isWaiting w.ticket then
    let m := { m with lists := m.lists.leave w.ticket, clock := m.clock.max w.deadline }
    (m.resume w.ticket .none).runWoken
  else m

/-- Lets the clock run for some seconds. -/
def advance (m : Machine) (seconds : Double) : Machine :=
  let target := m.clock.add seconds
  { (m.lists.due target).foldl expire m with clock := target }

/-! ## A caller in front -/

/-- The end of a request that has to wait, for a caller that lets the clock run meanwhile. -/
def waitOut : (r : Request) → Machine → r.Answer × Machine
  | .command _ (.blockingPop _ seconds), m => (.ok .none, m.advance seconds)
  -- No other request has to wait.
  | .command .., m => (.ok .none, m)
  | .clock, m => (m.clock, m)
  | .log _, m => ((), m)
  | .draw .., m => (.ok .none, m)
  | .connect _, m => ((), m)

/-- The answer to a request of a caller in front. -/
def answerInFront (r : Request) (m : Machine) : r.Answer × Machine :=
  match m.answer r with
  | (some answer, m) => (answer, m)
  | (none, m) => m.waitOut r

/-- Runs an operation of a caller in front to its end. -/
def perform {α : Type} (op : Op α) (m : Machine) : Except Failure α × Machine :=
  op.run answerInFront m

/-! ## A task -/

/-- The answer to a request of a task.  A direct caller lets the clock run, also in a task. -/
def answerBehind (r : Request) (m : Machine) : Option r.Answer × Machine :=
  match r with
  | .command executor command =>
    match executor.style with
    | .direct =>
      let (answer, m) := answerInFront (.command executor command) m
      (some answer, m)
    | .awaited => m.answer (.command executor command)
  | r => m.answer r

/-- Starts an operation as a task and lets it run until it waits or ends; a slot may keep its
    result. -/
def spawn (m : Machine) (id : String) (slot : Option String) (op : Op Value) : Bool × Machine :=
  let (rest, m) := op.proceed answerBehind m
  m.settle id slot rest

end Machine

end Permits.Simulation
