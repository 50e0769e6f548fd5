/-
  List stores — the handle through which callers reach a store of named lists.

  A handle sends commands to one executor.  Arguments are checked before anything is sent.

  1. **`push`** appends an entry and records the reply.
  2. **`blockingPop`** takes the oldest entry, waiting for a bounded time: a positive number of
     seconds goes along with the command that waits, and without one the list is only polled.
  3. **`length`** counts the entries.
  4. **`connect`** finds the executor of a handle: one that is given, else that of a client that is
     given, else that of a client at its default address.  **`ofUrl`** builds the client at a URL.

  There are two of each, written apart (`ListStore.Direct`, `ListStore.Awaited`): a handle of the one
  style waits for a reply on the spot, and what a handle of the other does is a coroutine.  The style of
  the handle selects one (`pushTo`, `blockingPopFrom`, `lengthOf`).  Both are equal to one form
  (`push_eq`, `blockingPop_eq`, `length_eq`), in which a reply arrives as the caller gets it (`send`);
  whatever is proved of handles is proved of that form.
-/
import Permits.Op.Basic
import Permits.Duration
import Permits.Reply

namespace Permits

/-- A handle on a store of named lists. -/
structure ListStore where
  executor : Executor
  deriving DecidableEq, Repr, Inhabited

namespace ListStore

def style (s : ListStore) : Style := s.executor.style

/-- Runs a command; the reply is what the executor gives. -/
def execute (s : ListStore) (c : Command) : Op Value := .askFor (.command s.executor c) id

/-- A handle on the client that a connection builds. -/
def ofConnection (c : Connection) : Op ListStore := do
  let _ ← Op.request (.connect c)
  return ⟨c.executor⟩

/-! ## Handles that wait on the spot

The name of a list may yet be refused when a method is called, so it comes as the outcome of its
check, which the method looks at first. -/

namespace Direct

/-- Appends an entry to a list; the result is the store's reply. -/
def push (s : ListStore) (name : Except Failure Name) (entry : Value) : Op Value := do
  let name ← .ofExcept name
  let reply ← s.execute (.push name entry)
  .log (.pushed .direct name reply)
  return reply

/-- Takes the oldest entry of a list, waiting for one no longer than `timeout`; the result is
    `Value.none` when there was none in time. -/
def blockingPop (s : ListStore) (name : Except Failure Name) (timeout : Value) : Op Value := do
  let name ← .ofExcept name
  let seconds ← .ofExcept (Duration.seconds timeout)
  if seconds.le .zero then s.execute (.pop name)
  else
    let reply ← s.execute (.blockingPop name seconds)
    .ofExcept (Reply.popped reply)

/-- The number of entries of a list. -/
def length (s : ListStore) (name : Except Failure Name) : Op Int := do
  let name ← .ofExcept name
  let reply ← s.execute (.length name)
  .ofExcept (Reply.count reply)

/-- A handle on an executor, else on a client's executor, else on a client at its default
    address. -/
def connect (executor client : Option Executor) : Op ListStore :=
  match executor with
  | some e => return ⟨e⟩
  | none =>
    match client with
    | some e => return ⟨e⟩
    | none => ofConnection ⟨.direct, none, []⟩

end Direct

/-! ## Handles that await -/

namespace Awaited

/-- Appends an entry to a list; the result is the store's reply. -/
def push (s : ListStore) (name : Except Failure Name) (entry : Value) : Op Value := .coroutine do
  let name ← .ofExcept name
  let reply ← s.execute (.push name entry)
  .log (.pushed .awaited name reply)
  return reply

/-- Takes the oldest entry of a list, waiting for one no longer than `timeout`; the result is
    `Value.none` when there was none in time. -/
def blockingPop (s : ListStore) (name : Except Failure Name) (timeout : Value) : Op Value :=
  .coroutine do
    let name ← .ofExcept name
    let seconds ← .ofExcept (Duration.seconds timeout)
    if seconds.le .zero then s.execute (.pop name)
    else
      let reply ← s.execute (.blockingPop name seconds)
      .ofExcept (Reply.popped reply)

/-- The number of entries of a list. -/
def length (s : ListStore) (name : Except Failure Name) : Op Int := .coroutine do
  let name ← .ofExcept name
  let reply ← s.execute (.length name)
  .ofExcept (Reply.count reply)

/-- A handle on an executor, else on a client's executor, else on a client at its default
    address. -/
def connect (executor client : Option Executor) : Op ListStore :=
  match executor with
  | some e => return ⟨e⟩
  | none =>
    match client with
    | some e => return ⟨e⟩
    | none => ofConnection ⟨.awaited, none, []⟩

end Awaited

/-! ## Handles of either style -/

def pushTo (s : ListStore) (name : Except Failure Name) (entry : Value) : Op Value :=
  match s.style with
  | .direct => Direct.push s name entry
  | .awaited => Awaited.push s name entry

def blockingPopFrom (s : ListStore) (name : Except Failure Name) (timeout : Value) : Op Value :=
  match s.style with
  | .direct => Direct.blockingPop s name timeout
  | .awaited => Awaited.blockingPop s name timeout

def lengthOf (s : ListStore) (name : Except Failure Name) : Op Int :=
  match s.style with
  | .direct => Direct.length s name
  | .awaited => Awaited.length s name

/-- Appends an entry to a list; the result is the store's reply. -/
def push (s : ListStore) (name : Name) (entry : Value) : Op Value := s.pushTo (.ok name) entry

/-- Takes the oldest entry of a list, waiting for one no longer than `timeout`; the result is
    `Value.none` when there was none in time. -/
def blockingPop (s : ListStore) (name : Name) (timeout : Value) : Op Value :=
  s.blockingPopFrom (.ok name) timeout

/-- The number of entries of a list. -/
def length (s : ListStore) (name : Name) : Op Int := s.lengthOf (.ok name)

/-- A handle on an executor, else on a client's executor, else on a client at its default
    address. -/
def connect (style : Style) (executor client : Option Executor) : Op ListStore :=
  match style with
  | .direct => Direct.connect executor client
  | .awaited => Awaited.connect executor client

/-- The class of handles whose callers wait in some style. -/
def classOf : Style → String
  | .direct => "ListStore"
  | .awaited => "AIOListStore"

/-- The handle as it stands inside a message. -/
def shown (s : ListStore) : String :=
  "<" ++ classOf s.style ++ " execute=" ++ s.executor.shown ++ ">"

/-- Arguments of `ofUrl` that have a place of their own. -/
def placedArguments : List String := ["cls", "url"]

/-- A handle on the client at a URL, built with options. -/
def ofUrl (style : Style) (url : Value) (options : List (String × Value)) : Op ListStore :=
  match options.find? fun (key, _) => placedArguments.contains key with
  | some (key, _) => .fail (.repeatedArgument (classOf style ++ ".from_url") key)
  | none => ofConnection ⟨style, some url, options⟩

/-! ## One form for both -/

/-- Sends a command and waits for the reply, which arrives as the caller gets it. -/
def send (s : ListStore) (c : Command) : Op Value :=
  .askFor (.command s.executor c) s.style.received

theorem execute_of_direct {s : ListStore} (h : s.style = .direct) (c : Command) :
    s.execute c = s.send c := by
  have id : (id : Except Failure Value → _) = s.style.received := by
    funext r
    rw [h, Style.received_direct]
    rfl
  rw [send, ← id]
  rfl

theorem coroutine_execute {s : ListStore} (h : s.style = .awaited) (c : Command) :
    Op.coroutine (s.execute c) = s.send c := by
  rw [send, h]
  rfl

section Forms

variable (s : ListStore)

theorem pushTo_eq (name : Except Failure Name) (entry : Value) :
    s.pushTo name entry = (do
      let name ← .ofExcept (s.style.received name)
      let reply ← s.send (.push name entry)
      .log (.pushed s.style name reply)
      return reply) := by
  unfold pushTo
  cases h : s.style with
  | direct => simp only [Direct.push, execute_of_direct h, Style.received_direct]
  | awaited =>
    simp only [Awaited.push, Op.coroutine_bind, Op.coroutine_ofExcept, coroutine_execute h]
    rfl

theorem blockingPopFrom_eq (name : Except Failure Name) (timeout : Value) :
    s.blockingPopFrom name timeout = (do
      let name ← .ofExcept (s.style.received name)
      let seconds ← .ofExcept (s.style.received (Duration.seconds timeout))
      if seconds.le .zero then s.send (.pop name)
      else
        let reply ← s.send (.blockingPop name seconds)
        .ofExcept (Reply.popped reply)) := by
  unfold blockingPopFrom
  cases h : s.style with
  | direct => simp only [Direct.blockingPop, execute_of_direct h, Style.received_direct]
  | awaited =>
    simp only [Awaited.blockingPop, Op.coroutine_bind, apply_ite, Op.coroutine_ofExcept,
      coroutine_execute h, Op.coroutine_check fun _ => Reply.isOwn_of_popped]

theorem lengthOf_eq (name : Except Failure Name) :
    s.lengthOf name = (do
      let name ← .ofExcept (s.style.received name)
      let reply ← s.send (.length name)
      .ofExcept (Reply.count reply)) := by
  unfold lengthOf
  cases h : s.style with
  | direct => simp only [Direct.length, execute_of_direct h, Style.received_direct]
  | awaited =>
    simp only [Awaited.length, Op.coroutine_bind, Op.coroutine_ofExcept, coroutine_execute h,
      Op.coroutine_check fun _ => Reply.isOwn_of_count]

theorem push_eq (name : Name) (entry : Value) :
    s.push name entry = (do
      let reply ← s.send (.push name entry)
      .log (.pushed s.style name reply)
      return reply) :=
  s.pushTo_eq (.ok name) entry

theorem blockingPop_eq (name : Name) (timeout : Value) :
    s.blockingPop name timeout = (do
      let seconds ← .ofExcept (s.style.received (Duration.seconds timeout))
      if seconds.le .zero then s.send (.pop name)
      else
        let reply ← s.send (.blockingPop name seconds)
        .ofExcept (Reply.popped reply)) :=
  s.blockingPopFrom_eq (.ok name) timeout

theorem length_eq (name : Name) :
    s.length name = (do
      let reply ← s.send (.length name)
      .ofExcept (Reply.count reply)) :=
  s.lengthOf_eq (.ok name)

/-- A name that a value writes is looked at first, and refused in the same way in both styles. -/
theorem received_check (name : Value) : s.style.received (Name.check name) = Name.check name :=
  Style.received_of_endsIteration
    (fun _ hf => Failure.endsIteration_of_isOwn (Name.isOwn_of_check hf)) _

theorem pushTo_check (name entry : Value) :
    s.pushTo (Name.check name) entry = .named name (s.push · entry) := by
  simp only [pushTo_eq, received_check, push_eq]
  rfl

theorem blockingPopFrom_check (name timeout : Value) :
    s.blockingPopFrom (Name.check name) timeout = .named name (s.blockingPop · timeout) := by
  simp only [blockingPopFrom_eq, received_check, blockingPop_eq]
  rfl

theorem lengthOf_check (name : Value) : s.lengthOf (Name.check name) = .named name s.length := by
  have form : s.length = fun n => s.length n := rfl
  rw [form]
  simp only [lengthOf_eq, received_check, length_eq]
  rfl

end Forms

/-- The executor of a handle that is to be found, whatever its style. -/
theorem connect_eq (style : Style) (executor client : Option Executor) :
    connect style executor client =
      match executor.or client with
      | some e => return ⟨e⟩
      | none => ofConnection ⟨style, none, []⟩ := by
  cases style <;> cases executor <;> cases client <;> rfl

end ListStore

end Permits
