/-
  Actions — the operation that a step of a session is.

  `Action.op` looks up what an action speaks of and gives the operation on it.  What was never named
  ends the operation at once, and so does a term without a value.
-/
import Permits.Simulation.Session.Basic

namespace Permits.Simulation.Action

/-- Marks a result with the way in which a command gave it. -/
def marked (style : Style) (v : Value) : Value :=
  let word := match style with
    | .direct => "direct"
    | .awaited => "awaited"
  .list [.text word, v]

/-- The operation on the store that a name stands for. -/
def onStore (s : Session) (id : String) (op : ListStore → Op Value) : Op Value := do
  let store ← .ofExcept (s.store id)
  op store

/-- The operation on the semaphore that a name stands for. -/
def onSemaphore (s : Session) (id : String) (op : Held → Op Value) : Op Value := do
  let held ← .ofExcept (s.semaphore id)
  op held

/-- The operation on the values of two terms, the first of which is resolved first. -/
def withTerms (s : Session) (t u : Term) (op : Value → Value → Op Value) : Op Value := do
  let v ← .ofExcept (s.resolve t)
  let w ← .ofExcept (s.resolve u)
  op v w

/-- The operation on the value of a term. -/
def withTerm (s : Session) (t : Term) (op : Value → Op Value) : Op Value := do
  let v ← .ofExcept (s.resolve t)
  op v

/-- The operation that an action is. -/
def op (s : Session) : Action → Op Value
  | push store name entry =>
    onStore s store fun store => withTerms s name entry fun name entry =>
      (Call.push store name entry).op
  | blockingPop store name timeout =>
    onStore s store fun store => withTerms s name timeout fun name timeout =>
      (Call.blockingPop store name timeout).op
  | length store name =>
    onStore s store fun store => withTerm s name fun name => do
      let n ← (Call.length store name).op
      return .int n
  | release store name =>
    onStore s store fun store => withTerm s name fun name => (Call.release store name).op
  | acquire store name duration =>
    onStore s store fun store => withTerms s name duration fun name duration =>
      (Call.acquire store name duration).op
  | value id => onSemaphore s id fun held => do
    let n ← held.use (fun m => (Call.value m).op) Semaphore.Mixed.value
    return .int n
  | locked id => onSemaphore s id fun held => do
    let b ← held.use (fun m => (Call.locked m).op) Semaphore.Mixed.locked
    return .bool b
  | acquirePermit id blocking timeout => onSemaphore s id fun held => do
    let blocking ← .ofExcept (s.resolveOr (.bool true) blocking)
    let timeout ← .ofExcept (s.resolveOr .none timeout)
    let b ← held.use (fun m => (Call.acquirePermit m blocking timeout).op) fun m =>
      Semaphore.Mixed.acquire m blocking timeout
    return .bool b
  | releasePermits id count => onSemaphore s id fun held => do
    let count ← .ofExcept (s.resolveOr (.int 1) count)
    held.use (fun m => (Call.releasePermits m count).op) fun m => Semaphore.Mixed.release m count
  | enter id => onSemaphore s id fun held => do
    held.use (fun m => (Call.enter m).op) Semaphore.Mixed.enter
    return held.toValue
  | exit id => onSemaphore s id fun held => do
    held.use (fun m => (Call.exit m).op) Semaphore.Mixed.exit
    return .none
  | call id name args => do
    let r ← .ofExcept (s.registrar id)
    let name ← .ofExcept (s.resolve name)
    let args ← .ofExcept (Term.resolveAll s.machine.slots args)
    let command ← .ofExcept (r.command name)
    let v ← (Call.command r name args).op
    return marked command.style v

end Permits.Simulation.Action
