/-
  Mixed semaphores — callers who do not wait as the store does.

  Nothing keeps a caller from binding a semaphore of one style to a store of the other.

  1. **Awaited callers of a direct store** get an answer where they await one.  The command is carried
     out, and then the operation fails: what is there already cannot be awaited (`overtaken`).
  2. **Direct callers of an awaited store** get no answer at all, but an operation that is yet to be
     awaited (`pending`).  It counts as an entry, so every acquire succeeds at once and sends nothing.
     A release sends nothing either unless somebody awaits what it gave, which is its last push.

  The style of the store tells the two apart.
-/
import Permits.Semaphore

namespace Permits.Semaphore.Mixed

variable {α β : Type}

/-! ## Answers that do not fit -/

/-- An operation that is yet to be awaited, in place of its result. -/
def pending : Value := .other { type := "coroutine", text := .ok "<coroutine>" }

/-- Awaits the answer of an operation that was there already. -/
def overtaken (answer : Op Value) : Op α := do
  let v ← answer
  .fail (.notAwaitable v.qualifiedTypeName)

/-! ## Using a semaphore -/

/-- How many permits are available; a direct caller is told once it awaits the answer. -/
def value (s : Semaphore) : Op Int :=
  match s.store.style with
  | .direct => Op.coroutine (overtaken do return .int (← s.value))
  | .awaited => s.value

/-- Is no permit available?  An answer that is yet to be awaited cannot be compared. -/
def locked (s : Semaphore) : Op Bool :=
  match s.store.style with
  | .direct => Op.coroutine (overtaken do return .int (← s.value))
  | .awaited => .fail (.unordered "<=" pending.typeName)

/-- Acquires a permit: in vain after the pop, or at once and without one. -/
def acquire (s : Semaphore) (blocking timeout : Value) : Op Bool := do
  let entry ← match s.store.style with
    | .direct => Op.coroutine (timed (overtaken (s.store.blockingPop s.name (s.waitFor blocking timeout))))
    | .awaited => timed (return (s.name, pending))
  return isEntry entry

/-- Releases permits; nothing but the last push of a direct caller is awaited. -/
def release (s : Semaphore) (n : Value) : Op Value := do
  let _ ← .ofExcept (releaseCount n)
  match s.store.style with
  | .direct => Op.coroutine (overtaken (Permits.release s.store s.name))
  | .awaited => Permits.release s.store s.name

/-- Releases permits and does not look at what that gave. -/
def releaseUnseen (s : Semaphore) (n : Value) : Op Unit :=
  match s.store.style with
  | .direct => do
    let _ ← release s n
  | .awaited => do
    let _ ← .ofExcept (releaseCount n)

/-- Enters a block. -/
def enter (s : Semaphore) : Op Unit := do
  if ← acquire s (.bool true) .none then return ()
  else .fail s.lateness

/-- Leaves a block. -/
def exit (s : Semaphore) : Op Unit := releaseUnseen s (.int 1)

end Permits.Semaphore.Mixed
