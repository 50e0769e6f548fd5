/-
  Semaphores — one name, one store and a usual timeout, bound together.

  1. **Making one** (`create`) for a name that exists already.
  2. **Using it**: `value`, `locked`, `acquire`, `release`.
  3. **Blocks** (`within`): a permit is acquired on entry and released on exit, whatever the body
     did.  A block that is not entered in time fails, since it has no result that could tell.

  There are two of each, written apart for callers that wait on the spot (`Semaphore.Direct`) and for
  those that await (`Semaphore.Awaited`).  The callers of a semaphore wait in the style of its store,
  which selects one of the two, and both are equal to one form (`acquire_eq`, `release_eq` and so
  on).  Callers who do not wait as the store does are the matter of `Permits.Semaphore.Mixed`.
-/
import Permits.Permit
import Permits.Identifier

namespace Permits

open Number

/-- A semaphore in a caller's hands. -/
structure Semaphore where
  name : Name
  store : ListStore
  /-- The seconds to wait when a caller names none. -/
  timeout : Double
  className : String
  timeout_finite : timeout.isFinite = true
  deriving DecidableEq, Repr

namespace Semaphore

instance : Inhabited Semaphore := ⟨⟨default, default, .zero, "", rfl⟩⟩

/-! ## Options -/

/-- The timeout of a semaphore that is made without one: ten seconds. -/
def defaultTimeout : Value := .float (.ofInt 10)

/-- The class of semaphores that wait in some style. -/
def classOf : Style → String
  | .direct => "Semaphore"
  | .awaited => "AIOSemaphore"

/-- What a semaphore is made with besides its name; whatever is absent has a default. -/
structure Options where
  style : Style
  store : Option ListStore
  client : Option Executor
  timeout : Option Value
  className : Option String
  deriving Inhabited

/-! ## Making a semaphore

The name is checked first, then the store is found, which may build a client, and the timeout comes
last. -/

/-- A semaphore for a name that exists already, for callers that wait on the spot. -/
def Direct.create (options : Options) (name : Value) : Op Semaphore := do
  let name ← .ofExcept (Name.check name)
  let store ← match options.store with
    | some store => pure store
    | none => ListStore.Direct.connect none options.client
  let ⟨timeout, finite⟩ ← .ofExcept (Duration.finiteSeconds (options.timeout.getD defaultTimeout))
  return ⟨name, store, timeout, options.className.getD "Semaphore", finite⟩

/-- A semaphore for a name that exists already, for callers that await. -/
def Awaited.create (options : Options) (name : Value) : Op Semaphore := do
  let name ← .ofExcept (Name.check name)
  let store ← match options.store with
    | some store => pure store
    | none => ListStore.Awaited.connect none options.client
  let ⟨timeout, finite⟩ ← .ofExcept (Duration.finiteSeconds (options.timeout.getD defaultTimeout))
  return ⟨name, store, timeout, options.className.getD "AIOSemaphore", finite⟩

/-- A semaphore for a name that exists already. -/
def create (options : Options) (name : Value) : Op Semaphore :=
  match options.style with
  | .direct => Direct.create options name
  | .awaited => Awaited.create options name

/-- The store of a semaphore: the one that is given, else one that is found. -/
def Options.findStore (options : Options) : Op ListStore :=
  match options.store with
  | some store => pure store
  | none => ListStore.connect options.style none options.client

/-- The semaphore of a name in a store. -/
def Options.bound (options : Options) (name : Name) (store : ListStore) : Op Semaphore := do
  let ⟨timeout, finite⟩ ← .ofExcept (Duration.finiteSeconds (options.timeout.getD defaultTimeout))
  return ⟨name, store, timeout, options.className.getD (classOf options.style), finite⟩

/-- **Semaphores of both styles are made in one way.** -/
theorem create_eq (options : Options) (name : Value) :
    create options name = (do
      let name ← .ofExcept (Name.check name)
      let store ← options.findStore
      options.bound name store) := by
  obtain ⟨style, store, client, timeout, className⟩ := options
  cases style <;> cases store <;> rfl

/-! ## Counts -/

/-- Is a number less than `bound`?  What is in no order with it cannot be compared. -/
def isBelow (bound : Int) (v : Value) : Except Failure Bool :=
  match v.isBelow? bound with
  | some low => .ok low
  | none => .error (.unordered "<" v.qualifiedTypeName)

/-- How many rounds a loop makes. -/
def rounds (n : Value) : Except Failure Nat :=
  match n.index? with
  | some n => .ok n.toNat
  | none => .error (.uncountable n.qualifiedTypeName)

/-- How many permits a caller wants to release: a positive integer. -/
def releaseCount (n : Value) : Except Failure Nat := do
  if ← isBelow 1 n then .error .countTooSmall
  else rounds n

/-- An operation some times in a row, with its last result. -/
def lastOf (op : Op Value) : Nat → Op Value
  | 0 => pure .none
  | 1 => op
  | n + 1 => do
    let _ ← op
    lastOf op n

/-- Is there an entry, or was an acquire in vain? -/
def isEntry : Value → Bool
  | .none => false
  | _ => true

/-- The failure to enter a block in time. -/
def lateness (s : Semaphore) : Failure := .timedOut s.name.toValue (.float s.timeout)

/-! ## Semaphores of callers that wait on the spot -/

namespace Direct

/-- How many permits are available now. -/
def value (s : Semaphore) : Op Int := s.store.length s.name

/-- Is no permit available now? -/
def locked (s : Semaphore) : Op Bool := do
  let n ← value s
  return n ≤ 0

/-- Acquires a permit and tells whether there was one in time. -/
def acquire (s : Semaphore) (blocking timeout : Value) : Op Bool := do
  let timeout :=
    if !blocking.isTrue then .int 0
    else match timeout with
      | .none => .float s.timeout
      | timeout => timeout
  let entry ← Permits.Direct.acquire s.store (.ok s.name) timeout
  return isEntry entry

/-- Releases as many permits as asked for, at least one; the result is the reply to the last push. -/
def release (s : Semaphore) (n : Value) : Op Value := do
  if ← .ofExcept (isBelow 1 n) then .fail .countTooSmall
  else
    let n ← .ofExcept (rounds n)
    lastOf (Permits.Direct.release s.store (.ok s.name)) n

/-- Enters a block: a permit within the semaphore's own timeout, or a failure. -/
def enter (s : Semaphore) : Op Unit := do
  if ← acquire s (.bool true) .none then return ()
  else .fail s.lateness

/-- Leaves a block: one permit goes back. -/
def exit (s : Semaphore) : Op Unit := do
  let _ ← release s (.int 1)

end Direct

/-! ## Semaphores of callers that await -/

namespace Awaited

/-- How many permits are available now. -/
def value (s : Semaphore) : Op Int := .coroutine (s.store.length s.name)

/-- Is no permit available now? -/
def locked (s : Semaphore) : Op Bool := .coroutine do
  let n ← value s
  return n ≤ 0

/-- Acquires a permit and tells whether there was one in time. -/
def acquire (s : Semaphore) (blocking timeout : Value) : Op Bool := .coroutine do
  let timeout :=
    if !blocking.isTrue then .int 0
    else match timeout with
      | .none => .float s.timeout
      | timeout => timeout
  let entry ← Permits.Awaited.acquire s.store (.ok s.name) timeout
  return isEntry entry

/-- Releases as many permits as asked for, at least one; the result is the reply to the last push. -/
def release (s : Semaphore) (n : Value) : Op Value := .coroutine do
  if ← .ofExcept (isBelow 1 n) then .fail .countTooSmall
  else
    let n ← .ofExcept (rounds n)
    lastOf (Permits.Awaited.release s.store (.ok s.name)) n

/-- Enters a block: a permit within the semaphore's own timeout, or a failure. -/
def enter (s : Semaphore) : Op Unit := .coroutine do
  if ← acquire s (.bool true) .none then return ()
  else .fail s.lateness

/-- Leaves a block: one permit goes back. -/
def exit (s : Semaphore) : Op Unit := .coroutine do
  let _ ← release s (.int 1)

end Awaited

/-! ## Semaphores of either style -/

/-- How many permits are available now. -/
def value (s : Semaphore) : Op Int :=
  match s.store.style with
  | .direct => Direct.value s
  | .awaited => Awaited.value s

/-- Is no permit available now? -/
def locked (s : Semaphore) : Op Bool :=
  match s.store.style with
  | .direct => Direct.locked s
  | .awaited => Awaited.locked s

/-- Acquires a permit and tells whether there was one in time. -/
def acquire (s : Semaphore) (blocking timeout : Value) : Op Bool :=
  match s.store.style with
  | .direct => Direct.acquire s blocking timeout
  | .awaited => Awaited.acquire s blocking timeout

/-- Releases as many permits as asked for, at least one; the result is the reply to the last push. -/
def release (s : Semaphore) (n : Value) : Op Value :=
  match s.store.style with
  | .direct => Direct.release s n
  | .awaited => Awaited.release s n

/-- Enters a block: a permit within the semaphore's own timeout, or a failure. -/
def enter (s : Semaphore) : Op Unit :=
  match s.store.style with
  | .direct => Direct.enter s
  | .awaited => Awaited.enter s

/-- Leaves a block: one permit goes back. -/
def exit (s : Semaphore) : Op Unit :=
  match s.store.style with
  | .direct => Direct.exit s
  | .awaited => Awaited.exit s

/-! ## One form for both -/

/-- The duration that an acquire waits: nothing at all unless it may block, and the semaphore's own
    timeout if none is named. -/
def waitFor (s : Semaphore) (blocking timeout : Value) : Value :=
  if !blocking.isTrue then .int 0
  else match timeout with
    | .none => .float s.timeout
    | timeout => timeout

/-- Releases `n` permits one after the other; the result is the reply to the last push. -/
def releaseTimes (s : Semaphore) : Nat → Op Value
  | 0 => pure .none
  | 1 => Permits.release s.store s.name
  | n + 1 => do
    let _ ← Permits.release s.store s.name
    s.releaseTimes n

theorem coroutine_lastOf {op : Op Value} (h : Op.coroutine op = op) :
    ∀ n, Op.coroutine (lastOf op n) = lastOf op n
  | 0 => rfl
  | 1 => h
  | n + 2 => by
    show Op.coroutine (op >>= fun _ => lastOf op (n + 1)) = op >>= fun _ => lastOf op (n + 1)
    rw [Op.coroutine_bind, h, coroutine_lastOf h (n + 1)]

theorem isOwn_of_isBelow {bound : Int} {v : Value} {f : Failure} (h : isBelow bound v = .error f) :
    f.isOwn = true := by
  unfold isBelow at h
  split at h <;> cases h
  rfl

theorem isOwn_of_rounds {v : Value} {f : Failure} (h : rounds v = .error f) : f.isOwn = true := by
  unfold rounds at h
  split at h <;> cases h
  rfl

/-- A count is checked in two steps, of which one is its comparison. -/
theorem check_releaseCount (n : Value) (loop : Nat → Op Value) :
    (Op.ofExcept (isBelow 1 n) >>= fun low =>
      if low = true then .fail .countTooSmall else Op.ofExcept (rounds n) >>= loop) =
      Op.ofExcept (releaseCount n) >>= loop := by
  unfold releaseCount
  cases isBelow 1 n with
  | error f => rfl
  | ok low => cases low <;> rfl

section Forms

variable (s : Semaphore)

/-- To release is to release one permit after the other, in the style of the store. -/
theorem lastOf_release {op : Op Value} (h : op = Permits.release s.store s.name) :
    ∀ n, lastOf op n = s.releaseTimes n
  | 0 => rfl
  | 1 => h
  | n + 2 => by
    show op >>= (fun _ => lastOf op (n + 1)) = Permits.release s.store s.name >>= fun _ => s.releaseTimes (n + 1)
    rw [h, lastOf_release rfl (n + 1)]

theorem direct_release (h : s.store.style = .direct) :
    Permits.Direct.release s.store (.ok s.name) = Permits.release s.store s.name := by
  rw [Permits.release, releaseTo, h]

theorem awaited_release (h : s.store.style = .awaited) :
    Permits.Awaited.release s.store (.ok s.name) = Permits.release s.store s.name := by
  rw [Permits.release, releaseTo, h]

theorem value_eq : s.value = s.store.length s.name := by
  unfold value
  cases h : s.store.style with
  | direct => rfl
  | awaited =>
    show Op.coroutine (s.store.lengthOf (.ok s.name)) = s.store.lengthOf (.ok s.name)
    unfold ListStore.lengthOf
    rw [h]
    exact Op.coroutine_coroutine _

/-- A semaphore is locked exactly if there is no permit. -/
theorem locked_eq : s.locked = (do
    let n ← s.value
    return n ≤ 0) := by
  unfold locked value
  cases s.store.style with
  | direct => rfl
  | awaited =>
    simp only [Awaited.locked, Op.coroutine_bind, Op.coroutine_pure, Awaited.value,
      Op.coroutine_coroutine]

/-- **An acquire of both styles waits in the same way.** -/
theorem acquire_eq (blocking timeout : Value) :
    s.acquire blocking timeout = (do
      let entry ← Permits.acquire s.store s.name (s.waitFor blocking timeout)
      return isEntry entry) := by
  unfold acquire Permits.acquire acquireFrom
  cases s.store.style with
  | direct => rfl
  | awaited =>
    simp only [Awaited.acquire, Op.coroutine_bind, Op.coroutine_pure, Permits.Awaited.acquire,
      Op.coroutine_coroutine]
    rfl

/-- **A release of both styles makes the same pushes.** -/
theorem release_eq (n : Value) : s.release n = (do
    let n ← .ofExcept (releaseCount n)
    s.releaseTimes n) := by
  unfold release
  cases h : s.store.style with
  | direct =>
    simp only [Direct.release, direct_release s h, lastOf_release s rfl]
    exact check_releaseCount n _
  | awaited =>
    have loop (n : Nat) : Op.coroutine (lastOf (Permits.Awaited.release s.store (.ok s.name)) n) =
        s.releaseTimes n := by
      have own : Op.coroutine (Permits.Awaited.release s.store (.ok s.name)) =
          Permits.Awaited.release s.store (.ok s.name) := Op.coroutine_coroutine _
      rw [coroutine_lastOf own, lastOf_release s (awaited_release s h)]
    have low : Op.coroutine (.fail .countTooSmall : Op Value) = .fail .countTooSmall :=
      Op.coroutine_fail rfl
    simp only [Awaited.release, Op.coroutine_bind, apply_ite, low,
      Op.coroutine_check fun _ => isOwn_of_isBelow, Op.coroutine_check fun _ => isOwn_of_rounds, loop]
    exact check_releaseCount n _

/-- What is released into a store whose callers await is awaited as a whole. -/
theorem coroutine_release (h : s.store.style = .awaited) {n : Value} :
    Op.coroutine (s.release n) = s.release n := by
  unfold release
  rw [h]
  exact Op.coroutine_coroutine _

theorem enter_eq : s.enter = (do
    if ← s.acquire (.bool true) .none then return ()
    else .fail s.lateness) := by
  unfold enter acquire
  cases s.store.style with
  | direct => rfl
  | awaited =>
    have late : Op.coroutine (.fail s.lateness : Op Unit) = .fail s.lateness :=
      Op.coroutine_fail rfl
    simp only [Awaited.enter, Op.coroutine_bind, apply_ite, Op.coroutine_pure, late,
      Awaited.acquire, Op.coroutine_coroutine]

theorem exit_eq : s.exit = (do
    let _ ← s.release (.int 1)) := by
  unfold exit release
  cases s.store.style with
  | direct => rfl
  | awaited =>
    simp only [Awaited.exit, Op.coroutine_bind, Op.coroutine_pure, Awaited.release,
      Op.coroutine_coroutine]

end Forms

/-! ## Blocks -/

/-- How a block ends once its body has ended with `result` and its exit with `exited`: as its body,
    unless the exit fails. -/
def blockResult {α : Type} (result : Except Failure α) : Except Failure Unit → Except Failure α
  | .ok _ => result
  | .error later =>
    match result with
    | .ok _ => .error later
    | .error earlier => .error (later.whileHandling earlier)

/-- Runs `body` between `enter` and `exit`.  A block that is not entered has no body and no exit. -/
def block {m : Type → Type} [Monad m] {α : Type} (enter exit : m (Except Failure Unit))
    (body : m (Except Failure α)) : m (Except Failure α) := do
  match ← enter with
  | .error f => return .error f
  | .ok () =>
    let result ← body
    let exited ← exit
    return blockResult result exited

/-- Runs `body` between entering and leaving.  The body may be anything that the surroundings of
    the operations can do; `perform` runs a single operation there. -/
def within {m : Type → Type} [Monad m] {α : Type}
    (perform : Op Unit → m (Except Failure Unit)) (s : Semaphore)
    (body : m (Except Failure α)) : m (Except Failure α) :=
  block (perform s.enter) (perform s.exit) body

/-- The semaphore as others see it; `identity` tells it from all others. -/
def toValue (s : Semaphore) (identity : Nat) : Value :=
  .semaphore s.className s.name s.timeout identity

end Semaphore

end Permits
