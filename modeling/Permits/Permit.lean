/-
  Permits — releasing and acquiring.

  A semaphore is a list, and each of its entries is one permit.  To **release** is to push an entry;
  to **acquire** is to pop one, waiting for a bounded time.  The store gives each entry to one
  caller only, which is all the mutual exclusion that a semaphore needs, so nothing is kept between
  two operations.

  An acquire is timed (`timed`): when it ends with a result it leaves one record, with the
  milliseconds that it took.  The timer counts as started when its first reading is not zero, and
  one that was not started fails when it is stopped, whatever it timed.

  Both operations are written twice, for callers that wait on the spot (`Direct`) and for those that
  await (`Awaited`); the style of the store selects one of them, and they are equal to one form
  (`releaseTo_eq`, `acquireFrom_eq`).
-/
import Permits.ListStore

namespace Permits

open Number

/-- The entry that stands for a permit; nobody looks at it. -/
def permit : Value := .text "1"

/-! ## Timing -/

/-- The milliseconds between two looks at the clock, to the nearest integer. -/
def elapsed (start stop : Double) : Except Failure Int :=
  match ((stop.sub start).mul (.ofInt 1000)).round with
  | .ok n => .ok n
  | .error reason => .error (.integerUnbounded reason)

/-- The end of what was timed, once the timer that was started at `start` is stopped. -/
def stopped {α : Type} (start : Double) (result : Except Failure α) : Except Failure α :=
  if start.isZero then
    match result with
    | .ok _ => .error .timerNotStarted
    | .error f => .error (.during f .timerNotStarted)
  else result

/-- A timer that counts as started changes nothing. -/
theorem stopped_of_ne_zero {α : Type} {start : Double} (h : start.isZero = false)
    (result : Except Failure α) : stopped start result = result := by
  simp [stopped, h]

/-- What is stopped well ended well. -/
theorem stopped_eq_ok {α : Type} {start : Double} {r : Except Failure α} {a : α}
    (h : stopped start r = .ok a) : r = .ok a := by
  unfold stopped at h
  split at h
  · split at h <;> cases h
  · exact h

/-- The record of an acquire: `Value.none` means that it was in vain. -/
def outcome (name : Name) (entry : Value) (milliseconds : Int) : Record :=
  match entry with
  | .none => .timedOut name milliseconds
  | _ => .acquired name milliseconds

/-- Times a pop and records how it ended.  The pop tells the name of its list as well. -/
def timed (pop : Op (Name × Value)) : Op Value := do
  let start ← .clock
  let result ← pop.attempt
  let stop ← .clock
  let (name, entry) ← .ofExcept (stopped start result)
  let milliseconds ← .ofExcept (elapsed start stop)
  .log (outcome name entry milliseconds)
  return entry

/-! ## Releasing and acquiring -/

namespace Direct

/-- Makes one more permit available; the result is the store's reply to the push. -/
def release (store : ListStore) (name : Except Failure Name) : Op Value := store.pushTo name permit

/-- Takes one permit; the timer runs before the name is looked at. -/
def acquire (store : ListStore) (name : Except Failure Name) (duration : Value) : Op Value :=
  timed do
    let entry ← store.blockingPopFrom name duration
    let name ← .ofExcept name
    return (name, entry)

end Direct

namespace Awaited

/-- Makes one more permit available; the result is the store's reply to the push. -/
def release (store : ListStore) (name : Except Failure Name) : Op Value :=
  .coroutine (store.pushTo name permit)

/-- Takes one permit; the timer runs before the name is looked at. -/
def acquire (store : ListStore) (name : Except Failure Name) (duration : Value) : Op Value :=
  .coroutine <| timed do
    let entry ← store.blockingPopFrom name duration
    let name ← .ofExcept name
    return (name, entry)

end Awaited

/-- Makes one more permit available where the name may yet be refused. -/
def releaseTo (store : ListStore) (name : Except Failure Name) : Op Value :=
  match store.style with
  | .direct => Direct.release store name
  | .awaited => Awaited.release store name

/-- Makes one more permit available; the result is the store's reply to the push. -/
def release (store : ListStore) (name : Name) : Op Value := releaseTo store (.ok name)

/-- Acquires a permit where the name may yet be refused; the timer runs by then. -/
def acquireFrom (store : ListStore) (name : Except Failure Name) (duration : Value) : Op Value :=
  match store.style with
  | .direct => Direct.acquire store name duration
  | .awaited => Awaited.acquire store name duration

/-- Takes one permit, waiting for it no longer than `duration`; the result is the popped entry, or
    `Value.none` when no permit arrived in time. -/
def acquire (store : ListStore) (name : Name) (duration : Value) : Op Value :=
  acquireFrom store (.ok name) duration

/-- Takes one permit of the semaphore with the name that a value writes. -/
def acquireNamed (store : ListStore) (name duration : Value) : Op Value :=
  acquireFrom store (Name.check name) duration

/-! ## One form for both -/

section Forms

variable (store : ListStore)

/-- What a handle that awaits does is done by coroutines already. -/
theorem coroutine_pushTo (h : store.style = .awaited) (name : Except Failure Name)
    (entry : Value) : Op.coroutine (store.pushTo name entry) = store.pushTo name entry := by
  unfold ListStore.pushTo
  rw [h]
  exact Op.coroutine_coroutine _

theorem coroutine_blockingPop (h : store.style = .awaited) (name : Name) (timeout : Value) :
    Op.coroutine (store.blockingPop name timeout) = store.blockingPop name timeout := by
  unfold ListStore.blockingPop ListStore.blockingPopFrom
  rw [h]
  exact Op.coroutine_coroutine _

theorem releaseTo_eq (name : Except Failure Name) :
    releaseTo store name = store.pushTo name permit := by
  unfold releaseTo
  cases h : store.style with
  | direct => rfl
  | awaited => exact coroutine_pushTo store h name permit

theorem release_eq (name : Name) : release store name = store.push name permit :=
  releaseTo_eq store (.ok name)

theorem releaseTo_check (name : Value) :
    releaseTo store (Name.check name) = .named name (release store) := by
  have form : release store = fun n => store.push n permit := funext (release_eq store)
  rw [releaseTo_eq, form, ListStore.pushTo_check]

/-- Nothing that the timer refuses is reserved for iteration. -/
theorem received_elapsed (s : Style) (start stop : Double) :
    s.received (elapsed start stop) = elapsed start stop := by
  refine Style.received_of_endsIteration (fun f hf => ?_) s
  unfold elapsed at hf
  split at hf <;> cases hf
  exact Failure.endsIteration_of_isOwn rfl

theorem received_stopped {α : Type} (s : Style) (start : Double) (r : Except Failure α) :
    s.received (stopped start (s.received r)) = stopped start (s.received r) := by
  unfold stopped
  split
  · -- The timer's own failure takes the place of any other.
    have own : Failure.timerNotStarted.endsIteration = false := Failure.endsIteration_of_isOwn rfl
    split <;> exact Style.received_of_endsIteration (fun f hf => by cases hf; exact own) s
  · exact Style.received_received s r

/-- To time a coroutine is a coroutine. -/
theorem coroutine_timed {pop : Op (Name × Value)} (h : Op.coroutine pop = pop) :
    Op.coroutine (timed pop) = timed pop := by
  rw [← h]
  simp only [timed, Op.attempt_coroutine, Op.coroutine_bind, Op.coroutine_clock, Op.coroutine_log,
    Op.coroutine_attempt, Op.coroutine_ofExcept, Op.coroutine_pure, bind_assoc, pure_bind,
    received_stopped, received_elapsed]

/-- A pop that looks at the name itself, and one of the name that was found. -/
theorem pop_eq (name : Except Failure Name) (duration : Value) :
    (do
      let entry ← store.blockingPopFrom name duration
      let name ← .ofExcept name
      return (name, entry) : Op (Name × Value)) = (do
      let name ← .ofExcept (store.style.received name)
      let entry ← store.blockingPop name duration
      return (name, entry)) := by
  cases name with
  | ok name => rfl
  | error f =>
    rw [store.blockingPopFrom_eq]
    rfl

theorem acquireFrom_eq (name : Except Failure Name) (duration : Value) :
    acquireFrom store name duration = (timed do
      let name ← .ofExcept (store.style.received name)
      let entry ← store.blockingPop name duration
      return (name, entry)) := by
  unfold acquireFrom
  cases h : store.style with
  | direct => simp only [Direct.acquire, pop_eq, h]
  | awaited =>
    simp only [Awaited.acquire, pop_eq, h]
    refine coroutine_timed ?_
    simp only [Op.coroutine_bind, Op.coroutine_ofExcept, Style.received_received,
      coroutine_blockingPop store h, Op.coroutine_pure]

/-- A permit of a name that is known to be one. -/
theorem acquire_eq (name : Name) (duration : Value) :
    acquire store name duration = (timed do
      let entry ← store.blockingPop name duration
      return (name, entry)) :=
  acquireFrom_eq store (.ok name) duration

/-- Where a value writes a name, acquiring by the value is acquiring by the name. -/
theorem acquireNamed_of_check {name : Value} {n : Name} (h : Name.check name = .ok n)
    (duration : Value) : acquireNamed store name duration = acquire store n duration := by
  rw [acquireNamed, h, acquire]

end Forms

end Permits
