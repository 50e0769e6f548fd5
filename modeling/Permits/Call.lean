/-
  Calls — everything that callers ask this library for.

  A call (`Call`) names one operation of a store's handle, of a semaphore or of a registrar, together
  with its arguments, which may be any values.  `Call.Result` is the type of its result, and
  `Call.op` the operation that it is.
-/
import Permits.Registry
import Permits.Semaphore.Minting

namespace Permits

/-- One operation with its arguments. -/
inductive Call where
  | push (store : ListStore) (name entry : Value)
  | blockingPop (store : ListStore) (name timeout : Value)
  | length (store : ListStore) (name : Value)
  | release (store : ListStore) (name : Value)
  | acquire (store : ListStore) (name duration : Value)
  /-- Make a semaphore for a name that exists already. -/
  | create (options : Semaphore.Options) (name : Value)
  /-- Make a semaphore with a fresh name and some permits. -/
  | mint (options : Semaphore.Options) (source : SourceRef) (value : Value)
  | value (semaphore : Semaphore)
  | locked (semaphore : Semaphore)
  | acquirePermit (semaphore : Semaphore) (blocking timeout : Value)
  | releasePermits (semaphore : Semaphore) (count : Value)
  | enter (semaphore : Semaphore)
  | exit (semaphore : Semaphore)
  /-- Register the commands of a store. -/
  | register (registrar : Registrar) (store : ListStore) (source : SourceRef)
  /-- Run a registered command. -/
  | command (registrar : Registrar) (name : Value) (args : List Value)

namespace Call

/-- The type of a call's result. -/
abbrev Result : Call → Type
  | push .. | blockingPop .. | release .. | acquire .. | releasePermits .. | command .. => Value
  | length .. | value _ => Int
  | locked _ | acquirePermit .. => Bool
  | enter _ | exit _ => Unit
  | create .. | mint .. => Semaphore
  | register .. => Except Failure Unit × Registrar

/-- The operation that a call is.  A name is looked at by the operation itself. -/
def op : (c : Call) → Op c.Result
  | push store name entry => store.pushTo (Name.check name) entry
  | blockingPop store name timeout => store.blockingPopFrom (Name.check name) timeout
  | length store name => store.lengthOf (Name.check name)
  | release store name => releaseTo store (Name.check name)
  | acquire store name duration => acquireNamed store name duration
  | create options name => Semaphore.create options name
  | mint options source count => Semaphore.mint options source count
  | value s => s.value
  | locked s => s.locked
  | acquirePermit s blocking timeout => s.acquire blocking timeout
  | releasePermits s count => s.release count
  | enter s => s.enter
  | exit s => s.exit
  | register r store source => r.offer (semaphoreCommands store source)
  | command r name args => r.call name args

/-! ## Calls with names

A call that is given a name is the operation on the name, if there is one. -/

theorem op_push (store : ListStore) (name entry : Value) :
    (push store name entry).op = .named name (store.push · entry) :=
  store.pushTo_check name entry

theorem op_blockingPop (store : ListStore) (name timeout : Value) :
    (blockingPop store name timeout).op = .named name (store.blockingPop · timeout) :=
  store.blockingPopFrom_check name timeout

theorem op_length (store : ListStore) (name : Value) :
    (length store name).op = .named name store.length :=
  store.lengthOf_check name

theorem op_release (store : ListStore) (name : Value) :
    (release store name).op = .named name (Permits.release store) :=
  releaseTo_check store name

end Call

end Permits
