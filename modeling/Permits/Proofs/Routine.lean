/-
  Routines — what a program does with calls and blocks.

  A routine (`Routine`) is a program that uses this library: it makes calls, runs blocks, and decides
  on each result how to go on.  A block's body is a routine again, so blocks are nested to any depth.
  What a call or a block fails with is a result like any other, so a routine may handle a failure
  or end with it.

  `Routine.course` is the course of a routine.  A block runs through `Semaphore.within`; the moments
  around its body are marked from inside, and every call is marked when it returns.
-/
import Permits.Proofs.Course

namespace Permits

/-- Can an operation end so, with some answers or other? -/
def Op.Ends {α : Type} : Op α → Except Failure α → Prop
  | done result, r => r = result
  | ask _ next, r => ∃ a, (next a).Ends r

/-- A program that makes calls and runs blocks. -/
inductive Routine where
  /-- The end, with or without a failure. -/
  | ends (result : Except Failure Unit)
  | call (call : Call) (next : Except Failure call.Result → Routine)
  | within (semaphore : Semaphore) (body : Routine) (next : Except Failure Unit → Routine)

namespace Routine

/-- The body of a block, with the moments at which it begins and ends. -/
def inside (s : Semaphore) (body : Course (Except Failure Unit)) : Course (Except Failure Unit) := do
  Course.moment (.entered s)
  let result ← body
  Course.moment (.left s result)
  return result

/-- A block, with the moments at which a caller turns to it and is through with it. -/
def block (s : Semaphore) (body : Course (Except Failure Unit)) : Course (Except Failure Unit) := do
  Course.moment (.opened s)
  let result ← s.within Course.perform (inside s body)
  Course.moment (.closed s result)
  return result

/-- What a caller with this program does. -/
def course : Routine → Course (Except Failure Unit)
  | ends result => .done result
  | call c next => do
    let result ← Course.perform c.op
    Course.moment (.returned c result)
    (next result).course
  | within s body next => do
    let result ← block s body.course
    (next result).course

/-- Are all calls of a routine of some kind?  Its blocks may be anything, and only such results of
    a call count as the call can have at all. -/
def Only (P : Call → Prop) : Routine → Prop
  | ends _ => True
  | call c next => P c ∧ ∀ result, c.op.Ends result → (next result).Only P
  | within _ body next => body.Only P ∧ ∀ result, (next result).Only P

theorem Only.mono {P Q : Call → Prop} {p : Routine} (h : p.Only P) (hpq : ∀ c, P c → Q c) :
    p.Only Q := by
  induction p with
  | ends result => trivial
  | call c next ih => exact ⟨hpq c h.1, fun r hr => ih r (h.2 r hr)⟩
  | within s body next ihb ihn => exact ⟨ihb h.1, fun r => ihn r (h.2 r)⟩

end Routine

end Permits
