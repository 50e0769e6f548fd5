/-
  Courses — what a caller does, one request after the other.

  An operation (`Op`) is a tree of requests.  A caller goes through many operations, and what there
  is to say about callers speaks of moments that no request shows: a block is entered, a call has
  returned.  A **course** (`Course`) is a tree of requests in which such moments are marked.

  1. **Moments and events**: an event is a request with its answer, or a moment.
  2. **`perform`** makes an operation part of a course; its failure is a result there.
  3. **`run`** goes through a course in surroundings that answer every request at once, and keeps
     the events in order.
  4. **Laws**: courses are a lawful monad, and `perform` and `run` respect sequence.
-/
import Permits.Call
import Permits.Op.Run

namespace Permits

/-! ## Moments and events -/

/-- A moment that no request shows. -/
inductive Moment where
  /-- A caller turns to a block. -/
  | opened (semaphore : Semaphore)
  /-- The body of a block begins. -/
  | entered (semaphore : Semaphore)
  /-- The body of a block has ended. -/
  | left (semaphore : Semaphore) (result : Except Failure Unit)
  /-- A block has ended, with its body or without. -/
  | closed (semaphore : Semaphore) (result : Except Failure Unit)
  | returned (call : Call) (result : Except Failure call.Result)

/-- What a caller does, up to its result. -/
inductive Course (α : Type) where
  | done (result : α)
  | ask (request : Request) (next : request.Answer → Course α)
  | mark (moment : Moment) (next : Course α)

namespace Course

variable {α β γ σ : Type}

/-- A step of a course as it went. -/
inductive Event where
  | answer (request : Request) (answer : request.Answer)
  | moment (moment : Moment)

/-- The course that continues with the result of the first. -/
def bind : Course α → (α → Course β) → Course β
  | done a, f => f a
  | ask r next, f => ask r fun answer => (next answer).bind f
  | mark m next, f => mark m (next.bind f)

instance : Monad Course where
  pure := done
  bind := bind

/-- The moment alone. -/
def moment (m : Moment) : Course Unit := mark m (done ())

/-- An operation as part of a course. -/
def perform : Op α → Course (Except Failure α)
  | .done result => done result
  | .ask r next => ask r fun answer => perform (next answer)

/-! ## Running -/

/-- How a run went: the events in order, the result, and the state that is left. -/
structure Run (σ α : Type) where
  events : List Event
  result : α
  state : σ

/-- A run with one more event at its beginning. -/
def Run.after (e : Event) (r : Run σ α) : Run σ α := { r with events := e :: r.events }

/-- Goes through a course, every request being answered at once. -/
def run (answer : (r : Request) → σ → r.Answer × σ) : Course α → σ → Run σ α
  | done a, s => ⟨[], a, s⟩
  | ask r next, s => ((next (answer r s).1).run answer (answer r s).2).after (.answer r (answer r s).1)
  | mark m next, s => (next.run answer s).after (.moment m)

/-! ## Laws -/

theorem bind_done (p : Course α) : p >>= done = p := by
  induction p with
  | done a => rfl
  | ask r next ih => exact congrArg (ask r) (funext ih)
  | mark m next ih => exact congrArg (mark m) ih

theorem bind_assoc (p : Course α) (f : α → Course β) (g : β → Course γ) :
    p >>= f >>= g = p >>= fun a => f a >>= g := by
  induction p with
  | done a => rfl
  | ask r next ih => exact congrArg (ask r) (funext ih)
  | mark m next ih => exact congrArg (mark m) ih

instance : LawfulMonad Course :=
  .mk' Course (fun p => bind_done p) (fun _ _ => rfl) (fun p f g => bind_assoc p f g)

/-- The second course of a sequence runs where the first one ended. -/
theorem run_bind (answer : (r : Request) → σ → r.Answer × σ) (p : Course α) (f : α → Course β)
    (s : σ) :
    (p >>= f).run answer s =
      let first := p.run answer s
      let second := (f first.result).run answer first.state
      { second with events := first.events ++ second.events } := by
  induction p generalizing s with
  | done a => rfl
  | ask r next ih => exact congrArg (Run.after _) (ih (answer r s).1 (answer r s).2)
  | mark m next ih => exact congrArg (Run.after _) (ih s)

/-- How a course goes on after an operation: with its result, or not at all. -/
def onOk (f : α → Course (Except Failure β)) : Except Failure α → Course (Except Failure β)
  | .ok a => f a
  | .error e => done (.error e)

/-- A sequence of operations is performed as the first and then the second. -/
theorem perform_bind (op : Op α) (f : α → Op β) :
    perform (op >>= f) = perform op >>= onOk fun a => perform (f a) := by
  induction op with
  | done result => cases result <;> rfl
  | ask r next ih => exact congrArg (ask r) (funext ih)

theorem perform_attempt (op : Op α) : perform op.attempt = perform op >>= fun r => done (.ok r) := by
  induction op with
  | done result => rfl
  | ask r next ih => exact congrArg (ask r) (funext ih)

/-- A run with more events at its beginning. -/
def Run.behind (es : List Event) (r : Run σ α) : Run σ α := { r with events := es ++ r.events }

/-- A sequence of operations runs as the first, and then as the second if the first ended well. -/
theorem run_perform_bind (answer : (r : Request) → σ → r.Answer × σ) (op : Op α) (f : α → Op β)
    (s : σ) :
    (perform (op >>= f)).run answer s =
      match (perform op).run answer s with
      | ⟨es, .ok a, s⟩ => ((perform (f a)).run answer s).behind es
      | ⟨es, .error e, s⟩ => ⟨es, .error e, s⟩ := by
  rw [perform_bind, run_bind]
  generalize (perform op).run answer s = first
  obtain ⟨es, result, s⟩ := first
  cases result with
  | ok a => rfl
  | error e => exact congrArg (Run.mk · _ _) (List.append_nil es)

/-- Whoever waits for an operation sees it run, and gets its end as that arrives. -/
theorem run_waitedFor (answer : (r : Request) → σ → r.Answer × σ) (w : Style) (op : Op α) (s : σ) :
    (perform (op.waitedFor w)).run answer s =
      { (perform op).run answer s with result := w.received ((perform op).run answer s).result } := by
  cases w with
  | direct =>
    rw [Style.received_direct]
    rfl
  | awaited =>
    induction op generalizing s with
    | done result => rfl
    | ask r next ih => exact congrArg (Run.after _) (ih (answer r s).1 (answer r s).2)

/-- Performing an operation is running it. -/
theorem run_perform (answer : (r : Request) → σ → r.Answer × σ) (op : Op α) (s : σ) :
    ((perform op).run answer s).result = (op.run answer s).1 ∧
      ((perform op).run answer s).state = (op.run answer s).2 := by
  induction op generalizing s with
  | done result => exact ⟨rfl, rfl⟩
  | ask r next ih => exact ih (answer r s).1 (answer r s).2

end Course

end Permits
