/-
  Operations — what a caller does, as a tree of requests.

  1. **Requests** (`Request`): a command for a store, a look at the clock, a record for the log, a
     random draw, and a connection to a store.  `Request.Answer` is the type of the answer.
  2. **Operations** (`Op`): either done, with a result or a failure, or a request together with
     what is to be done for each answer.  An operation holds no state: who runs it decides how
     requests are answered, when time passes, and in which order operations take turns.
  3. **Operations in sequence**: `Op` is a lawful monad; a failure ends everything behind it.
  4. **Coroutines** (`coroutine`): an operation that is awaited as a whole.  It asks for the same, and
     only its end may look different; so the parts of a coroutine may be taken for coroutines
     themselves (`coroutine_bind`).
-/
import Permits.Record

namespace Permits

open Number

/-! ## Requests -/

/-- A client that is built to reach a store: at its default address, or at a URL with options. -/
structure Connection where
  style : Style
  url : Option Value
  options : List (String × Value)
  deriving Repr, Inhabited

namespace Connection

/-- The name of the client's class. -/
def className (c : Connection) : String :=
  match c.style with
  | .direct => "Redis"
  | .awaited => "AIORedis"

/-- What runs the client's commands. -/
def executor (c : Connection) : Executor := ⟨c.className, c.style⟩

end Connection

/-- The source of random draws: the system's, or the one that a number refers to. -/
inductive SourceRef where
  | system
  | given (number : Nat)
  deriving DecidableEq, Repr, Inhabited

/-- What an operation asks of its surroundings. -/
inductive Request where
  | command (executor : Executor) (command : Command)
  | clock
  | log (record : Record)
  | draw (source : SourceRef) (stop : Nat)
  | connect (connection : Connection)
  deriving Repr, Inhabited

/-- The type of the answer to a request. -/
abbrev Request.Answer : Request → Type
  | command .. => Except Failure Value
  | clock => Double
  | log _ => Unit
  | draw .. => Except Failure Value
  | connect _ => Unit

/-! ## Operations -/

/-- An operation that ends with a result of type `α` or with a failure. -/
inductive Op (α : Type) where
  | done (result : Except Failure α)
  | ask (request : Request) (next : request.Answer → Op α)

namespace Op

variable {α β σ : Type}

def ok (a : α) : Op α := done (.ok a)

def fail (f : Failure) : Op α := done (.error f)

/-- The request alone. -/
def request (r : Request) : Op r.Answer := ask r ok

/-- The operation that continues with the result of the first; a failure ends both. -/
def bind : Op α → (α → Op β) → Op β
  | done (.ok a), f => f a
  | done (.error e), _ => done (.error e)
  | ask r next, f => ask r fun answer => (next answer).bind f

instance : Monad Op where
  pure := ok
  bind := bind

/-- The operation whose failure is a result. -/
def attempt : Op α → Op (Except Failure α)
  | done result => done (.ok result)
  | ask r next => ask r fun answer => (next answer).attempt

/-- The result of a check. -/
def ofExcept (result : Except Failure α) : Op α := done result

/-- The operation on the name that a value writes; a value that is no name ends it at once. -/
def named (name : Value) (op : Name → Op α) : Op α := bind (ofExcept (Name.check name)) op

/-- Asks for an answer that may be a failure, which then ends the operation. -/
def askFor (r : Request) (received : r.Answer → Except Failure α) : Op α :=
  ask r fun answer => done (received answer)

/-- The operation as it is for whoever awaits it. -/
def coroutine (op : Op α) : Op α := bind op.attempt fun result => ofExcept (Style.awaited.received result)

/-- The operation as it is for callers who wait for it in some style. -/
def waitedFor (style : Style) (op : Op α) : Op α :=
  match style with
  | .direct => op
  | .awaited => op.coroutine

def clock : Op Double := request .clock

def log (record : Record) : Op Unit := request (.log record)

/-- The operation `n` times in a row, with the results in order. -/
def times : Nat → Op α → Op (List α)
  | 0, _ => ok []
  | n + 1, op => do
    let a ← op
    let as ← times n op
    return a :: as

/-! ## Laws of sequence -/

@[simp] theorem ok_bind (a : α) (f : α → Op β) : ok a >>= f = f a := rfl

@[simp] theorem fail_bind (e : Failure) (f : α → Op β) : fail e >>= f = fail e := rfl

@[simp] theorem ask_bind (r : Request) (next : r.Answer → Op α) (f : α → Op β) :
    ask r next >>= f = ask r fun answer => next answer >>= f := rfl

theorem bind_ok (op : Op α) : op >>= ok = op := by
  induction op with
  | done result => cases result <;> rfl
  | ask r next ih => exact congrArg (ask r) (funext ih)

theorem bind_assoc {γ : Type} (op : Op α) (f : α → Op β) (g : β → Op γ) :
    op >>= f >>= g = op >>= fun a => f a >>= g := by
  induction op with
  | done result => cases result <;> rfl
  | ask r next ih => exact congrArg (ask r) (funext ih)

instance : LawfulMonad Op :=
  .mk' Op (fun op => bind_ok op) (fun _ _ => rfl) (fun op f g => bind_assoc op f g)

/-! ## Laws of coroutines -/

@[simp] theorem coroutine_ofExcept (result : Except Failure α) :
    coroutine (ofExcept result) = ofExcept (Style.awaited.received result) := rfl

/-- A check that refuses by itself refuses the same in a coroutine. -/
theorem coroutine_check {result : Except Failure α}
    (h : ∀ f, result = .error f → f.isOwn = true) : coroutine (ofExcept result) = ofExcept result := by
  rw [coroutine_ofExcept,
    Style.received_of_endsIteration fun f hf => Failure.endsIteration_of_isOwn (h f hf)]

theorem coroutine_fail {f : Failure} (h : f.isOwn = true) : coroutine (fail f : Op α) = fail f :=
  coroutine_check fun _ he => by
    cases he
    exact h

@[simp] theorem coroutine_pure (a : α) : coroutine (pure a : Op α) = pure a := rfl

@[simp] theorem coroutine_clock : coroutine clock = clock := rfl

@[simp] theorem coroutine_log (record : Record) : coroutine (log record) = log record := rfl

@[simp] theorem coroutine_askFor (r : Request) (received : r.Answer → Except Failure α) :
    coroutine (askFor r received) = askFor r fun answer => Style.awaited.received (received answer) :=
  rfl

/-- **A coroutine is made of coroutines.** -/
theorem coroutine_bind (op : Op α) (f : α → Op β) :
    coroutine (op >>= f) = coroutine op >>= fun a => coroutine (f a) := by
  induction op with
  | done result => cases result <;> rfl
  | ask r next ih => exact congrArg (ask r) (funext ih)

/-- A failure that is a result already does not leave anything. -/
@[simp] theorem coroutine_attempt (op : Op α) : coroutine op.attempt = op.attempt := by
  induction op with
  | done result => rfl
  | ask r next ih => exact congrArg (ask r) (funext ih)

theorem attempt_coroutine (op : Op α) :
    (coroutine op).attempt = op.attempt >>= fun result => pure (Style.awaited.received result) := by
  induction op with
  | done result => rfl
  | ask r next ih => exact congrArg (ask r) (funext ih)

@[simp] theorem coroutine_coroutine (op : Op α) : coroutine (coroutine op) = coroutine op := by
  induction op with
  | done result => exact congrArg done (Style.awaited.received_received result)
  | ask r next ih => exact congrArg (ask r) (funext ih)

theorem coroutine_times {op : Op α} (h : coroutine op = op) :
    ∀ n, coroutine (times n op) = times n op
  | 0 => rfl
  | n + 1 => by
    simp only [times, coroutine_bind, coroutine_pure, h, coroutine_times h n]

end Op

end Permits
