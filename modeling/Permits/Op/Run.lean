/-
  Running operations.

  1. **`run`** answers every request at once.  How requests are answered may depend on a state of
     any kind, which each answer may change.
  2. **`proceed`** stops at the first request that is not answered, and what is left is an operation
     again.  So a suspended caller is a value, and **`reply`** lets it go on.

  A sequence of two operations runs as the first and then the second (`run_bind`).
-/
import Permits.Op.Basic

namespace Permits.Op

variable {α β σ : Type}

/-- Runs an operation to its end, every request being answered at once. -/
def run (answer : (r : Request) → σ → r.Answer × σ) : Op α → σ → Except Failure α × σ
  | done result, s => (result, s)
  | ask r next, s =>
    let (a, s) := answer r s
    (next a).run answer s

/-- Runs an operation up to its end or to the first request that is not answered. -/
def proceed (answer : (r : Request) → σ → Option r.Answer × σ) : Op α → σ → Op α × σ
  | done result, s => (done result, s)
  | ask r next, s =>
    match answer r s with
    | (some a, s) => (next a).proceed answer s
    | (none, s) => (ask r next, s)

/-- The reply to the command that an operation waits for. -/
def reply (reply : Except Failure Value) : Op α → Op α
  | ask (.command ..) next => next reply
  | op => op

/-! ## Running a sequence -/

/-- The second operation of a sequence runs where the first one ended, unless that failed. -/
theorem run_bind (answer : (r : Request) → σ → r.Answer × σ) (op : Op α) (f : α → Op β) (s : σ) :
    (op >>= f).run answer s =
      match op.run answer s with
      | (.ok a, s) => (f a).run answer s
      | (.error e, s) => (.error e, s) := by
  induction op generalizing s with
  | done result => cases result <;> rfl
  | ask r next ih => exact ih (answer r s).1 (answer r s).2

end Permits.Op
