/-
  Parameters — kinds of failures that have named arguments.

  Failures of semaphores, of commands, and some of a store take their arguments by name, each in its
  place.  Whoever gives too few or too many is told how many the kind takes, with the failure itself
  counted as the first of them.
-/
import Permits.Failure.Refusal

namespace Permits.Raised

/-- The arguments that a kind takes. -/
structure Parameters where
  /-- The kind that the arguments were laid down for. -/
  owner : String
  required : List String
  /-- How many more it may take. -/
  optional : Nat := 0

/-- The arguments of the kinds that have named ones. -/
def parameters? (kind : String) : Option Parameters :=
  match kind with
  | "SemaphoreTimeoutError" => some { owner := kind, required := ["name", "timeout"] }
  | "UnknownCommandError" | "CommandRegistrationError" => some { owner := kind, required := ["name"] }
  | "LockError" | "LockNotOwnedError" => some { owner := "LockError", required := [], optional := 3 }
  | "ClusterDownError" | "MasterDownError" =>
    some { owner := "ClusterDownError", required := ["resp"], optional := 1 }
  | "AskError" | "MovedError" =>
    some { owner := "AskError", required := ["resp"], optional := 1 }
  | _ => none

namespace Parameters

/-- How many arguments are taken at least and at most, the failure itself included. -/
def bounds (p : Parameters) : String :=
  let least := p.required.length + 1
  if p.optional = 0 then toString least
  else "from " ++ toString least ++ " to " ++ toString (least + p.optional)

/-- Arguments that are missing. -/
def missingText (missing : List String) : String :=
  "missing " ++ toString missing.length ++ " required positional argument" ++
    (if missing.length = 1 then "" else "s") ++ ": " ++
    " and ".intercalate (missing.map fun name => "'" ++ name ++ "'")

/-- Are there as many arguments as there may be? -/
def check (p : Parameters) (given : Nat) : Except Refusal Unit :=
  if given < p.required.length then
    .error (.ofType (p.owner ++ ".__init__() " ++ missingText (p.required.drop given)))
  else if p.required.length + p.optional < given then
    .error (.ofType (p.owner ++ ".__init__() takes " ++ p.bounds ++ " positional arguments but " ++
      toString (given + 1) ++ " were given"))
  else .ok ()

/-- Whatever is required is enough, and nothing beyond what is optional may be added. -/
theorem check_eq_ok_iff (p : Parameters) (given : Nat) :
    p.check given = .ok () ↔
      p.required.length ≤ given ∧ given ≤ p.required.length + p.optional := by
  unfold check
  split
  · simp; omega
  · split
    · simp; omega
    · simp; omega

end Parameters

end Permits.Raised
