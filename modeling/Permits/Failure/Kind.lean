/-
  Kinds of failures — what a failure is, and what else it counts as.

  1. **A kind** (`Kind`) is told by its path, and knows the paths of all kinds that it is derived
     from.  Whoever handles failures of some kind handles those of derived ones as well (`Kind.isA`).
     The name of a kind, which is all that messages show, is the last part of its path, so two kinds
     of one name need not have anything in common.
  2. **Lineage** (`Kind.lineage`): the kinds of the language and of this library, whose paths have one
     part.
  3. **A refusal** (`Refusal`): a kind and a text, for what is raised while something is looked at.
-/
namespace Permits

/-! ## Kinds -/

/-- A kind of failures. -/
structure Kind where
  path : String
  /-- The paths of all kinds that this one is derived from. -/
  bases : List String
  /-- What is reserved for the end of an iteration is something that programs handle. -/
  stop_ordinary : "StopIteration" ∈ path :: bases → "Exception" ∈ path :: bases
  deriving DecidableEq, Repr

namespace Kind

/-- The last part of a path. -/
def lastPart (path : String) : String :=
  .ofList (path.toList.reverse.takeWhile (· ≠ '.')).reverse

/-- The name by which messages know a kind. -/
def name (k : Kind) : String := lastPart k.path

/-- Is a kind the one of a path, or derived from it? -/
def isA (k : Kind) (path : String) : Bool := k.path == path || k.bases.contains path

/-! ## Lineage -/

/-- What all failures that a program is expected to handle are derived from. -/
def ordinary : List String := ["Exception", "BaseException"]

/-- Kinds that are not derived from the ordinary ones alone, by what they are derived from. -/
def derived : List (List String × List String) :=
  [(["BaseException"], []),
   (["Exception", "KeyboardInterrupt", "SystemExit", "GeneratorExit", "BaseExceptionGroup",
     "asyncio.CancelledError"], ["BaseException"]),
   (["ExceptionGroup"], "BaseExceptionGroup" :: ordinary),
   (["FloatingPointError", "OverflowError", "ZeroDivisionError"], "ArithmeticError" :: ordinary),
   (["IndexError", "KeyError"], "LookupError" :: ordinary),
   (["ModuleNotFoundError"], "ImportError" :: ordinary),
   (["UnboundLocalError"], "NameError" :: ordinary),
   (["NotImplementedError", "RecursionError"], "RuntimeError" :: ordinary),
   (["IndentationError"], "SyntaxError" :: ordinary),
   (["TabError"], "IndentationError" :: "SyntaxError" :: ordinary),
   (["UnicodeError"], "ValueError" :: ordinary),
   (["UnicodeDecodeError", "UnicodeEncodeError", "UnicodeTranslateError"],
     "UnicodeError" :: "ValueError" :: ordinary),
   (["BlockingIOError", "ChildProcessError", "ConnectionError", "FileExistsError",
     "FileNotFoundError", "InterruptedError", "IsADirectoryError", "NotADirectoryError",
     "PermissionError", "ProcessLookupError", "TimeoutError"], "OSError" :: ordinary),
   (["BrokenPipeError", "ConnectionAbortedError", "ConnectionRefusedError",
     "ConnectionResetError"], "ConnectionError" :: "OSError" :: ordinary),
   (["RandomnessError"], "SemaphoreError" :: ordinary),
   (["SemaphoreTimeoutError"], "SemaphoreError" :: "TimeoutError" :: "OSError" :: ordinary),
   (["UnknownCommandError"], "SemaphoreError" :: "KeyError" :: "LookupError" :: ordinary),
   (["CommandRegistrationError"], "SemaphoreError" :: "ValueError" :: ordinary)]

/-- The kinds that the one of a path is derived from. -/
def lineage (path : String) : List String :=
  match derived.find? fun row => row.1.contains path with
  | some row => row.2
  | none => ordinary

theorem stop_ordinary_lineage (path : String) (h : "StopIteration" ∈ path :: lineage path) :
    "Exception" ∈ path :: lineage path := by
  rcases List.mem_cons.mp h with rfl | h
  · decide +kernel
  · -- Nothing in the table is derived from the kind that is reserved for iteration.
    have apart : ∀ row ∈ derived, "StopIteration" ∉ row.2 := by decide +kernel
    unfold lineage at h
    split at h
    · next row found => exact absurd h (apart row (List.mem_of_find?_eq_some found))
    · exact absurd h (by decide)

/-- The kind of a path. -/
def of (path : String) : Kind := ⟨path, lineage path, stop_ordinary_lineage path⟩

instance : Inhabited Kind := ⟨of "Exception"⟩

/-- What is reserved for the end of an iteration is an ordinary failure. -/
theorem isA_exception_of_isA_stop {k : Kind} (h : k.isA "StopIteration" = true) :
    k.isA "Exception" = true := by
  have listed : ∀ path : String, k.isA path = true ↔ path ∈ k.path :: k.bases := by
    intro path
    rw [isA, Bool.or_eq_true, beq_iff_eq, List.contains_iff_mem, List.mem_cons, eq_comm]
  exact (listed _).mpr (k.stop_ordinary ((listed _).mp h))

example : (of "redis.TimeoutError").name = "TimeoutError" := by decide +kernel
example : (of "redis.TimeoutError").isA "TimeoutError" = false := by decide +kernel
example : (of "SemaphoreTimeoutError").isA "TimeoutError" = true := by decide +kernel

end Kind

/-! ## Refusals -/

/-- What is raised where something is looked at that does not bear it. -/
structure Refusal where
  kind : Kind
  message : String
  deriving DecidableEq, Repr, Inhabited

end Permits
