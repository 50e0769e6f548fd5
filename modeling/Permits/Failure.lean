/-
  Failures — every way in which an operation can end without a result.

  1. **The causes** (`Failure`): what was refused about a name, a duration, a count or a reply; what
     went wrong with a command, a draw, a timer or a block; and `raised`, whatever a store, a random
     source, a host or an object raises of its own.
  2. **The wording** (`kind`, `message`): the kind of a failure, and its text.  A failure whose text
     would have to show what cannot be written has none.
  3. **The circumstances** (`cause?`, `context?`): the failure that another one was made from, and
     the one that was being handled when it arose.
  4. **Leaving** (`leaving`): the failure that is reserved for the end of an iteration leaves no
     suspended body as it is.

  Failures from outside pass through unchanged, so `raised` keeps the kind, the arguments and the text
  that it was raised with.
-/
import Permits.Failure.Raised

namespace Permits

open Number Text

/-- What suspends its body: something that is awaited, or that is iterated over. -/
inductive Frame where
  | coroutine
  | generator
  deriving DecidableEq, Repr, Inhabited

def Frame.word : Frame → String
  | coroutine => "coroutine"
  | generator => "generator"

/-- Why an operation has no result. -/
inductive Failure where
  /-- A semaphore's name is neither text nor bytes. -/
  | nameType (type : String)
  | nameEmpty
  /-- A duration is a truth value. -/
  | durationFlag
  | durationText (duration : Value)
  | durationType (type : String)
  | durationUnbounded (seconds : Double)
  | durationTooLarge
  | undecodable (fault : Utf8.Fault)
  /-- A semaphore was to start with a negative number of permits. -/
  | valueNegative
  /-- Fewer than one permit were to be released. -/
  | countTooSmall
  /-- Something cannot be compared with an integer. -/
  | unordered (relation type : String)
  /-- A count is not a whole number. -/
  | uncountable (type : String)
  /-- A reply that should be an integer is text without one. -/
  | integerText (shown : String)
  | integerDigits (count : Nat)
  | integerUnbounded (reason : Double.NoInteger)
  | integerType (type : String)
  /-- A reply that should be a pair is too short; `container` names it. -/
  | replyTooShort (container : String)
  | replyType (type : String)
  /-- A random source failed to draw a digit. -/
  | randomness (source : Failure)
  /-- A block was not entered in time. -/
  | timedOut (name timeout : Value)
  | unknownCommand (name : Value)
  | alreadyRegistered (name : Value)
  | unhashable (type : String)
  /-- A command was called with too few or too many arguments. -/
  | wrongArguments
  /-- An option has the name of an argument that has a place of its own. -/
  | repeatedArgument (function name : String)
  /-- A timer was stopped that did not count as started. -/
  | timerNotStarted
  /-- Something was awaited that is there already. -/
  | notAwaitable (type : String)
  /-- A suspended body was ended by a failure that is reserved for iteration. -/
  | stopped (frame : Frame) (source : Failure)
  /-- Whatever a store, a random source, a host or an object raises, and how it reads. -/
  | raised (kind : Kind) (args : List Value) (text : Except Refusal String)
  /-- `later` arose while `earlier` was being handled. -/
  | during (earlier later : Failure)
  deriving Repr, Inhabited

namespace Failure

/-! ## The kind of a failure -/

/-- The kind of a failure. -/
def kind : Failure → Kind
  | nameType _ | durationFlag | durationType _ | unordered .. | uncountable _ | integerType _
  | replyType _ | unhashable _ | wrongArguments | repeatedArgument .. | notAwaitable _ =>
    .of "TypeError"
  | nameEmpty | durationText _ | durationUnbounded _ | valueNegative | countTooSmall
  | integerText _ | integerDigits _ | integerUnbounded .nan => .of "ValueError"
  | durationTooLarge | integerUnbounded .infinite => .of "OverflowError"
  | undecodable _ => .of "UnicodeDecodeError"
  | replyTooShort _ => .of "IndexError"
  | randomness _ => .of "RandomnessError"
  | timedOut .. => .of "SemaphoreTimeoutError"
  | unknownCommand _ => .of "UnknownCommandError"
  | alreadyRegistered _ => .of "CommandRegistrationError"
  | timerNotStarted | stopped .. => .of "RuntimeError"
  | raised kind .. => kind
  | during _ later => later.kind

/-- Is a failure of the kind of a path, or of one that is derived from it? -/
def isA (f : Failure) (path : String) : Bool := f.kind.isA path

/-- Is the failure one that a program is expected to handle? -/
def isOrdinary (f : Failure) : Bool := f.isA "Exception"

/-- Is the failure reserved for the end of an iteration? -/
def endsIteration (f : Failure) : Bool := f.isA "StopIteration"

/-! ## The text of a failure -/

/-- The text of a failure, or why it has none. -/
def message : Failure → Except Refusal String
  | nameType type => .ok ("Semaphore name must be str, not " ++ type)
  | nameEmpty => .ok "Semaphore name must be non-empty"
  | durationFlag => .ok "duration must be a number of seconds, not a bool"
  | durationText d => do return "Invalid duration: " ++ (← d.shown)
  | durationType type => .ok ("duration must be seconds or a timedelta, not " ++ type)
  | durationUnbounded x => .ok ("duration must be finite, got " ++ x.text)
  | durationTooLarge => .ok "int too large to convert to float"
  | undecodable fault => .ok (Coding.faultText fault)
  | valueNegative => .ok "Semaphore value must be non-negative"
  | countTooSmall => .ok "n must be >= 1"
  | unordered relation type =>
    .ok ("'" ++ relation ++ "' not supported between instances of " ++
      Refusal.quotedType 100 type ++ " and 'int'")
  | uncountable type => .ok (Refusal.notIntegerText type)
  | integerText shown => .ok (Refusal.notIntegerLiteral shown).message
  | integerDigits count => .ok (Refusal.tooManyDigits count).message
  | integerUnbounded .infinite => .ok "cannot convert float infinity to integer"
  | integerUnbounded .nan => .ok "cannot convert float NaN to integer"
  | integerType type =>
    .ok ("int() argument must be a string, a bytes-like object or a real number, not " ++
      Refusal.quotedType 200 type)
  | replyTooShort container => .ok (container ++ "index out of range")
  | replyType type => .ok (Refusal.quotedType 200 type ++ " object is not subscriptable")
  | randomness source => do return "Randomness source failed: " ++ (← source.message)
  | timedOut name timeout => do
    return "Semaphore '" ++ (← name.displayed) ++ "' not acquired within " ++
      (← timeout.displayed) ++ "s"
  | unknownCommand name => do return "Unknown command: " ++ (← name.shown)
  | alreadyRegistered name => do return "Command " ++ (← name.shown) ++ " is already registered"
  | unhashable type => .ok ("unhashable type: " ++ Refusal.quotedType 200 type)
  | wrongArguments => .ok "wrong number of positional arguments"
  | repeatedArgument function name =>
    .ok (function ++ "() got multiple values for argument '" ++ name ++ "'")
  | timerNotStarted => .ok "timer hasn't yet been started"
  | notAwaitable type =>
    .ok ("object " ++ Utf8.clip 100 type ++ " can't be used in 'await' expression")
  | stopped frame _ => .ok (frame.word ++ " raised StopIteration")
  | raised _ _ text => text
  | during _ later => later.message

/-! ## The circumstances of a failure -/

/-- The failure that this one was made from. -/
def cause? : Failure → Option Failure
  | randomness source | stopped _ source => some source
  | during _ later => later.cause?
  | _ => none

/-- The failure that was being handled when this one arose; whatever is made of another failure
    arises while that one is handled. -/
def context? : Failure → Option Failure
  | randomness source | stopped _ source => some source
  | during earlier _ => some earlier
  | _ => none

/-- The failure as it is when it arises while `earlier` is being handled.  Of a failure that was made
    of another one, or arose while that was handled, it is that other one which `earlier` is the
    context of. -/
def whileHandling : Failure → Failure → Failure
  | randomness source, earlier => randomness (source.whileHandling earlier)
  | stopped frame source, earlier => stopped frame (source.whileHandling earlier)
  | during first later, earlier => during (first.whileHandling earlier) later
  | later, earlier => during earlier later

/-- A failure of a suspended body, as it is outside. -/
def leaving (frame : Frame) (f : Failure) : Failure :=
  if f.endsIteration then .stopped frame f else f

/-! ## What a failure carries -/

/-- The arguments that a failure carries: those it was raised with, or its text. -/
def args : Failure → List Value
  | raised _ args _ => args
  | unknownCommand name => [name]
  | during _ later => later.args
  | f => f.message.toOption.toList.map .text

/-- The semaphore's or command's name that a failure speaks of. -/
def name? : Failure → Option Value
  | timedOut name _ | unknownCommand name | alreadyRegistered name => some name
  | during _ later => later.name?
  | _ => none

/-- The seconds that were waited in vain. -/
def timeout? : Failure → Option Value
  | timedOut _ timeout => some timeout
  | during _ later => later.timeout?
  | _ => none

/-! ## Making failures -/

def ofRefusal (r : Refusal) : Failure := raised r.kind [.text r.message] (.ok r.message)

/-- The result of something that may be refused. -/
def orRefusal {α : Type} : Except Refusal α → Except Failure α
  | .ok a => .ok a
  | .error r => .error (ofRefusal r)

/-- A failure that is raised without any arguments, and so has nothing to say. -/
def bare (path : String) : Failure := raised (.of path) [] (.ok "")

/-- Something was looked up that is not there. -/
def missingKey (key : Value) : Failure := raised (.of "KeyError") [key] key.shown

/-- A failure that forms its text when it is made; it cannot be made without. -/
def told (f : Failure) : Failure :=
  match f.message with
  | .ok _ => f
  | .error refusal => ofRefusal refusal

/-- The failure of a kind of this library or of the language with some arguments, or the failure to
    raise it with them.  Kinds that form their own text are told apart. -/
def ofKind (path : String) (args : List Value) : Failure :=
  let path := Raised.System.canonical path args
  match Raised.describe path args with
  | .error refusal => ofRefusal refusal
  | .ok text =>
    match path, args with
    | "SemaphoreTimeoutError", [name, timeout] => (timedOut name timeout).told
    | "UnknownCommandError", [name] => unknownCommand name
    | "CommandRegistrationError", [name] => (alreadyRegistered name).told
    | path, args => raised (.of path) args text

/-! ## Laws -/

/-- Is a failure one of this library, and neither from outside nor one that arose while another one
    was being handled? -/
def isOwn : Failure → Bool
  | raised .. | during .. => false
  | _ => true

/-- The kinds of the failures that are raised here. -/
def ownKinds : List String :=
  ["TypeError", "ValueError", "OverflowError", "UnicodeDecodeError", "IndexError",
   "RandomnessError", "SemaphoreTimeoutError", "UnknownCommandError", "CommandRegistrationError",
   "RuntimeError"]

theorem kind_of_isOwn {f : Failure} (h : f.isOwn = true) : ∃ path ∈ ownKinds, f.kind = .of path := by
  cases f with
  | raised | during => cases h
  | integerUnbounded reason => cases reason <;> exact ⟨_, by simp [ownKinds], rfl⟩
  | _ => exact ⟨_, by simp [ownKinds], rfl⟩

/-- Nothing that this library raises is reserved for the end of an iteration. -/
theorem endsIteration_of_isOwn {f : Failure} (h : f.isOwn = true) : f.endsIteration = false := by
  have apart : ∀ path ∈ ownKinds, (Kind.of path).isA "StopIteration" = false := by decide +kernel
  obtain ⟨path, own, kind⟩ := kind_of_isOwn h
  rw [endsIteration, isA, kind]
  exact apart path own

/-- What leaves a suspended body is reserved for nothing, so it leaves the next one as it is. -/
theorem endsIteration_leaving (frame : Frame) (f : Failure) :
    (f.leaving frame).endsIteration = false := by
  unfold leaving
  split
  · exact endsIteration_of_isOwn rfl
  · next h => exact Bool.eq_false_iff.mpr h

/-- What is reserved for the end of an iteration is handled by programs. -/
theorem isOrdinary_of_endsIteration {f : Failure} (h : f.endsIteration = true) :
    f.isOrdinary = true :=
  Kind.isA_exception_of_isA_stop h

theorem leaving_of_endsIteration {frame : Frame} {f : Failure} (h : f.endsIteration = false) :
    f.leaving frame = f := by
  rw [leaving, h]
  rfl

theorem leaving_leaving (outer inner : Frame) (f : Failure) :
    (f.leaving inner).leaving outer = f.leaving inner :=
  leaving_of_endsIteration (f.endsIteration_leaving inner)

end Failure

end Permits
