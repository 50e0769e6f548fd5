/-
  Raised failures — kinds and arguments of failures that come from outside.

  A store, a random source or a host may raise any kind of failure with any arguments.

  1. **How it reads**: of no arguments the text is empty, of one it is the argument, and of more it
     is the row of them.  Missing keys, failures of the operating system, coding failures and located
     failures have rules of their own.  The text is formed by whoever asks for it, and may be refused
     then for what an argument is.
  2. **Whether it can be raised so** (`describe`): kinds that look at their arguments may refuse
     them, and the refusal is raised in place of the failure.
-/
import Permits.Failure.Raised.Coding
import Permits.Failure.Raised.Located
import Permits.Failure.Raised.Parameters
import Permits.Failure.Raised.Redirected
import Permits.Failure.Raised.System

namespace Permits.Raised

/-- The text of a failure that does not look at its arguments. -/
def plainText : List Value → Except Refusal String
  | [] => .ok ""
  | [v] => v.displayed
  | args => (Value.tuple args).shown

/-- Is a value a row, whose items have an order? -/
def isRow : Value → Bool
  | .list _ | .tuple _ | .text _ | .bytes _ | .byteArray _ => true
  | .other o => o.shape = .row
  | _ => false

/-- Why a group of failures cannot be raised.  It is made of a text and a row of failures, and no
    value is a failure. -/
def groupRefusal : List Value → Refusal
  | [.text _, members] =>
    if isRow members then
      match Refusal.items members with
      | .ok (_ :: _) => .ofValue "Item 0 of second argument (exceptions) is not an exception"
      | _ => .ofValue "second argument (exceptions) must be a non-empty sequence"
    else .ofType "second argument (exceptions) must be a sequence"
  | [message, _] => .notText "BaseExceptionGroup.__new__() argument 1" message
  | args =>
    .ofType ("BaseExceptionGroup.__new__() takes exactly 2 arguments (" ++
      toString args.length ++ " given)")

/-- Checks the arguments of kinds that take them by name. -/
def checkArguments (kind : String) (args : List Value) : Except Refusal Unit := do
  match parameters? kind with
  | some parameters => parameters.check args.length
  | none => return ()
  match kind, args with
  | "AskError", node :: _ | "MovedError", node :: _ => checkRedirection node
  | _, _ => return ()

/-- The arguments that a failure keeps once they are checked: one of a lock or of a cluster keeps its
    message alone, and `Value.none` in its place if there is none. -/
def keptArguments (kind : String) (args : List Value) : List Value :=
  match kind with
  | "LockError" | "LockNotOwnedError" | "ClusterDownError" | "MasterDownError" | "AskError"
  | "MovedError" => [args.headD .none]
  | _ => args

/-- The text of a failure that is raised with arguments, or why it cannot be raised so. -/
def describe (path : String) (args : List Value) : Except Refusal (Except Refusal String) :=
  match path, args with
  | "UnicodeEncodeError", args => (encodingText args).map .ok
  | "UnicodeDecodeError", args => (decodingText args).map .ok
  | "UnicodeTranslateError", args => (translatingText args).map .ok
  | "SyntaxError", args | "IndentationError", args | "TabError", args => located args
  | "ExceptionGroup", args | "BaseExceptionGroup", args => .error (groupRefusal args)
  | "KeyError", [v] => .ok v.shown
  | path, args => do
    if System.kinds.contains path then
      return (← System.text? path args).getD (plainText args)
    else
      checkArguments (Kind.lastPart path) args
      return plainText (keptArguments (Kind.lastPart path) args)

end Permits.Raised
