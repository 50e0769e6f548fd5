/-
  Records — what is written to the log.

  A push that was acknowledged, an acquire that came to an end, and a registration each leave one
  record.  A record says which logger it goes to and how it reads; one that would have to show what
  cannot be written does not read at all, which is no matter of whoever left it.
-/
import Permits.Command

namespace Permits

/-- A record for the log. -/
inductive Record where
  | pushed (style : Style) (name : Name) (reply : Value)
  | acquired (name : Name) (milliseconds : Int)
  | timedOut (name : Name) (milliseconds : Int)
  | registered (registrar : Except Refusal String)
  deriving Repr, Inhabited

namespace Record

/-- The logger that a record goes to. -/
def logger : Record → String
  | pushed .direct .. => "list_semaphore.store"
  | pushed .awaited .. => "list_semaphore.aiostore"
  | acquired .. | timedOut .. => "list_semaphore.operations"
  | registered _ => "list_semaphore.commands"

/-- The text of a record, or why it has none. -/
def message : Record → Except Refusal String
  | pushed _ name reply => do
    return "Pushed onto " ++ name.shown ++ " (ack=" ++ (← reply.shown) ++ ")"
  | acquired name ms => .ok ("Acquired " ++ name.shown ++ " after " ++ toString ms ++ "ms")
  | timedOut name ms =>
    .ok ("Timed out acquiring " ++ name.shown ++ " after " ++ toString ms ++ "ms")
  | registered registrar => do return "Registered semaphore commands on " ++ (← registrar)

end Record

end Permits
