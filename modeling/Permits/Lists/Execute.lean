/-
  Commands on lists — how a store of lists carries out commands.

  Each command is one step (`Lists.execute`): a push is answered by the new length, a pop by the
  oldest entry or by nothing, and a blocking pop by the pair of key and entry.  A blocking pop on
  an empty list is not answered: it has to wait, until a push serves it.

  Keys and entries are bytes.  What is not bytes is stored as the UTF-8 bytes of its text; nothing is
  left of what has no text.
-/
import Permits.Lists.Basic
import Permits.Command

namespace Permits.Lists

open Text

/-- The bytes that a value is stored as. -/
def stored : Value → Bytes
  | .bytes bs => bs
  | v => Utf8.encode (v.displayed.toOption.getD "")

/-- The reply to a blocking pop that got an entry. -/
def pair (key entry : Bytes) : Value := .list [.bytes key, .bytes entry]

/-- What carrying out a command comes to. -/
structure Effect where
  /-- The reply; `none` if the command has to wait. -/
  reply : Option Value
  /-- The pops that were waiting and are served, with their entries. -/
  served : List (Waiter × Bytes)
  lists : Lists

/-- Carries out a command. -/
def execute (s : Lists) : Command → Effect
  | .push name entry =>
    let (length, served, lists) := s.push name.key (stored entry)
    ⟨some (.int length), served, lists⟩
  | .pop name =>
    match s.pop name.key with
    | some (entry, lists) => ⟨some (.bytes entry), [], lists⟩
    | none => ⟨some .none, [], s⟩
  | .blockingPop name _ =>
    match s.pop name.key with
    | some (entry, lists) => ⟨some (pair name.key entry), [], lists⟩
    | none => ⟨none, [], s⟩
  | .length name => ⟨some (.int (s.length name.key)), [], s⟩

end Permits.Lists
