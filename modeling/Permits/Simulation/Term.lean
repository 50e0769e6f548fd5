/-
  Terms — values in which slots may stand.

  A script cannot spell out what a run will bring about, so it keeps results in **slots** and speaks
  of them by name.  A term is resolved when it is needed; one with a slot that was never filled is a
  failure of its own.

  An object in a script is written by its type alone (`literal`).
-/
import Permits.Failure

namespace Permits.Simulation

/-- What was kept, by the names of the slots, the latest first. -/
abbrev Slots := List (String × Value)

/-- The object that a script writes by its type.  Wherever one is written it is a new object, which
    `number` tells from the others; but some types have one object, or objects that are all equal. -/
def literal (type : String) (number : Nat) : Value :=
  match type with
  | "dict" => .other { type, identity := number, shape := .container, isKey := false,
                       text := .ok "\x7b\x7d" }
  | "set" => .other { type, identity := number, shape := .container, isKey := false,
                      text := .ok "set()" }
  | "frozenset" => .other { type, shape := .container, text := .ok "frozenset()" }
  | "range" => .other { type, shape := .row, text := .ok "range(0, 0)" }
  | "complex" => .other { type, shape := .number ⟨none, false, false⟩, text := .ok "1j" }
  | "ellipsis" => .other { type, text := .ok "Ellipsis" }
  | "type" => .other { type, text := .ok "<type>" }
  | type => .other { type, identity := number, text := .ok ("<" ++ type ++ ">") }

/-- A value in which slots may stand. -/
inductive Term where
  | value (v : Value)
  | kept (name : String)
  | list (items : List Term)
  | tuple (items : List Term)
  deriving Inhabited

/-- What a name stands for in a table of names; one that is missing is a missing key. -/
def find {α : Type} (table : List (String × α)) (name : String) : Except Failure α :=
  match table.lookup name with
  | some a => .ok a
  | none => .error (.missingKey (.text name))

namespace Term

mutual

/-- The value of a term. -/
def resolve (slots : Slots) : Term → Except Failure Value
  | .value v => .ok v
  | .kept name => find slots name
  | .list items => do return .list (← resolveAll slots items)
  | .tuple items => do return .tuple (← resolveAll slots items)

/-- The values of terms, up to the first that has none. -/
def resolveAll (slots : Slots) : List Term → Except Failure (List Value)
  | [] => .ok []
  | t :: ts => do
    let v ← resolve slots t
    let vs ← resolveAll slots ts
    return v :: vs

end

end Term

/-- A failure with terms as arguments. -/
structure Throw where
  kind : String
  args : List Term

/-- The failure that is raised, or the one that raising it runs into. -/
def Throw.resolve (slots : Slots) (t : Throw) : Failure :=
  match Term.resolveAll slots t.args with
  | .ok args => .ofKind t.kind args
  | .error f => f

/-- A scripted answer: a value or a failure. -/
inductive Item where
  | value (t : Term)
  | failure (t : Throw)

/-- What the answer comes to. -/
def Item.resolve (slots : Slots) : Item → Except Failure Value
  | .value t => t.resolve slots
  | .failure t => .error (t.resolve slots)

end Permits.Simulation
