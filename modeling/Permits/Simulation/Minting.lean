/-
  Minting in a row — several names from one source.

  Each mint tells how many draws it made; the source tells which bounds were asked for.  The shape
  of a name, every digit replaced by a nine, is all that can be said of names that the system's
  randomness made.
-/
import Permits.Simulation.Machine

namespace Permits.Simulation.Minting

/-- A name or a failure, and the number of draws that it took. -/
structure Minted where
  result : Except Failure String
  draws : Nat

/-- Draws so far. -/
def drawn (m : Machine) : Nat := m.sources.foldl (fun n s => n + s.drawn) 0

/-- Mints several times in a row. -/
def mintTimes (mint : Op String) : Nat → Machine → List Minted × Machine
  | 0, m => ([], m)
  | n + 1, m =>
    let before := drawn m
    let (result, m) := m.perform mint
    let (rest, last) := mintTimes mint n m
    (⟨result, drawn m - before⟩ :: rest, last)

/-- Mints several times from one script.  The second result holds the bounds that were asked for,
    each of them once and in increasing order. -/
def fromScript (mint : SourceRef → Op String) (script : Script) (times : Nat) :
    List Minted × List Nat :=
  let start : Machine := { system := .ofScript script, sources := [.ofScript script] }
  let (minted, m) := mintTimes (mint (.given 0)) times start
  let stops := (m.sources.flatMap Source.stops).eraseDups
  (minted, stops.mergeSort)

/-- The shape of a name. -/
def shape (name : String) : String := name.map fun c => if c.isDigit then '9' else c

/-- Mints several times from the system's randomness: the shapes that came out, each once and in
    order, and how many names were distinct. -/
def fromSystem (mint : SourceRef → Op String) (system : Source) (times : Nat) :
    List String × Nat :=
  let (minted, _) := mintTimes (mint .system) times { system := system }
  let names := minted.filterMap fun m => m.result.toOption
  ((names.map shape).eraseDups.mergeSort fun a b => a ≤ b, names.eraseDups.length)

end Permits.Simulation.Minting
