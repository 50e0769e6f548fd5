/-
  Reading names — which values address a list.

  A name is text or bytes and not empty (`Name.check`).  Reading gives back what was written:
  `Name.toValue` undoes `Name.check`.
-/
import Permits.Failure
import Permits.Name.Basic

namespace Permits.Name

/-- The name as it was given. -/
def toValue : Name → Value
  | text s => .text s
  | bytes bs => .bytes bs

/-- Reads a name; only text and bytes that are not empty address a list. -/
def check : Value → Except Failure Name
  | .text s => if s = "" then .error .nameEmpty else .ok (text s)
  | .bytes bs => if bs = [] then .error .nameEmpty else .ok (bytes bs)
  | v => .error (.nameType v.typeName)

/-- A name that is read keeps its value. -/
theorem toValue_of_check {v : Value} {n : Name} (h : check v = .ok n) : n.toValue = v := by
  cases v <;> simp only [check, reduceCtorEq] at h
  all_goals
    split at h <;> cases h
    rfl

/-- What is no name is refused by this library itself. -/
theorem isOwn_of_check {v : Value} {f : Failure} (h : check v = .error f) : f.isOwn = true := by
  cases v <;> simp only [check] at h
  case text | bytes =>
    split at h <;> cases h
    rfl
  all_goals
    cases h
    rfl

end Permits.Name
