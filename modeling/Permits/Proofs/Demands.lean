/-
  Demands — which calls pop, and for how long.

  1. **Demands** (`Demand`, `Call.demand?`): the pop that a call is to make.  Its name may yet be refused,
     and so may its duration; what comes of it then is no pop at all (`Demand.pops`).
  2. **Calls without one** (`Call.sends_of_demand_eq_none`) never pop, and of a host's commands only
     those have one that acquire (`Registrar.call_of_demand`).

  What is said of all calls is therefore said of a handful of operations, and of everything that does
  not pop.
-/
import Permits.Proofs.Conditions
import Permits.Proofs.Conduct

namespace Permits

/-- Is a command a pop, waiting or not? -/
def Command.isPop : Command → Bool
  | pop _ | blockingPop .. => true
  | push .. | length _ => false

theorem Command.isPop_popFor (name : Name) (seconds : Number.Double) :
    (popFor name seconds).isPop = true := by
  unfold popFor
  split <;> rfl

/-! ## Demands -/

/-- A pop that a call is to make: of which list, and how long it may wait. -/
structure Demand where
  name : Except Failure Name
  duration : Value

/-- The pops that come of a demand: one, or none if something is refused. -/
def Demand.pops (d : Demand) : List Command :=
  match d.name, Duration.seconds d.duration with
  | .ok name, .ok seconds => [.popFor name seconds]
  | _, _ => []

/-- The pop that a command is to make with arguments. -/
def HostCommand.demand? : HostCommand → List Value → Option Demand
  | dec _, [name, duration] => some ⟨Name.check name, duration⟩
  | _, _ => none

/-- The pop that a registered command is to make. -/
def Registrar.demand? (r : Registrar) (name : Value) (args : List Value) : Option Demand :=
  match r.command name with
  | .ok c => c.demand? args
  | .error _ => none

/-- The pop that a call is to make, if it is one that acquires. -/
def Call.demand? : Call → Option Demand
  | blockingPop _ name duration | acquire _ name duration => some ⟨Name.check name, duration⟩
  | acquirePermit s blocking timeout => some ⟨.ok s.name, s.waitFor blocking timeout⟩
  | enter s => some ⟨.ok s.name, .float s.timeout⟩
  | command r name args => r.demand? name args
  | push .. | length .. | release .. | create .. | mint .. | value _ | locked _
  | releasePermits .. | exit _ | register .. => none

/-! ## Calls with and without a demand -/

/-- A registered command that has a demand is an acquire. -/
theorem Registrar.call_of_demand {r : Registrar} {name : Value} {args : List Value} {d : Demand}
    (h : r.demand? name args = some d) :
    ∃ store, r.call name args = acquireFrom store d.name d.duration := by
  unfold demand? at h
  split at h
  · next c hc =>
    unfold HostCommand.demand? at h
    split at h
    · next store n duration =>
      cases h
      refine ⟨store, ?_⟩
      rw [call, hc]
      exact HostCommand.run_dec store n duration
    · cases h
  · cases h

open Op in
/-- **What has no demand pops nothing.** -/
theorem Call.sends_of_demand_eq_none {c : Call} (own : c.IsOwn) (h : c.demand? = none) :
    c.op.Sends fun c => c.isPop = false := by
  cases c with
  | push store name entry =>
    rw [op_push]
    exact All.check fun n _ => ListStore.sends_push rfl
  | release store name =>
    rw [op_release]
    exact All.check fun n _ => sends_release rfl
  | length store name =>
    rw [op_length]
    exact All.check fun n _ => ListStore.sends_length rfl
  | create options name => exact Semaphore.sends_create
  | mint options source value => exact Semaphore.sends_mint fun n => rfl
  | value s => exact Semaphore.sends_value rfl
  | locked s => exact Semaphore.sends_locked rfl
  | releasePermits s count => exact Semaphore.sends_release rfl
  | exit s => exact Semaphore.sends_exit rfl
  | register r store source => exact Registrar.sends_offer
  | blockingPop | acquire | acquirePermit | enter => cases h
  | command r name args =>
    show (r.call name args).Sends _
    refine Registrar.call_cases own (fun f => trivial) (fun source _ => ?_) (fun store n _ _ => ?_)
      fun store n d hc ha => ?_
    · exact All.bind Identifier.sends_mint fun _ => trivial
    · exact All.check fun n _ => sends_release rfl
    · change r.demand? name args = none at h
      rw [Registrar.demand?, hc, ha] at h
      cases h

end Permits
