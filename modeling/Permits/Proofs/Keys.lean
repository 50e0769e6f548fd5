/-
  Keys — when two values name the same entry of a table.

  `Value.sameKey` compares values of different types: numbers of any types name the same entry if they
  are as much.  That it is a sensible comparison at all is seen from a **form** (`Value.form`) that every
  value has which can be compared: two values name the same entry exactly if their forms are equal
  (`sameKey_iff`).

  So the comparison is symmetric and transitive.  It is not reflexive: a list is the same as no value,
  and so is a not-a-number that was made afresh.
-/
import Permits.Value.Basic

namespace Permits

open Number

/-! ## Forms -/

/-- What is left of a number where numbers are compared as keys. -/
def Amount.asKey (a : Amount) : Object :=
  { type := "", shape := .number ⟨some a, false, false⟩, text := .ok "" }

theorem Amount.asKey_inj {a b : Amount} : a.asKey = b.asKey ↔ a = b := by
  simp [asKey]

namespace Object

/-- What is left of an object where objects are compared as keys. -/
def asKey (o : Object) : Object :=
  match o.keyAmount? with
  | some a => a.asKey
  | none => { type := o.type, identity := o.identity, isKey := o.isKey, text := .ok "" }

theorem asKey_of_amount {o : Object} {a : Amount} (h : o.keyAmount? = some a) : o.asKey = a.asKey := by
  rw [asKey, h]

theorem asKey_of_none {o : Object} (h : o.keyAmount? = none) :
    o.asKey = { type := o.type, identity := o.identity, isKey := o.isKey, text := .ok "" } := by
  rw [asKey, h]

/-- What is some amount as a key may be one. -/
theorem isKey_of_amount {o : Object} {a : Amount} (h : o.keyAmount? = some a) : o.isKey = true := by
  unfold keyAmount? at h
  split at h
  · assumption
  · cases h

end Object

namespace Value

/-- What a number is as a key.  A not-a-number without a payload is a new one wherever it turns up. -/
def formOfDouble : Double → Option Value
  | .nan p => if p = 0 then Option.none else some (.float (.nan p))
  | x => x.amount?.map fun a => .other a.asKey

mutual

/-- What is left of a value where values of all types are compared as keys, if it can be
    compared. -/
def form : Value → Option Value
  | .none => some .none
  | .bool b => some (.other (Amount.ratio ((if b then 1 else 0 : Int) : Rat)).asKey)
  | .int n => some (.other (Amount.ratio n).asKey)
  | .float x => formOfDouble x
  | .text s => some (.text s)
  | .bytes bs => some (.bytes bs)
  | .span s => some (.span s)
  | .tuple items => (formOfItems items).map .tuple
  | .semaphore _ _ _ i => some (.semaphore "" default .zero i)
  | .other o => some (.other o.asKey)
  | .list _ | .byteArray _ => Option.none

def formOfItems : List Value → Option (List Value)
  | [] => some []
  | v :: vs => (form v).bind fun x => (formOfItems vs).map (x :: ·)

end

/-! ## Comparison -/

/-- A number has the form of its amount. -/
theorem form_of_amount {v : Value} {a : Amount} (h : amount? v = some a) :
    form v = some (.other a.asKey) := by
  cases v with
  | float x =>
    cases x with
    | nan => cases h
    | finite | infinite =>
      cases h
      rfl
  | other o => exact congrArg (fun k => some (other k)) (Object.asKey_of_amount h)
  | bool | int =>
    cases h
    rfl
  | _ => cases h

/-- What is no number has no form of an amount. -/
theorem form_ne_of_amount {v : Value} (h : amount? v = Option.none) (a : Amount) :
    form v ≠ some (.other a.asKey) := by
  cases v with
  | float x =>
    cases x with
    | nan p =>
      simp only [form, formOfDouble]
      split <;> simp
    | finite | infinite => cases h
  | other o =>
    rw [form, Object.asKey_of_none h]
    simp [Amount.asKey]
  | bool | int => cases h
  | _ => simp [form]

mutual

/-- **Two values name the same entry of a table exactly if they have one form.** -/
theorem sameKey_iff (v w : Value) :
    sameKey v w = true ↔ ∃ x, form w = some x ∧ form v = some x := by
  unfold sameKey
  cases hv : amount? v with
  | some p =>
    rw [form_of_amount hv]
    cases hw : amount? w with
    | some q =>
      rw [form_of_amount hw]
      simp only [beq_iff_eq, Option.some.injEq, exists_eq_left', other.injEq, Amount.asKey_inj]
    | none => simpa using form_ne_of_amount hw p
  | none =>
    cases hw : amount? w with
    | some q =>
      rw [form_of_amount hw]
      simpa using form_ne_of_amount hv q
    | none =>
      -- What is no number is compared with what is of its own type.
      cases v with
      | bool | int => cases hv
      | none | text | bytes | span | semaphore | list | byteArray =>
        cases w with
        | float y => cases y <;> simp_all [form, formOfDouble, amount?]
        | _ => simp_all [form, amount?, asInt?]
      | float x =>
        cases x with
        | finite | infinite => cases hv
        | nan p =>
          cases w with
          | float y =>
            cases y with
            | finite | infinite => cases hw
            | nan q =>
              simp only [form, formOfDouble]
              by_cases hp : p = 0
              · simp [hp]
              · by_cases hq : q = 0 <;> simp [hp, hq]
          | _ =>
            simp only [form, formOfDouble]
            split <;> simp_all [amount?, asInt?]
      | other a =>
        cases w with
        | other b =>
          simp only [form, Object.asKey_of_none hv, Object.asKey_of_none hw]
          grind
        | float y => cases y <;> simp_all [form, formOfDouble, amount?]
        | _ => simp_all [form, amount?, asInt?]
      | tuple vs =>
        cases w with
        | tuple ws =>
          simp only [form, sameKeys_iff vs ws, Option.map_eq_some_iff]
          grind
        | float y => cases y <;> simp_all [form, formOfDouble, amount?]
        | _ => simp_all [form, amount?, asInt?]

theorem sameKeys_iff (vs ws : List Value) :
    sameKeys vs ws = true ↔ ∃ xs, formOfItems ws = some xs ∧ formOfItems vs = some xs := by
  cases vs with
  | nil => cases ws <;> simp [sameKeys, formOfItems, Option.bind_eq_some_iff]
  | cons v vs =>
    cases ws with
    | nil => simp [sameKeys, formOfItems, Option.bind_eq_some_iff]
    | cons w ws =>
      simp only [sameKeys, formOfItems, Bool.and_eq_true, sameKey_iff v w, sameKeys_iff vs ws,
        Option.bind_eq_some_iff, Option.map_eq_some_iff]
      grind

end

theorem sameKey_symm {v w : Value} (h : sameKey v w = true) : sameKey w v = true := by
  obtain ⟨x, hw, hv⟩ := (sameKey_iff v w).mp h
  exact (sameKey_iff w v).mpr ⟨x, hv, hw⟩

theorem sameKey_comm (v w : Value) : sameKey v w = sameKey w v :=
  Bool.eq_iff_iff.mpr ⟨sameKey_symm, sameKey_symm⟩

theorem sameKey_trans {u v w : Value} (h : sameKey u v = true) (h' : sameKey v w = true) :
    sameKey u w = true := by
  obtain ⟨x, hv, hu⟩ := (sameKey_iff u v).mp h
  obtain ⟨y, hw, hv'⟩ := (sameKey_iff v w).mp h'
  obtain rfl := Option.some.inj (hv.symm.trans hv')
  exact (sameKey_iff u w).mpr ⟨x, hw, hu⟩

/-- A text is the same key as itself, and as nothing else. -/
theorem sameKey_text {s : String} {w : Value} : sameKey (.text s) w = true ↔ .text s = w := by
  rw [sameKey_iff]
  cases w with
  | text t => simp [form]
  | float y => cases y <;> simp [form, formOfDouble]
  | _ => simp [form]

/-! ## Keys -/

mutual

/-- A value can be a key as little as its form can. -/
theorem keyFault?_form {v x : Value} (h : form v = some x) : keyFault? x = keyFault? v := by
  cases v with
  | list | byteArray => cases h
  | none | bool | int | text | bytes | span | semaphore =>
    cases h
    rfl
  | float y =>
    cases y with
    | nan p =>
      simp only [form, formOfDouble] at h
      split at h <;> cases h
      rfl
    | finite | infinite =>
      cases h
      rfl
  | other o =>
    cases h
    cases amount : o.keyAmount? with
    | some a =>
      rw [Object.asKey_of_amount amount, keyFault?, keyFault?, Object.isKey_of_amount amount]
      rfl
    | none => rw [Object.asKey_of_none amount, keyFault?, keyFault?]
  | tuple items =>
    obtain ⟨xs, hxs, rfl⟩ := Option.map_eq_some_iff.mp h
    simp only [keyFault?, keyFaultOfItems?_form hxs]

theorem keyFaultOfItems?_form {vs xs : List Value} (h : formOfItems vs = some xs) :
    keyFaultOfItems? xs = keyFaultOfItems? vs := by
  cases vs with
  | nil =>
    cases h
    rfl
  | cons v vs =>
    obtain ⟨y, hy, h⟩ := Option.bind_eq_some_iff.mp h
    obtain ⟨ys, hys, rfl⟩ := Option.map_eq_some_iff.mp h
    simp only [keyFaultOfItems?, keyFault?_form hy, keyFaultOfItems?_form hys]

end

/-- Of two values that name the same entry, both can be keys or neither. -/
theorem keyFault?_congr {v w : Value} (h : sameKey v w = true) : keyFault? v = keyFault? w := by
  obtain ⟨x, hw, hv⟩ := (sameKey_iff v w).mp h
  rw [← keyFault?_form hv, keyFault?_form hw]

end Value

end Permits
