/-
  Exactness — durations of which it is known exactly how long they are.

  1. **Exact durations** (`Exact`): whole numbers of seconds and spans of time.  How long one is (`length`)
     is a rational number, told by its parts; as a fraction it has a small denominator
     (`length_eq_div`).
  2. **In seconds** (`Exact.eq_of_seconds`): an exact duration is rounded once, so its order among the
     others and its sign are kept.  Every span of time is short enough to be taken.
  3. **Popping** (`Exact.keeps_order_and_sign`): a pop waits or polls as the sign of its seconds says,
     hence as the sign of the exact duration says.
-/
import Mathlib.Algebra.Order.Field.Rat
import Mathlib.Tactic.Ring
import Permits.Proofs.Durations
import Permits.Proofs.Order
import Permits.Proofs.Requests
import Permits.Proofs.Waiting

namespace Permits

open Number
open Course (Event)

/-! ## Exact durations -/

/-- A duration that is a whole number of seconds or a span of time. -/
inductive Exact where
  | whole (seconds : Int)
  | span (span : Span)

namespace Exact

/-- The duration as a caller hands it in. -/
def value : Exact → Value
  | whole n => .int n
  | span s => .span s

/-- How long it is, in seconds. -/
def length : Exact → Rat
  | whole n => n
  | span s => s.days * 86400 + s.seconds + s.microseconds / 1000000

/-- The length in whole parts of a second. -/
def parts : Exact → Int
  | whole n => n
  | span s => s.totalMicroseconds

/-- How many such parts make a second. -/
def perSecond : Exact → Nat
  | whole _ => 1
  | span _ => 1000000

theorem perSecond_pos (a : Exact) : 0 < a.perSecond := by
  cases a with
  | whole n => exact Nat.one_pos
  | span s => exact Nat.succ_pos _

theorem length_eq_div (a : Exact) : a.length = a.parts / a.perSecond := by
  cases a with
  | whole n => simp [length, parts, perSecond]
  | span s =>
    simp only [length, parts, perSecond, Span.totalMicroseconds]
    push_cast
    ring

theorem length_le_iff (a b : Exact) :
    a.length ≤ b.length ↔ a.parts * b.perSecond ≤ b.parts * a.perSecond := by
  have ha : (0 : Rat) < a.perSecond := by exact_mod_cast a.perSecond_pos
  have hb : (0 : Rat) < b.perSecond := by exact_mod_cast b.perSecond_pos
  rw [length_eq_div, length_eq_div, div_le_div_iff₀ ha hb]
  exact_mod_cast Iff.rfl

theorem length_pos_iff (a : Exact) : 0 < a.length ↔ 0 < a.parts := by
  have ha : (0 : Rat) < a.perSecond := by exact_mod_cast a.perSecond_pos
  rw [length_eq_div, lt_div_iff₀ ha, zero_mul]
  exact_mod_cast Iff.rfl

/-! ## In seconds -/

/-- An exact duration is rounded once, and what it comes to is finite. -/
theorem eq_of_seconds {a : Exact} {x : Double} (h : Duration.seconds a.value = .ok x) :
    x = .ofIntRatio a.parts a.perSecond ∧ (Double.ofIntRatio a.parts a.perSecond).isFinite = true := by
  have rounded : x = .ofIntRatio a.parts a.perSecond := by
    cases a with
    | whole n => exact (Duration.seconds_int_eq_ok_iff.mp h).1.symm
    | span s => exact (Except.ok.inj (Duration.seconds_eq_ok_iff.mp h).1).symm
  exact ⟨rounded, rounded ▸ Duration.isFinite_of_seconds h⟩

/-- A span of time is far shorter than what would be rounded to infinity. -/
theorem seconds_span (s : Span) : ∃ x, Duration.seconds (.span s) = .ok x := by
  have longest : s.totalMicroseconds.natAbs < 90000000000000000000 := by
    have days := s.days_le
    have seconds := s.seconds_lt
    have microseconds := s.microseconds_lt
    unfold Span.totalMicroseconds
    omega
  have room : 90000000000000000000 ≤ 1000000 * Double.overflow := by decide +kernel
  have finite : (Double.ofIntRatio s.totalMicroseconds 1000000).isFinite = true := by
    rw [Double.isFinite_ofIntRatio (by decide)]
    exact Nat.lt_of_lt_of_le longest room
  exact ⟨_, Duration.seconds_eq_ok_iff.mpr ⟨rfl, finite⟩⟩

/-- **The longer of two exact durations comes to no fewer seconds.** -/
theorem seconds_le {a b : Exact} {x y : Double} (ha : Duration.seconds a.value = .ok x)
    (hb : Duration.seconds b.value = .ok y) (h : a.length ≤ b.length) : x.le y = true := by
  obtain ⟨hx, finite⟩ := eq_of_seconds ha
  obtain ⟨hy, finite'⟩ := eq_of_seconds hb
  rw [hx, hy]
  exact Double.ofIntRatio_le a.perSecond_pos b.perSecond_pos finite finite' ((length_le_iff a b).mp h)

/-- **An exact duration comes to more than zero seconds exactly if it is positive.** -/
theorem zero_lt_seconds_iff {a : Exact} {x : Double} (h : Duration.seconds a.value = .ok x) :
    Double.zero.lt x = true ↔ 0 < a.length := by
  obtain ⟨hx, finite⟩ := eq_of_seconds h
  have small : a.perSecond ≤ Double.one := by
    have whole : 1 ≤ Double.one := by decide +kernel
    have millionth : 1000000 ≤ Double.one := by decide +kernel
    cases a with
    | whole n => exact whole
    | span s => exact millionth
  rw [hx, length_pos_iff]
  exact Double.zero_lt_ofIntRatio_iff a.perSecond_pos small finite

end Exact

/-! ## Popping -/

/-- A demand that is taken comes to one pop. -/
theorem Demand.sent_of_seconds (store : ListStore) (name : Name) {d : Value} {x : Double}
    (h : Duration.seconds d = .ok x) :
    Demand.sent ⟨.ok name, d⟩ store = [.command store.executor (.popFor name x)] := by
  rw [Demand.sent, Demand.pops, h]
  rfl

/-- **Exact durations keep their order and their sign.**

    - Every span of time is taken.
    - Of two exact durations that are taken, the longer one comes to no fewer seconds.
    - What one comes to is more than zero exactly if the duration is.
    - So a pop waits exactly if the duration is positive, and polls exactly if it is not; it asks for
      nothing else. -/
theorem Exact.keeps_order_and_sign :
    (∀ s : Span, ∃ x, Duration.seconds (.span s) = .ok x) ∧
    (∀ (a b : Exact) (x y : Double), Duration.seconds a.value = .ok x →
      Duration.seconds b.value = .ok y → a.length ≤ b.length → x.le y = true) ∧
    ∀ (a : Exact) (x : Double), Duration.seconds a.value = .ok x →
      (Double.zero.lt x = true ↔ 0 < a.length) ∧
      ∀ (store : ListStore) (name : Value) (n : Name), Name.check name = .ok n →
        ∀ {σ : Type} (answer : (r : Request) → σ → r.Answer × σ) (t : σ),
          let asked := requests
            ((Course.perform (Call.blockingPop store name a.value).op).run answer t).events
          (asked = [.command store.executor (.blockingPop n x)] ↔ 0 < a.length) ∧
          (asked = [.command store.executor (.pop n)] ↔ a.length ≤ 0) := by
  refine ⟨seconds_span, fun a b x y => seconds_le, fun a x taken => ?_⟩
  have sign := zero_lt_seconds_iff taken
  refine ⟨sign, fun store name n named => ?_⟩
  intro σ answer t asked
  have asked_eq : asked = [.command store.executor (.popFor n x)] := by
    have pops : (Call.blockingPop store name a.value).op = store.blockingPop n a.value := by
      rw [Call.op_blockingPop, Op.named, named]
      rfl
    show requests ((Course.perform (Call.blockingPop store name a.value).op).run answer t).events = _
    rw [pops, store.requests_blockingPop, Demand.sent_of_seconds store n taken]
  rw [Number.Double.zero_lt_iff_not_le (Duration.isFinite_of_seconds taken)] at sign
  rw [asked_eq, Command.popFor]
  by_cases low : x.le .zero = true
  · have short : a.length ≤ 0 := not_lt.mp fun long => sign.mpr long low
    simp [low, short]
  · have long : 0 < a.length := sign.mp low
    simp [low, long]

/-- A microsecond is waited for, and a microsecond less than nothing is not. -/
theorem Exact.microsecond_waits :
    let back : Exact := .span ⟨-1, 86399, 999999, by decide, by decide, by decide⟩
    let ahead : Exact := .span ⟨0, 0, 1, by decide, by decide, by decide⟩
    let store : ListStore := ⟨⟨"lists", .direct⟩⟩
    let asked (a : Exact) := requests ((Course.perform
      (Call.blockingPop store (.text "k") a.value).op).run Setting.sevens.answer { lists := {} }).events
    ∃ x y, Duration.seconds back.value = .ok x ∧ Duration.seconds ahead.value = .ok y ∧
      x.le y = true ∧ asked back = [.command store.executor (.pop (.text "k"))] ∧
      asked ahead = [.command store.executor (.blockingPop (.text "k") y)] := by
  intro back ahead store asked
  have negative : ¬0 < back.length := by
    rw [Exact.length_pos_iff]
    decide
  have positive : 0 < ahead.length := by
    rw [Exact.length_pos_iff]
    decide
  obtain ⟨taken, ordered, signed⟩ := Exact.keeps_order_and_sign
  obtain ⟨x, hx⟩ : ∃ x, Duration.seconds back.value = .ok x := taken _
  obtain ⟨y, hy⟩ : ∃ y, Duration.seconds ahead.value = .ok y := taken _
  have named : Name.check (.text "k") = .ok (.text "k") := rfl
  have polls := ((signed back x hx).2 store _ _ named Setting.sevens.answer { lists := {} }).2
  have waits := ((signed ahead y hy).2 store _ _ named Setting.sevens.answer { lists := {} }).1
  have short := not_lt.mp negative
  exact ⟨x, y, hx, hy, ordered back ahead x y hx hy (short.trans positive.le), polls.mpr short,
    waits.mpr positive⟩

end Permits
