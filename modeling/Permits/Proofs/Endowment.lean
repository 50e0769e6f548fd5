/-
  Endowment — the permits that a new semaphore begins with.

  1. **How many** (`Value.Starts`): what says so is an integer, a truth value, a zero or an object that
     stands for an integer.
  2. **Pushing** (`Semaphore.Pushing`): how a row of pushes may go.  It goes up to its end, or up to the
     first push that fails.
  3. **Minting** (`Semaphore.Minting`): every way in which a semaphore with a fresh name may come about or
     fail to.  Its value is looked at, then a name is drawn, then the semaphore is made, and then it is
     filled; what comes after a failure is left out.
  4. **What is left behind** (`Semaphore.Endowed`): a new semaphore has its permits and nobody else has lost
     or won any, and one that did not come about has left some permits only if a push failed.
  5. **Where nothing fails** (`Semaphore.Served`): operations that end well from whatever state.  A name
     has dashes, so it is one whatever was drawn, and there is nothing left that could be refused.

  Every run is one of the ways of 3, so `Semaphore.endowed` reads off them what is left behind.
-/
import Permits.Proofs.Releasing
import Permits.Proofs.Requests
import Permits.Proofs.Validation

namespace Permits

open Number Text
open Course (Event Run)

/-! ## How many permits -/

namespace Value

/-- With how many permits does a semaphore begin that is to begin with a value?  Any zero says none,
    and truth counts as one. -/
inductive Starts : Value → Nat → Prop where
  | int (n : Nat) : Starts (.int n) n
  | truth (b : Bool) : Starts (.bool b) b.toNat
  | zero {x : Double} (h : x.isZero = true) : Starts (.float x) 0
  | object {o : Object} {n : Nat} (ordered : o.isOrdered = true) (h : o.index? = some (n : Int)) :
      Starts (.other o) n
  | nothing {o : Object} (ordered : o.isOrdered = true) (h : o.amount? = some (.ratio 0)) :
      Starts (.other o) 0

/-- Is a value a number below zero? -/
inductive IsNegative : Value → Prop where
  | int {n : Int} (h : n < 0) : IsNegative (.int n)
  | float {x : Double} (h : x.lt .zero = true) : IsNegative (.float x)
  | object {o : Object} {a : Amount} (ordered : o.isOrdered = true) (h : o.amount? = some a)
      (hn : a.isBelow 0 = true) : IsNegative (.other o)

end Value

namespace Semaphore

theorem isBelow_float (x : Double) : isBelow 0 (.float x) = .ok (x.lt .zero) := by
  have zero : Double.ofInt 0 = .zero := by decide +kernel
  show Except.ok (x.lt (.ofInt 0)) = _
  rw [zero]

/-- An object that is some amount is below an integer if the amount is. -/
theorem isBelow_object {o : Object} {a : Amount} (ordered : o.isOrdered = true)
    (h : o.amount? = some a) (bound : Int) : isBelow bound (.other o) = .ok (a.isBelow bound) := by
  rw [isBelow, Value.isBelow?, Object.isBelow?, if_pos ordered, h]
  rfl

theorem isBelow_of_isNegative {v : Value} (h : v.IsNegative) : isBelow 0 v = .ok true := by
  cases h with
  | int h => exact congrArg Except.ok (decide_eq_true h)
  | float h => rw [isBelow_float, h]
  | object ordered h hn => rw [isBelow_object ordered h, hn]

theorem isBelow_of_starts {v : Value} {n : Nat} (h : v.Starts n) : isBelow 0 v = .ok false := by
  cases h with
  | int => exact congrArg Except.ok (decide_eq_false (Int.not_lt.mpr (Int.natCast_nonneg n)))
  | truth b => cases b <;> rfl
  | @zero x h =>
    rw [isBelow_float]
    cases x with
    | infinite s => cases h
    | nan p => cases h
    | finite s m =>
      obtain rfl : m = 0 := eq_of_beq h
      cases s <;> rfl
  | object ordered index =>
    rw [isBelow_object ordered (Object.amount?_of_index? index)]
    exact congrArg Except.ok (decide_eq_false (Rat.not_lt.mpr (Rat.intCast_le_intCast.mpr
      (Int.natCast_nonneg n))))
  | nothing ordered h =>
    rw [isBelow_object ordered h]
    rfl

/-- What is not below zero and counts as false says none. -/
theorem starts_of_not_isTrue {v : Value} (h : isBelow 0 v = .ok false) (ht : v.isTrue = false) :
    v.Starts 0 := by
  generalize false = low at h
  cases compares_of_isBelow h with
  | int n =>
    obtain rfl : n = 0 := by simpa [Value.isTrue] using ht
    exact .int 0
  | truth b =>
    obtain rfl : b = false := ht
    exact .truth false
  | float x => exact .zero (by simpa [Value.isTrue] using ht)
  | object ordered => exact .nothing ordered (Object.amount?_of_not_isTrue ordered ht)

/-- An object says how many permits to release by the integer that it stands for. -/
theorem releaseCount_object {o : Object} {n : Int} (ordered : o.isOrdered = true)
    (h : o.index? = some n) (hn : 1 ≤ n) : releaseCount (.other o) = .ok n.toNat := by
  have below : isBelow 1 (.other o) = .ok false := by
    rw [isBelow_object ordered (Object.amount?_of_index? h)]
    exact congrArg Except.ok (decide_eq_false (Rat.not_lt.mpr (Rat.intCast_le_intCast.mpr hn)))
  rw [releaseCount, below]
  show rounds (.other o) = _
  rw [rounds, Value.index?, h]

/-- A count of permits says how many. -/
theorem starts_of_releaseCount {v : Value} {n : Nat} (h : releaseCount v = .ok n) :
    v.Starts n ∧ 1 ≤ n := by
  cases isCount_of_releaseCount h with
  | @int m hm =>
    have count : releaseCount (.int m) = .ok m.toNat := by
      have below : isBelow 1 (.int m) = .ok false :=
        congrArg Except.ok (decide_eq_false (Int.not_lt.mpr hm))
      rw [releaseCount, below]
      rfl
    obtain rfl : m.toNat = n := Except.ok.inj (count.symm.trans h)
    have natural : ((m.toNat : Nat) : Int) = m := Int.toNat_of_nonneg (by omega)
    exact ⟨natural ▸ Value.Starts.int m.toNat, by omega⟩
  | truth =>
    obtain rfl : 1 = n := Except.ok.inj h
    exact ⟨.truth true, Nat.le_refl 1⟩
  | @object o m ordered index hm =>
    obtain rfl : m.toNat = n := Except.ok.inj ((releaseCount_object ordered index hm).symm.trans h)
    have natural : ((m.toNat : Nat) : Int) = m := Int.toNat_of_nonneg (by omega)
    exact ⟨.object ordered (natural ▸ index), by omega⟩

/-- What counts as false says none. -/
theorem eq_zero_of_starts {v : Value} {n : Nat} (h : v.Starts n) (ht : v.isTrue = false) : n = 0 := by
  cases h with
  | int => simpa [Value.isTrue] using ht
  | truth b =>
    obtain rfl : b = false := ht
    rfl
  | zero | nothing => rfl
  | object ordered index =>
    have zero := (Object.amount?_of_index? index).symm.trans (Object.amount?_of_not_isTrue ordered ht)
    exact Int.natCast_eq_zero.mp (Rat.intCast_inj.mp (Amount.ratio.inj (Option.some.inj zero)))

theorem releaseCount_of_starts {v : Value} {n : Nat} (h : v.Starts n) (ht : v.isTrue = true) :
    releaseCount v = .ok n := by
  cases h with
  | int =>
    have below : isBelow 1 (.int n) = .ok false := by
      have hn : ¬(n : Int) < 1 := by
        have : (n : Int) ≠ 0 := by simpa [Value.isTrue] using ht
        omega
      exact congrArg Except.ok (decide_eq_false hn)
    rw [releaseCount, below]
    rfl
  | truth b =>
    obtain rfl : b = true := ht
    rfl
  | zero h =>
    rw [Value.isTrue, h] at ht
    cases ht
  | object ordered index =>
    have positive : n ≠ 0 := by
      rintro rfl
      cases ht.symm.trans (Object.isTrue_of_amount? (Object.amount?_of_index? index))
    exact releaseCount_object ordered index (by omega)
  | nothing ordered h => cases ht.symm.trans (Object.isTrue_of_amount? h)

end Semaphore

/-! ## Events without failures -/

/-- Is an event a command that failed? -/
def Course.Event.isFault : Event → Bool
  | .answer (.command ..) (.error _) => true
  | _ => false

/-- Where no command was sent, none failed. -/
theorem commands_of_requests {es : List Event} (h : ∀ r ∈ requests es, r.isCommand = false) :
    commands es = [] ∧ ∀ e ∈ es, e.isFault = false := by
  induction es with
  | nil => exact ⟨rfl, List.forall_mem_nil _⟩
  | cons e es ih =>
    cases e with
    | moment m =>
      obtain ⟨none, sound⟩ := ih h
      exact ⟨none, List.forall_mem_cons.mpr ⟨rfl, sound⟩⟩
    | answer r a =>
      obtain ⟨hr, hs⟩ := List.forall_mem_cons.mp h
      obtain ⟨none, sound⟩ := ih hs
      cases r with
      | command => cases hr
      | clock | log | draw | connect => exact ⟨none, List.forall_mem_cons.mpr ⟨rfl, sound⟩⟩

/-- As long as no command fails, the lists are left as the commands leave them. -/
theorem effects_of_sound {es : List Event} (h : ∀ e ∈ es, e.isFault = false) (l : Lists) :
    es.foldl Event.effect l = l.after (commands es) := by
  induction es generalizing l with
  | nil => rfl
  | cons e es ih =>
    obtain ⟨he, hs⟩ := List.forall_mem_cons.mp h
    cases e with
    | moment m => exact ih hs l
    | answer r a =>
      cases r with
      | clock | log | draw | connect => exact ih hs l
      | command x c =>
        cases a with
        | ok v => exact ih hs _
        | error f => cases he

namespace Semaphore

/-! ## Pushing -/

/-- How a row of pushes goes: each is recorded when it is acknowledged, and the first that fails is the
    last. -/
inductive Pushing (s : Semaphore) : Nat → List Event → Except Failure Value → Prop where
  | nothing : Pushing s 0 [] (.ok .none)
  | failed {n : Nat} (f : Failure) :
      Pushing s (n + 1) [.sent s.store (.push s.name permit) (.error f)]
        (.error (s.store.style.raised f))
  | last (v : Value) :
      Pushing s 1 [.sent s.store (.push s.name permit) (.ok v),
        .noted (.pushed s.store.style s.name v)] (.ok v)
  | next {n : Nat} (v : Value) {es : List Event} {r : Except Failure Value}
      (h : Pushing s (n + 1) es r) :
      Pushing s (n + 2) (.sent s.store (.push s.name permit) (.ok v) ::
        .noted (.pushed s.store.style s.name v) :: es) r

section Pushing

variable {σ : Type} (answer : (r : Request) → σ → r.Answer × σ) (s : Semaphore)

/-- One push fails, or is acknowledged and recorded. -/
theorem run_release (t : σ) :
    let ran := (Course.perform (Permits.release s.store s.name)).run answer t
    (∃ f, ran.events = [.sent s.store (.push s.name permit) (.error f)] ∧
      ran.result = .error (s.store.style.raised f)) ∨
    ∃ v, ran.events = [.sent s.store (.push s.name permit) (.ok v),
      .noted (.pushed s.store.style s.name v)] ∧ ran.result = .ok v := by
  intro ran
  have step : (Course.perform (Permits.release s.store s.name)).run answer t =
      ((Course.perform ((Op.done (s.store.style.received
      (answer (.command s.store.executor (.push s.name permit)) t).1) : Op Value) >>= fun reply =>
        Op.log (.pushed s.store.style s.name reply) >>= fun _ => pure reply)).run answer
          (answer (.command s.store.executor (.push s.name permit)) t).2).after
      (.answer (.command s.store.executor (.push s.name permit))
        (answer (.command s.store.executor (.push s.name permit)) t).1) := by
    rw [Permits.release_eq, s.store.push_eq]
    rfl
  rw [show ran = _ from step]
  cases (answer (.command s.store.executor (.push s.name permit)) t).1 with
  | error f => exact .inl ⟨f, rfl, rfl⟩
  | ok v => exact .inr ⟨v, rfl, rfl⟩

theorem pushing_run : ∀ n (t : σ),
    let ran := (Course.perform (s.releaseTimes n)).run answer t
    Pushing s n ran.events ran.result
  | 0, t => .nothing
  | 1, t => by
    show Pushing s 1 ((Course.perform (Permits.release s.store s.name)).run answer t).events
      ((Course.perform (Permits.release s.store s.name)).run answer t).result
    obtain ⟨f, events, result⟩ | ⟨v, events, result⟩ := s.run_release answer t
    · rw [events, result]
      exact .failed f
    · rw [events, result]
      exact .last v
  | n + 2, t => by
    intro ran
    have cut := Course.run_perform_bind answer (Permits.release s.store s.name)
      (fun _ => s.releaseTimes (n + 1)) t
    change ran = _ at cut
    have one := s.run_release answer t
    generalize (Course.perform (Permits.release s.store s.name)).run answer t = first at cut one
    obtain ⟨es, result, t'⟩ := first
    obtain ⟨f, rfl, rfl⟩ | ⟨v, rfl, rfl⟩ := one
    · exact cut ▸ Pushing.failed f
    · exact cut ▸ Pushing.next v (pushing_run (n + 1) t')

end Pushing

namespace Pushing

variable {s : Semaphore} {n : Nat} {es : List Event} {r : Except Failure Value}

/-- A row of pushes draws nothing. -/
theorem draws (h : Pushing s n es r) : (requests es).filter Request.isDraw = [] := by
  induction h with
  | nothing | failed | last => rfl
  | next v h ih => exact ih

/-- A row that ends well has sent each of its pushes, and none of them failed. -/
theorem of_ok (h : Pushing s n es r) {v : Value} (hr : r = .ok v) :
    (∀ e ∈ es, e.isFault = false) ∧ commands es = List.replicate n (.push s.name permit) ∧
      (requests es).filter Request.isCommand =
        List.replicate n (.command s.store.executor (.push s.name permit)) := by
  induction h with
  | failed => cases hr
  | nothing => exact ⟨List.forall_mem_nil _, rfl, rfl⟩
  | last =>
    refine ⟨?_, rfl, rfl⟩
    simp [Event.isFault]
  | next w h ih =>
    obtain ⟨sound, sent, asked⟩ := ih hr
    refine ⟨List.forall_mem_cons.mpr ⟨rfl, List.forall_mem_cons.mpr ⟨rfl, sound⟩⟩, ?_, ?_⟩
    · exact congrArg (.push s.name permit :: ·) sent
    · exact congrArg (.command s.store.executor (.push s.name permit) :: ·) asked

/-- A row that fails ends with the push that failed; those before it did not. -/
theorem of_error (h : Pushing s n es r) {e : Failure} (hr : r = .error e) :
    ∃ before f, es = before ++ [.sent s.store (.push s.name permit) (.error f)] ∧
      e = s.store.style.raised f ∧ (∀ e ∈ before, e.isFault = false) ∧
      commands before = List.replicate (commands before).length (.push s.name permit) := by
  induction h with
  | failed f =>
    cases hr
    exact ⟨[], f, rfl, rfl, List.forall_mem_nil _, rfl⟩
  | nothing | last => cases hr
  | next v h ih =>
    obtain ⟨before, f, rfl, rfl, sound, sent⟩ := ih hr
    refine ⟨.sent s.store (.push s.name permit) (.ok v) ::
      .noted (.pushed s.store.style s.name v) :: before, f, rfl, rfl, ?_, ?_⟩
    · exact List.forall_mem_cons.mpr ⟨rfl, List.forall_mem_cons.mpr ⟨rfl, sound⟩⟩
    · exact congrArg (.push s.name permit :: ·) sent

end Pushing

/-! ## Minting -/

/-- Every way in which a new semaphore may come about, or fail to.  It is named after its value was looked
    at, and it is made before it is filled. -/
inductive Minting {σ : Type} (answer : (r : Request) → σ → r.Answer × σ) (options : Options)
    (source : SourceRef) (value : Value) (t : σ) :
    List Event → Except Failure Semaphore → Prop where
  | refused {f : Failure} (low : isBelow 0 value = .error f) : Minting _ _ _ _ _ [] (.error f)
  | negative (low : isBelow 0 value = .ok true) : Minting _ _ _ _ _ [] (.error .valueNegative)
  | unnamed {es : List Event} {f : Failure} {t' : σ}
      (named : (Course.perform (Identifier.mint source)).run answer t = ⟨es, .error f, t'⟩) :
      Minting _ _ _ _ _ es (.error f)
  | unmade {es es' : List Event} {text : String} {f : Failure} {t' t'' : σ}
      (named : (Course.perform (Identifier.mint source)).run answer t = ⟨es, .ok text, t'⟩)
      (made : (Course.perform (create options (.text text))).run answer t' = ⟨es', .error f, t''⟩) :
      Minting _ _ _ _ _ (es ++ es') (.error (options.style.raised f))
  | uncounted {es es' : List Event} {text : String} {s : Semaphore} {f : Failure} {t' t'' : σ}
      (named : (Course.perform (Identifier.mint source)).run answer t = ⟨es, .ok text, t'⟩)
      (made : (Course.perform (create options (.text text))).run answer t' = ⟨es', .ok s, t''⟩) :
      Minting _ _ _ _ _ (es ++ es') (.error f)
  | filled {es es' es'' : List Event} {text : String} {s : Semaphore} {n : Nat}
      {r : Except Failure Value} {t' t'' : σ}
      (named : (Course.perform (Identifier.mint source)).run answer t = ⟨es, .ok text, t'⟩)
      (made : (Course.perform (create options (.text text))).run answer t' = ⟨es', .ok s, t''⟩)
      (starts : value.Starts n) (pushing : s.Pushing n es'' r) :
      Minting _ _ _ _ _ (es ++ es' ++ es'') (r.map fun _ => s)

/-- Gives a semaphore that was made as many permits as a value says. -/
def endow (style : Style) (s : Semaphore) (value : Value) : Op Semaphore :=
  if value.isTrue then fill style s value >>= fun _ => pure s else pure s

theorem mint_of_not_below {value : Value} (low : isBelow 0 value = .ok false) (options : Options)
    (source : SourceRef) : mint options source value =
      Identifier.mint source >>= fun text =>
        (create options (.text text)).waitedFor options.style >>= (endow options.style · value) := by
  rw [mint_eq, low]
  rfl

section Endow

variable {value : Value} {style : Style} {s : Semaphore} (own : s.store.style = style)
include own

/-- A semaphore is filled with as many permits as its value says. -/
theorem endow_of_starts {n : Nat} (h : value.Starts n) :
    endow style s value = s.releaseTimes n >>= fun _ => pure s := by
  cases ht : value.isTrue with
  | false =>
    -- To release nothing is refused, so a value that says none is not asked for it.
    obtain rfl : n = 0 := eq_zero_of_starts h ht
    rw [endow, ht]
    rfl
  | true =>
    rw [endow, ht, fill_of_eq own, s.release_eq, releaseCount_of_starts h ht]
    exact Op.bind_assoc (s.releaseTimes n) _ _

/-- A value that is no number of permits is refused when the semaphore is to be filled. -/
theorem starts_or_fails (low : isBelow 0 value = .ok false) :
    (∃ n, value.Starts n) ∨ ∃ f, endow style s value = .fail f := by
  cases ht : value.isTrue with
  | false => exact .inl ⟨0, starts_of_not_isTrue low ht⟩
  | true =>
    cases counts : releaseCount value with
    | ok n => exact .inl ⟨n, (starts_of_releaseCount counts).1⟩
    | error f =>
      refine .inr ⟨f, ?_⟩
      rw [endow, ht, fill_of_eq own, s.release_eq, counts]
      rfl

end Endow

/-- A number of permits below zero is refused before anything is asked for. -/
theorem mint_of_below {value : Value} (low : isBelow 0 value = .ok true) (options : Options)
    (source : SourceRef) : mint options source value = .fail .valueNegative := by
  rw [mint_eq, low]
  rfl

/-- **There is no other way**, as long as the callers of the semaphore wait as its store does. -/
theorem minting_run {σ : Type} (answer : (r : Request) → σ → r.Answer × σ) {options : Options}
    (fits : options.Fits) (source : SourceRef) (value : Value) (t : σ) :
    Minting answer options source value t
      ((Course.perform (mint options source value)).run answer t).events
      ((Course.perform (mint options source value)).run answer t).result := by
  cases low : isBelow 0 value with
  | error f =>
    have refused : mint options source value = .fail f := by
      rw [mint_eq, low]
      rfl
    rw [refused]
    exact .refused low
  | ok b =>
    cases b with
    | true =>
      rw [mint_of_below low]
      exact .negative low
    | false =>
      rw [mint_of_not_below low, Course.run_perform_bind]
      rcases named : (Course.perform (Identifier.mint source)).run answer t with ⟨es, f | text, t'⟩
      · exact .unnamed named
      dsimp only
      rw [Course.run_perform_bind, Course.run_waitedFor]
      have ends := Course.ends_run answer (create options (.text text)) t'
      rcases made : (Course.perform (create options (.text text))).run answer t'
        with ⟨es', f | s, t''⟩
      · exact .unmade named made
      rw [made] at ends
      have own : s.store.style = options.style := (fits.returns_create _).ends ends
      dsimp only [Style.received]
      obtain ⟨n, starts⟩ | ⟨f, uncounted⟩ := starts_or_fails own low
      · have pushing := s.pushing_run answer n t''
        rw [endow_of_starts own starts, Course.run_perform_bind]
        generalize (Course.perform (s.releaseTimes n)).run answer t'' = ran at pushing
        obtain ⟨es'', r, t₃⟩ := ran
        have cut := Minting.filled named made starts pushing
        rw [List.append_assoc] at cut
        cases r with
        | error f => exact cut
        | ok v =>
          show Minting _ _ _ _ _ (es ++ (es' ++ (es'' ++ []))) _
          rw [List.append_nil]
          exact cut
      · rw [uncounted]
        show Minting _ _ _ _ _ (es ++ (es' ++ [])) _
        rw [List.append_nil]
        exact .uncounted named made

/-! ## The parts of a minting -/

/-- A semaphore has the name that it was made with. -/
theorem returns_name (options : Options) (name : Value) :
    (create options name).Returns fun s => s.name.toValue = name := by
  rw [create_eq]
  refine Op.Returns.check fun n hn => (Op.returns_any _).bind fun store _ => ?_
  exact Op.Returns.check fun _ _ => Name.toValue_of_check hn

section Parts

variable {σ : Type} {answer : (r : Request) → σ → r.Answer × σ} {options : Options}
  {source : SourceRef} {value : Value} {t t' t'' : σ} {es es' : List Event}
  {result : Except Failure String} {result' : Except Failure Semaphore}

theorem name_of_made {text : String} {s : Semaphore}
    (made : (Course.perform (create options (.text text))).run answer t' = ⟨es', .ok s, t''⟩) :
    s.name = .text text := by
  have ends := Course.ends_run answer (create options (.text text)) t'
  rw [made] at ends
  have same := (returns_name options (.text text)).ends ends
  cases hn : s.name <;> rw [hn] at same <;> cases same
  rfl

/-- Before it is filled, a semaphore that has a name took forty draws for it, and sent nothing. -/
theorem requests_made {text : String}
    (named : (Course.perform (Identifier.mint source)).run answer t = ⟨es, .ok text, t'⟩)
    (made : (Course.perform (create options (.text text))).run answer t' = ⟨es', result', t''⟩) :
    (requests (es ++ es')).filter Request.isDraw = List.replicate 40 (.draw source 10) ∧
      ∀ r ∈ requests (es ++ es'), r.isCommand = false := by
  obtain ⟨j, -, drawn, forty⟩ := (Identifier.draws_mint source).requests_run answer t
  have connects := (all_create options (.text text)).requests_run answer t'
  rw [named] at drawn forty
  rw [made] at connects
  obtain rfl : j = 40 := forty text rfl
  have drawless : (requests es').filter Request.isDraw = [] := by
    refine List.filter_eq_nil_iff.mpr fun r hr => ?_
    obtain ⟨c, rfl⟩ := connects r hr
    exact Bool.false_ne_true
  rw [requests_append, List.filter_append, drawless, drawn, List.append_nil]
  refine ⟨List.filter_replicate_of_pos rfl, List.forall_mem_append.mpr ⟨fun r hr => ?_, fun r hr => ?_⟩⟩
  · obtain rfl := List.eq_of_mem_replicate hr
    rfl
  · obtain ⟨c, rfl⟩ := connects r hr
    rfl

/-- To name a semaphore is to send nothing. -/
theorem requests_named
    (named : (Course.perform (Identifier.mint source)).run answer t = ⟨es, result, t'⟩) :
    ∀ r ∈ requests es, r.isCommand = false := by
  obtain ⟨j, -, drawn, -⟩ := (Identifier.draws_mint source).requests_run answer t
  rw [named] at drawn
  intro r hr
  rw [drawn] at hr
  obtain rfl := List.eq_of_mem_replicate hr
  rfl

/-- What was drawn and sent for a new semaphore that has come about. -/
theorem Minting.of_ok {s : Semaphore} {r : Except Failure Semaphore}
    (h : Minting answer options source value t es r) (hr : r = .ok s) :
    ∃ n text, value.Starts n ∧
      ((Course.perform (Identifier.mint source)).run answer t).result = .ok text ∧
      s.name = .text text ∧
      (requests es).filter Request.isDraw = List.replicate 40 (.draw source 10) ∧
      (requests es).filter Request.isCommand =
        List.replicate n (.command s.store.executor (.push s.name permit)) ∧
      (∀ e ∈ es, e.isFault = false) ∧ commands es = List.replicate n (.push s.name permit) := by
  cases h with
  | refused | negative | unnamed | unmade | uncounted => cases hr
  | @filled es es' es'' text s' n r t' t'' named made starts pushing =>
    cases r with
    | error f => cases hr
    | ok v =>
      obtain rfl : s' = s := Except.ok.inj hr
      obtain ⟨drawn, silent⟩ := requests_made named made
      obtain ⟨nothing, calm⟩ := commands_of_requests silent
      obtain ⟨sound, sent, asked⟩ := pushing.of_ok rfl
      refine ⟨n, text, starts, congrArg Run.result named, name_of_made made, ?_, ?_, ?_, ?_⟩
      · rw [requests_append, List.filter_append, drawn, pushing.draws, List.append_nil]
      · rw [requests_append, List.filter_append, asked, List.filter_eq_nil_iff.mpr fun r hr =>
          Bool.eq_false_iff.mp (silent r hr)]
        rfl
      · exact List.forall_mem_append.mpr ⟨calm, sound⟩
      · rw [commands_append, nothing, sent]
        rfl

/-- A new semaphore that does not come about has no permits, unless a push failed: that was the last thing
    that happened then. -/
theorem Minting.of_error {r : Except Failure Semaphore} {e : Failure}
    (h : Minting answer options source value t es r) (hr : r = .error e) :
    ((∀ e ∈ es, e.isFault = false) ∧ commands es = []) ∨
      ∃ (s : Semaphore) (text : String) (before : List Event) (f : Failure),
        ((Course.perform (Identifier.mint source)).run answer t).result = .ok text ∧
        s.name = .text text ∧
        es = before ++ [.sent s.store (.push s.name permit) (.error f)] ∧
        e = s.store.style.raised f ∧ (∀ e ∈ before, e.isFault = false) ∧
        commands before = List.replicate (commands before).length (.push s.name permit) := by
  have silent_of : ∀ {es : List Event}, (∀ r ∈ requests es, r.isCommand = false) →
      (∀ e ∈ es, e.isFault = false) ∧ commands es = [] := fun h => (commands_of_requests h).symm
  cases h with
  | refused | negative => exact .inl ⟨List.forall_mem_nil _, rfl⟩
  | unnamed named => exact .inl (silent_of (requests_named named))
  | unmade named made | uncounted named made =>
    exact .inl (silent_of (requests_made named made).2)
  | @filled es es' es'' text s n r t' t'' named made starts pushing =>
    cases r with
    | ok v => cases hr
    | error f =>
      obtain ⟨calm, nothing⟩ := silent_of (requests_made named made).2
      obtain ⟨before, f, rfl, rfl, sound, sent⟩ := pushing.of_error rfl
      have same : commands (es ++ es' ++ before) = commands before := by
        rw [commands_append, nothing]
        rfl
      refine .inr ⟨s, text, es ++ es' ++ before, f, congrArg Run.result named, name_of_made made,
        (List.append_assoc ..).symm, (Except.error.inj hr).symm, ?_, ?_⟩
      · exact List.forall_mem_append.mpr ⟨calm, sound⟩
      · rw [same]
        exact sent

end Parts

/-! ## What is left behind -/

/-- What was done for a new semaphore that begins with `n` permits, and what it finds.

    - Its name is the one that the source gives, and it took forty draws.
    - Each permit was pushed onto its own list, and nothing else was sent.
    - The permits stand behind what was on that list, and every other list is as it was. -/
structure Begun (x : Setting) (source : SourceRef) (st : Solo)
    (ran : Run Solo (Except Failure Semaphore)) (s : Semaphore) (n : Nat) : Prop where
  named : ∃ text, ((Course.perform (Identifier.mint source)).run x.answer st).result = .ok text ∧
    s.name = .text text
  drawn : (requests ran.events).filter Request.isDraw = List.replicate 40 (.draw source 10)
  pushed : (requests ran.events).filter Request.isCommand =
    List.replicate n (.command s.store.executor (.push s.name permit))
  nobody : ran.state.lists.waiters = []
  entries : ∀ key, ran.state.lists.entries key =
    st.lists.entries key ++ if key = s.name.key then List.replicate n [0x31] else []
  /-- Where the list was not used before, its length is told as `n`. -/
  reads : st.lists.entries s.name.key = [] → x.fails ran.state.calls = none →
    ((Course.perform s.value).run x.answer ran.state).result = .ok n

/-- What becomes of a semaphore that is to be new and to begin with some permits. -/
structure Endowed (x : Setting) (options : Options) (source : SourceRef) (value : Value) (st : Solo)
    (ran : Run Solo (Except Failure Semaphore)) : Prop where
  returned : ∀ s, ran.result = .ok s → ∃ n, value.Starts n ∧ Begun x source st ran s n
  /-- Only a push that fails leaves permits behind. -/
  refused : ∀ e, ran.result = .error e → (∀ e ∈ ran.events, e.isFault = false) →
    commands ran.events = [] ∧ ran.state.lists = st.lists
  /-- A command that fails was a push of a permit onto the list of the new name.  It is the last thing
      that happens, and the permits that were pushed before it are there. -/
  interrupted : ∀ before y c f after, ran.events = before ++ .answer (.command y c) (.error f) :: after →
    after = [] ∧ ran.result = .error (y.style.raised f) ∧
      ∃ text, ((Course.perform (Identifier.mint source)).run x.answer st).result = .ok text ∧
        c = .push (.text text) permit ∧
        commands before = List.replicate (commands before).length (.push (.text text) permit) ∧
        ∀ key, ran.state.lists.entries key = st.lists.entries key ++
          if key = Utf8.encode text then List.replicate (commands before).length [0x31] else []
  /-- Where draws give digits, no command fails, and the value and the timeout are in order, there is a
      new semaphore. -/
  succeeds : ∀ n, value.Starts n → (options.timeout.getD defaultTimeout).IsDuration →
    (∀ n, ∃ digit, Identifier.drawn (x.draws n) = .ok digit) → (∀ n, x.fails n = none) →
    ∃ s, ran.result = .ok s

end Semaphore

/-- In a row of which only the last has a property, there is one place for what has it. -/
theorem List.split_last {α : Type} {p : α → Bool} {as before after : List α} {a b : α}
    (ha : ∀ a ∈ as, p a = false) (hb : p b = true) (h : as ++ [a] = before ++ b :: after) :
    before = as ∧ b = a ∧ after = [] := by
  induction as generalizing before with
  | nil =>
    cases before with
    | nil =>
      cases h
      exact ⟨rfl, rfl, rfl⟩
    | cons d before =>
      have tail := (List.cons.inj h).2
      cases before <;> cases tail
  | cons d as ih =>
    cases before with
    | nil =>
      obtain rfl : d = b := (List.cons.inj h).1
      exact absurd hb (Bool.eq_false_iff.mp (ha d (List.mem_cons_self ..)))
    | cons e before =>
      obtain ⟨rfl, tail⟩ := List.cons.inj h
      obtain ⟨rfl, same, nothing⟩ := ih (fun a hm => ha a (List.mem_cons_of_mem d hm)) tail
      exact ⟨rfl, same, nothing⟩

namespace Semaphore

/-! ## Where nothing fails -/

/-- Does an operation end well from whatever state? -/
def Served {α : Type} (x : Setting) (op : Op α) : Prop :=
  ∀ st, ∃ a, ((Course.perform op).run x.answer st).result = .ok a

section Served

variable {α β : Type} {x : Setting}

theorem served_ok (a : α) : Served x (.ok a) := fun _ => ⟨a, rfl⟩

/-- What follows an operation only ever gets such results as it has. -/
theorem Served.bind {op : Op α} {f : α → Op β} (h : Served x op)
    (hf : ∀ a, op.Ends (.ok a) → Served x (f a)) : Served x (op >>= f) := by
  intro st
  have ends := Course.ends_run x.answer op st
  obtain ⟨a, ha⟩ := h st
  rw [Course.run_perform_bind]
  generalize (Course.perform op).run x.answer st = first at ends ha
  obtain ⟨es, result, t⟩ := first
  subst ha
  exact hf a ends t

/-- Whoever waits for what ends well is served as well. -/
theorem Served.waitedFor {op : Op α} (h : Served x op) (w : Style) : Served x (op.waitedFor w) := by
  intro st
  obtain ⟨a, ha⟩ := h st
  refine ⟨a, ?_⟩
  rw [Course.run_waitedFor, ha]
  rfl

theorem Served.times {op : Op α} (h : Served x op) : ∀ n, Served x (op.times n)
  | 0 => served_ok []
  | n + 1 => h.bind fun a _ => (Served.times h n).bind fun as _ => served_ok (a :: as)

theorem served_check {result : Except Failure α} {a : α} (h : result = .ok a) :
    Served x (Op.ofExcept result) := fun _ => ⟨a, h⟩

/-- A source that gives digits gives a name. -/
theorem served_mint_name (draws : ∀ n, ∃ digit, Identifier.drawn (x.draws n) = .ok digit)
    (source : SourceRef) : Served x (Identifier.mint source) := by
  have digit : Served x (Identifier.digit source) := fun st => draws st.drawn
  have segment : Served x (Identifier.segment source) :=
    (digit.times _).bind fun digits _ => served_ok _
  exact (segment.times _).bind fun segments _ => served_ok _

/-- A name has dashes, whatever was drawn. -/
theorem ne_empty_of_mint {source : SourceRef} {text : String}
    (h : (Identifier.mint source).Ends (.ok text)) : text ≠ "" := by
  have dashed : (Identifier.mint source).Returns (· ≠ "") := by
    refine (Op.returns_times (Identifier.segment source) Identifier.segmentCount).bind fun segments hl => ?_
    show Identifier.separator.intercalate segments ≠ ""
    match segments, hl with
    | a :: b :: rest, _ => simp [String.intercalate_cons_cons, Identifier.separator]
  exact dashed.ends h

theorem served_create {text : String} (ht : text ≠ "") {options : Options}
    (timeout : (options.timeout.getD defaultTimeout).IsDuration) :
    Served x (create options (.text text)) := by
  have found : Served x options.findStore := by
    unfold Options.findStore
    split
    · exact served_ok _
    · rw [ListStore.connect_eq]
      split
      · exact served_ok _
      · exact fun _ => ⟨_, rfl⟩
  have checked : Name.check (.text text) = .ok (.text text) := if_neg ht
  rw [create_eq]
  refine (served_check checked).bind fun name _ => found.bind fun store _ => ?_
  obtain ⟨seconds, told⟩ := timeout
  exact (served_check (Duration.finiteSeconds_of_seconds told)).bind fun _ _ => served_ok _

/-- A store whose calls do not fail takes every permit. -/
theorem served_releaseTimes (fails : ∀ n, x.fails n = none) (s : Semaphore) :
    ∀ n, Served x (s.releaseTimes n) := by
  have sent : Served x (s.store.send (.push s.name permit)) := by
    intro st
    have told : ∃ v, (x.call (.push s.name permit) st).1 = .ok v := by
      unfold Setting.call
      rw [fails]
      exact ⟨_, rfl⟩
    obtain ⟨v, hv⟩ := told
    exact ⟨v, congrArg s.store.style.received hv⟩
  have written : ∀ {record}, Served x (Op.log record) := fun _ => ⟨(), rfl⟩
  have one : Served x (Permits.release s.store s.name) := by
    rw [Permits.release_eq, s.store.push_eq]
    exact sent.bind fun reply _ => written.bind fun _ _ => served_ok reply
  intro n
  rw [s.releaseTimes_eq_times]
  exact (one.times n).bind fun acks _ => served_ok _

end Served

/-! ## The whole -/

variable {x : Setting} {st : Solo}

/-- What pushes that did not fail have left behind. -/
theorem effects_of_pushes {es : List Event} (sound : ∀ e ∈ es, e.isFault = false) {name : Name} {n : Nat}
    (pushed : commands es = List.replicate n (.push name permit)) {l : Lists} (hl : l.waiters = [])
    (key : Bytes) : (es.foldl Event.effect l).entries key =
      l.entries key ++ if key = name.key then List.replicate n [0x31] else [] := by
  rw [effects_of_sound sound, pushed]
  exact (Lists.gains_after name n l).2 hl key

/-- A new semaphore whose callers wait as its store does has the permits that it was to begin with. -/
theorem endowed_of_fits (hs : st.lists.waiters = []) {options : Options} (fits : options.Fits)
    (source : SourceRef) (value : Value) :
    Endowed x options source value st
      ((Course.perform (mint options source value)).run x.answer st) := by
  have minting := minting_run x.answer fits source value st
  have effects := x.carries.run (Course.perform (mint options source value)) st
  have nobody := (x.run_entries (Course.perform (mint options source value)) hs).1
  constructor
  case returned =>
    intro s returned
    obtain ⟨n, text, starts, named, same, drawn, pushed, sound, sent⟩ := minting.of_ok returned
    have entries : ∀ key, _ := fun key => effects ▸ effects_of_pushes sound sent hs key
    refine ⟨n, starts, ⟨text, named, same⟩, drawn, pushed, nobody, entries, fun unused works => ?_⟩
    have length : ((Course.perform (mint options source value)).run x.answer st).state.lists.length
        s.name.key = n := by
      rw [Lists.length, entries, unused, if_pos rfl]
      simp
    rw [x.run_value works, length]
  case refused =>
    intro e failed sound
    obtain ⟨-, nothing⟩ | ⟨s, text, before, f, -, -, es, -⟩ := minting.of_error failed
    · refine ⟨nothing, ?_⟩
      rw [effects, effects_of_sound sound, nothing]
      rfl
    · have fault := sound (.sent s.store (.push s.name permit) (.error f)) (by simp [es])
      cases fault
  case interrupted =>
    intro before y c f after split
    have fault : .answer (.command y c) (.error f) ∈
        ((Course.perform (mint options source value)).run x.answer st).events := by simp [split]
    cases result : ((Course.perform (mint options source value)).run x.answer st).result with
    | ok s =>
      obtain ⟨-, -, -, -, -, -, -, sound, -⟩ := minting.of_ok result
      cases sound _ fault
    | error e =>
      obtain ⟨sound, -⟩ | ⟨s, text, earlier, f', named, same, es, raised, sound, sent⟩ :=
        minting.of_error result
      · cases sound _ fault
      · obtain ⟨rfl, last, rfl⟩ := List.split_last sound rfl (es.symm.trans split)
        obtain ⟨rfl, rfl, rfl⟩ : s.store.executor = y ∧ .push s.name permit = c ∧ f' = f := by
          cases last
          exact ⟨rfl, rfl, rfl⟩
        rw [same] at sent es ⊢
        refine ⟨rfl, congrArg Except.error raised, text, named, rfl, sent, fun key => ?_⟩
        -- The push that failed changes nothing.
        rw [effects, es, List.foldl_append]
        exact effects_of_pushes sound sent hs key
  case succeeds =>
    intro n starts timeout draws fails
    have low := isBelow_of_starts starts
    rw [mint_of_not_below low]
    refine Served.bind (served_mint_name draws source) (fun text named => ?_) st
    refine ((served_create (ne_empty_of_mint named) timeout).waitedFor _).bind fun s made => ?_
    have own : s.store.style = options.style := ((fits.returns_create _).waitedFor _).ends made
    rw [endow_of_starts own starts]
    exact (served_releaseTimes fails s n).bind fun _ _ => served_ok s

/-- **A new semaphore has the permits that it was to begin with**, and nothing else is changed; one that
    has not come about has left permits behind only if a push failed.  So it is where the callers of the
    semaphore wait as its store does; and a number of permits below zero is always refused at once. -/
theorem endowed (hs : st.lists.waiters = []) (options : Options) (source : SourceRef) (value : Value) :
    let ran := (Course.perform (mint options source value)).run x.answer st
    (value.IsNegative → ran.result = .error .valueNegative ∧ ran.events = [] ∧ ran.state = st) ∧
      (options.Fits → Endowed x options source value st ran) := by
  intro ran
  refine ⟨fun low => ?_, fun fits => endowed_of_fits hs fits source value⟩
  have refused : ran = (Course.perform (.fail .valueNegative)).run x.answer st :=
    congrArg (fun op => (Course.perform op).run x.answer st)
      (mint_of_below (isBelow_of_isNegative low) options source)
  rw [refused]
  exact ⟨rfl, rfl, rfl⟩

/-- A semaphore with two permits to begin with, in a store that was empty: its value is two, and its name
    took forty draws. -/
theorem twofold_endowed :
    let options : Options := ⟨.direct, some prompt.store, none, none, none⟩
    let ran := (Course.perform (mint options .system (.int 2))).run Setting.sevens.answer { lists := {} }
    ∃ s, ran.result = .ok s ∧ ran.state.lists.entries s.name.key = [[0x31], [0x31]] ∧
      ((requests ran.events).filter Request.isDraw).length = 40 ∧
      ((Course.perform s.value).run Setting.sevens.answer ran.state).result = .ok 2 := by
  intro options ran
  have fits : options.Fits := ⟨fun _ given => by cases given; rfl, nofun⟩
  have endows : Endowed Setting.sevens options .system (.int 2) { lists := {} } ran :=
    (endowed rfl options .system (.int 2)).2 fits
  have timed : (options.timeout.getD defaultTimeout).IsDuration :=
    ⟨.ofInt 10, Duration.seconds_float (by decide +kernel)⟩
  obtain ⟨s, returned⟩ := endows.succeeds 2 (.int 2) timed (fun _ => ⟨_, rfl⟩) fun _ => rfl
  obtain ⟨n, starts, begun⟩ := endows.returned s returned
  obtain rfl : n = 2 := by
    cases starts
    rfl
  refine ⟨s, returned, ?_, ?_, begun.reads rfl rfl⟩
  · rw [begun.entries, if_pos rfl]
    rfl
  · rw [begun.drawn, List.length_replicate]

/-- **Callers who do not wait as the store does lose the permits of a new semaphore**: it comes about, but
    nobody has awaited its pushes. -/
theorem not_endowed :
    ¬∀ (x : Setting) (options : Options) (source : SourceRef) (value : Value) (st : Solo),
      st.lists.waiters = [] → Endowed x options source value st
        ((Course.perform (mint options source value)).run x.answer st) := by
  intro h
  let options : Options :=
    ⟨.direct, some ⟨⟨"lists", .awaited⟩⟩, none, some (.float (.finite false 1)), none⟩
  let ran := (Course.perform (mint options .system (.int 2))).run Setting.sevens.answer { lists := {} }
  have endows : Endowed Setting.sevens options .system (.int 2) { lists := {} } ran :=
    h .sevens options .system (.int 2) { lists := {} } rfl
  have silent : ((requests ran.events).filter Request.isCommand).length = 0 := by decide +kernel
  have returned : ran.result.isOk = true := by decide +kernel
  cases result : ran.result with
  | error f =>
    rw [result] at returned
    cases returned
  | ok s =>
    obtain ⟨n, starts, begun⟩ := endows.returned s result
    cases starts
    rw [begun.pushed, List.length_replicate] at silent
    cases silent

end Semaphore

end Permits
