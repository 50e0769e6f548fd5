/-
  Accounts — what holds along a course, whatever is answered.

  A **ledger** (`Ledger`) keeps an account of a course: each event changes it.  What can be said about
  every way a course may go is a statement of one form (`Always`): as long as the answers are
  admitted, an invariant holds of the account after each event, and at the end a postcondition ties
  the account to the result.

  1. **Rules** for `Always`, one for each way to put courses together: `always_bind`,
     `always_perform_bind`, `always_attempt`.
  2. **Requests of one kind** (`Op.All`): what none of an operation's requests changes holds after it
     (`always_of_all`).
  3. **`Always.run`**: on surroundings that give admitted answers, the account of a run ends as
     promised.
-/
import Permits.Proofs.Routine

namespace Permits

/-- Is the answer to a request of no account?  No ledger looks at clock readings, at draws or at
    connections. -/
def Request.isQuiet : Request → Bool
  | clock | draw .. | connect _ => true
  | command .. | log _ => false

/-- An account and how events change it. -/
structure Ledger (γ : Type) where
  update : γ → Course.Event → γ
  quiet : ∀ (g : γ) (r : Request) (a : r.Answer), r.isQuiet = true → update g (.answer r a) = g

/-- The account after some events. -/
def Ledger.read {γ : Type} (l : Ledger γ) (g : γ) (events : List Course.Event) : γ :=
  events.foldl l.update g

/-- What things add up to. -/
def total {α : Type} (f : α → Int) : List α → Int
  | [] => 0
  | a :: as => f a + total f as

@[simp] theorem total_nil {α : Type} (f : α → Int) : total f [] = 0 := rfl

@[simp] theorem total_cons {α : Type} (f : α → Int) (a : α) (as : List α) :
    total f (a :: as) = f a + total f as := rfl

theorem total_congr {α : Type} {f g : α → Int} {as : List α} (h : ∀ a ∈ as, f a = g a) :
    total f as = total g as := by
  induction as with
  | nil => rfl
  | cons a as ih =>
    rw [total_cons, total_cons, h a (List.mem_cons_self ..), ih fun b hb => h b (List.mem_cons_of_mem a hb)]

theorem total_append {α : Type} (f : α → Int) (as bs : List α) :
    total f (as ++ bs) = total f as + total f bs := by
  induction as with
  | nil => exact (Int.zero_add _).symm
  | cons a as ih => rw [List.cons_append, total_cons, total_cons, ih, Int.add_assoc]

theorem total_sub {α : Type} (f g : α → Int) (as : List α) :
    total (fun a => f a - g a) as = total f as - total g as := by
  induction as with
  | nil => rfl
  | cons a as ih =>
    rw [total_cons, total_cons, total_cons, ih]
    omega

/-- To count is to add up ones. -/
theorem total_one {α : Type} (p : α → Bool) (as : List α) :
    total (fun a => if p a then 1 else 0) as = as.countP p := by
  induction as with
  | nil => rfl
  | cons a as ih =>
    rw [total_cons, ih, List.countP_cons]
    split <;> omega

/-- What adds nothing may be left out. -/
theorem total_filter {α : Type} {f : α → Int} {p : α → Bool} (h : ∀ a, p a = false → f a = 0)
    (as : List α) : total f (as.filter p) = total f as := by
  induction as with
  | nil => rfl
  | cons a as ih =>
    cases hp : p a with
    | true => rw [List.filter_cons_of_pos hp, total_cons, total_cons, ih]
    | false => rw [List.filter_cons_of_neg (by simp [hp]), total_cons, h a hp, ih, Int.zero_add]

theorem total_eq_zero {α : Type} {f : α → Int} {as : List α} (h : ∀ a ∈ as, f a = 0) :
    total f as = 0 := by
  induction as with
  | nil => rfl
  | cons a as ih =>
    rw [total_cons, h a (List.mem_cons_self ..), ih fun b hb => h b (List.mem_cons_of_mem a hb)]
    rfl

theorem total_nonneg {α : Type} {f : α → Int} {as : List α} (h : ∀ a ∈ as, 0 ≤ f a) :
    0 ≤ total f as := by
  induction as with
  | nil => exact Int.le_refl 0
  | cons a as ih =>
    have first := h a (List.mem_cons_self ..)
    have rest := ih fun b hb => h b (List.mem_cons_of_mem a hb)
    rw [total_cons]
    omega

/-- Is an event of no account? -/
def Course.Event.isQuiet : Course.Event → Bool
  | .answer r _ => r.isQuiet
  | .moment _ => false

/-- The account that is every event of any account, in order. -/
def Ledger.trace : Ledger (List Course.Event) where
  update g e := if e.isQuiet then g else g ++ [e]
  quiet _ _ _ h := if_pos h

theorem Ledger.mem_update_trace {g : List Course.Event} {e e' : Course.Event}
    (h : e' ∈ trace.update g e) : e' ∈ g ∨ e' = e := by
  change e' ∈ (if e.isQuiet then g else g ++ [e]) at h
  split at h
  · exact .inl h
  · exact (List.mem_append.mp h).imp_right List.mem_singleton.mp

theorem Ledger.read_trace (g events : List Course.Event) :
    trace.read g events = g ++ events.filter (!·.isQuiet) := by
  induction events generalizing g with
  | nil => exact (List.append_nil g).symm
  | cons e events ih =>
    rw [read, List.foldl_cons, ← read, ih]
    cases he : e.isQuiet <;> simp [trace, he]

namespace Course

variable {α β γ σ : Type} {admits : (r : Request) → r.Answer → Prop} {l : Ledger γ}
  {inv : γ → Prop} {post post' : α → γ → Prop}

/-- Whatever admitted answers a course gets, `inv` holds of its account throughout, and `post` of
    its result and the account at the end. -/
def Always (admits : (r : Request) → r.Answer → Prop) (l : Ledger γ) (inv : γ → Prop)
    (post : α → γ → Prop) : Course α → γ → Prop
  | done a, g => inv g ∧ post a g
  | ask r next, g => inv g ∧
      ∀ a, admits r a → Always admits l inv post (next a) (l.update g (.answer r a))
  | mark m next, g => inv g ∧ Always admits l inv post next (l.update g (.moment m))

/-! ## Rules -/

theorem Always.invariant {p : Course α} {g : γ} (h : p.Always admits l inv post g) : inv g := by
  cases p with
  | done a => exact h.1
  | ask r next => exact h.1
  | mark m next => exact h.1

theorem Always.mono {p : Course α} {g : γ} (h : p.Always admits l inv post g)
    (hp : ∀ a g, inv g → post a g → post' a g) : p.Always admits l inv post' g := by
  induction p generalizing g with
  | done a => exact ⟨h.1, hp a g h.1 h.2⟩
  | ask r next ih => exact ⟨h.1, fun a ha => ih a (h.2 a ha)⟩
  | mark m next ih => exact ⟨h.1, ih h.2⟩

/-- Of courses in sequence, the second begins with the account that the first one leaves. -/
theorem always_bind {p : Course β} {f : β → Course α} {g : γ}
    (h : p.Always admits l inv (fun b g => (f b).Always admits l inv post g) g) :
    (p >>= f).Always admits l inv post g := by
  induction p generalizing g with
  | done b => exact h.2
  | ask r next ih => exact ⟨h.1, fun a ha => ih a (h.2 a ha)⟩
  | mark m next ih => exact ⟨h.1, ih h.2⟩

/-- A moment changes the account and nothing else. -/
theorem always_moment {m : Moment} {f : Unit → Course α} {g : γ} (hi : inv g)
    (h : (f ()).Always admits l inv post (l.update g (.moment m))) :
    (moment m >>= f).Always admits l inv post g :=
  ⟨hi, h⟩

/-- A request of no account may be answered in any way. -/
theorem always_quiet {r : Request} {next : r.Answer → Course α} {g : γ} (hr : r.isQuiet = true)
    (hi : inv g) (h : ∀ a, admits r a → (next a).Always admits l inv post g) :
    (ask r next).Always admits l inv post g := by
  refine ⟨hi, fun a ha => ?_⟩
  rw [l.quiet g r a hr]
  exact h a ha

section Operations

variable {post : Except Failure α → γ → Prop} {g : γ}

/-- What a sequence of operations comes to is what the second makes of a result of the first; a
    failure of the first is one of the whole. -/
theorem always_perform_bind {op : Op β} {f : β → Op α}
    (h : (perform op).Always admits l inv
      (fun r g => match r with
        | .ok b => (perform (f b)).Always admits l inv post g
        | .error e => post (.error e) g) g) :
    (perform (op >>= f)).Always admits l inv post g := by
  rw [perform_bind]
  refine always_bind (h.mono fun r g hi hr => ?_)
  cases r with
  | ok b => exact hr
  | error e => exact ⟨hi, hr⟩

theorem always_attempt {op : Op α} {post : Except Failure (Except Failure α) → γ → Prop}
    (h : (perform op).Always admits l inv (fun r g => post (.ok r) g) g) :
    (perform op.attempt).Always admits l inv post g := by
  rw [perform_attempt]
  exact always_bind (h.mono fun r g hi hr => ⟨hi, hr⟩)

/-- Whoever awaits an operation gets its end as that arrives. -/
theorem always_waitedFor {style : Style} {op : Op α}
    (h : (perform op).Always admits l inv (fun r g => post (style.received r) g) g) :
    (perform (op.waitedFor style)).Always admits l inv post g := by
  cases style with
  | direct => exact h.mono fun r g _ hr => Style.received_direct r ▸ hr
  | awaited => exact always_perform_bind (always_attempt (h.mono fun r g hi hr => ⟨hi, hr⟩))

/-- A check asks for nothing. -/
theorem always_ofExcept {result : Except Failure α} (hi : inv g) (h : post result g) :
    (perform (.ofExcept result)).Always admits l inv post g :=
  ⟨hi, h⟩

/-- What goes on with the name that a value writes may fail with the name. -/
theorem always_named {name : Value} {op : Name → Op α} (hi : inv g)
    (hok : ∀ n, Name.check name = .ok n → (perform (op n)).Always admits l inv post g)
    (herror : ∀ f, Name.check name = .error f → post (.error f) g) :
    (perform (.named name op)).Always admits l inv post g := by
  refine always_perform_bind (always_ofExcept hi ?_)
  cases h : Name.check name with
  | ok n => exact hok n h
  | error f => exact herror f h

/-- Whatever an operation ends with is something that it can end with. -/
theorem Always.ends {op : Op α} (h : (perform op).Always admits l inv post g) :
    (perform op).Always admits l inv (fun r g => post r g ∧ op.Ends r) g := by
  induction op generalizing g with
  | done result => exact ⟨h.1, h.2, rfl⟩
  | ask r next ih =>
    exact ⟨h.1, fun a ha => (ih a (h.2 a ha)).mono fun result g hi hp => ⟨hp.1, a, hp.2⟩⟩

end Operations

end Course

/-! ## Requests of one kind -/

namespace Op

variable {α β : Type} {P Q : Request → Prop}

/-- Is every request that an operation may make of some kind? -/
def All (P : Request → Prop) : Op α → Prop
  | done _ => True
  | ask r next => P r ∧ ∀ a, (next a).All P

theorem All.mono {op : Op α} (h : op.All P) (hpq : ∀ r, P r → Q r) : op.All Q := by
  induction op with
  | done result => trivial
  | ask r next ih => exact ⟨hpq r h.1, fun a => ih a (h.2 a)⟩

theorem All.bind {op : Op α} {f : α → Op β} (h : op.All P) (hf : ∀ a, (f a).All P) :
    (op >>= f).All P := by
  induction op with
  | done result =>
    cases result with
    | ok a => exact hf a
    | error e => trivial
  | ask r next ih => exact ⟨h.1, fun a => ih a (h.2 a)⟩

theorem All.attempt {op : Op α} (h : op.All P) : op.attempt.All P := by
  induction op with
  | done result => trivial
  | ask r next ih => exact ⟨h.1, fun a => ih a (h.2 a)⟩

/-- A coroutine asks for the same. -/
theorem All.coroutine {op : Op α} (h : op.All P) : op.coroutine.All P := h.attempt.bind fun _ => trivial

theorem All.waitedFor {style : Style} {op : Op α} (h : op.All P) : (op.waitedFor style).All P := by
  cases style with
  | direct => exact h
  | awaited => exact h.coroutine

theorem All.times {op : Op α} (h : op.All P) : ∀ n, (times n op).All P
  | 0 => trivial
  | n + 1 => h.bind fun _ => (All.times h n).bind fun _ => trivial

theorem all_ofExcept (result : Except Failure α) : (ofExcept result).All P := trivial

/-- What follows a check is run with what the check gives. -/
theorem All.check {result : Except Failure α} {f : α → Op β}
    (h : ∀ a, result = .ok a → (f a).All P) : (ofExcept result >>= f).All P := by
  cases result with
  | ok a => exact h a rfl
  | error e => trivial

end Op

namespace Course

variable {α γ σ : Type} {admits : (r : Request) → r.Answer → Prop} {l : Ledger γ}
  {inv : γ → Prop} {post : α → γ → Prop}

/-- What no request of an operation changes holds after the operation if it held before. -/
theorem always_of_all {P : Request → Prop} {I : γ → Prop} {op : Op α} {g : γ} (h : op.All P)
    (step : ∀ g r a, P r → admits r a → I g → I (l.update g (.answer r a)))
    (hi : ∀ g, I g → inv g) (hg : I g) :
    (perform op).Always admits l inv (fun _ g' => I g') g := by
  induction op generalizing g with
  | done result => exact ⟨hi g hg, hg⟩
  | ask r next ih => exact ⟨hi g hg, fun a ha => ih a (h.2 a) (step g r a h.1 ha hg)⟩

/-- What every call and every block of a routine keeps, the routine keeps.  A block may open with
    another index for its body as long as it comes back to its own. -/
theorem always_routine {ι : Type} {P : Call → Prop} {I : ι → γ → Prop}
    (hi : ∀ j g, I j g → inv g)
    (hcall : ∀ c, P c → ∀ j g, I j g → (perform c.op).Always admits l inv
      (fun r g => I j (l.update g (.moment (.returned c r)))) g)
    (hblock : ∀ s body, (∀ j g, I j g → body.Always admits l inv (fun _ g => I j g) g) →
      ∀ j g, I j g → (Routine.block s body).Always admits l inv (fun _ g => I j g) g)
    {p : Routine} (h : p.Only P) {j : ι} {g : γ} (hg : I j g) :
    p.course.Always admits l inv (fun _ g => I j g) g := by
  -- A body begins with an account and an index of its own, so both stay arbitrary.
  induction p generalizing j g with
  | ends result => exact ⟨hi j g hg, hg⟩
  | call c next ih =>
    refine always_bind ((hcall c h.1 j g hg).ends.mono fun r g hg hr => ?_)
    exact always_moment hg (ih r (h.2 r hr.2) hr.1)
  | within s body next ihb ihn =>
    refine always_bind ((hblock s body.course (fun j g => ihb h.1) j g hg).mono fun r g _ hr => ?_)
    exact ihn r (h.2 r) hr

/-- Has a request been given an answer that is admitted? -/
def Event.AdmittedBy (admits : (r : Request) → r.Answer → Prop) : Event → Prop
  | .answer r a => admits r a
  | .moment _ => True

/-- No course ever records an answer that is not admitted. -/
theorem always_admitted {p : Course α} {g : List Event} (hg : ∀ e ∈ g, e.AdmittedBy admits) :
    p.Always admits .trace (fun g => ∀ e ∈ g, e.AdmittedBy admits) (fun _ _ => True) g := by
  have step : ∀ {g : List Event} {e : Event}, e.AdmittedBy admits →
      (∀ e ∈ g, e.AdmittedBy admits) → ∀ e' ∈ Ledger.trace.update g e, e'.AdmittedBy admits := by
    intro g e he hg e' he'
    rcases Ledger.mem_update_trace he' with h | rfl
    · exact hg e' h
    · exact he
  induction p generalizing g with
  | done a => exact ⟨hg, trivial⟩
  | ask r next ih => exact ⟨hg, fun a ha => ih a (step (e := .answer r a) ha hg)⟩
  | mark m next ih => exact ⟨hg, ih (step (e := .moment m) trivial hg)⟩

/-- A run on surroundings that give admitted answers ends as promised. -/
theorem Always.run {p : Course α} {g : γ} (h : p.Always admits l inv post g)
    (answer : (r : Request) → σ → r.Answer × σ) (ha : ∀ r s, admits r (answer r s).1) (s : σ) :
    post (p.run answer s).result (l.read g (p.run answer s).events) := by
  induction p generalizing g s with
  | done a => exact h.2
  | ask r next ih => exact ih (answer r s).1 (h.2 _ (ha r s)) (answer r s).2
  | mark m next ih => exact ih h.2 s

end Course

end Permits
