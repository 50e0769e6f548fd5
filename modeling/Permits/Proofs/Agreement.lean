/-
  Agreement — two courses, each in its own surroundings, that come to the same.

  A **pairing** (`Pairing`) names two surroundings, the pairs of states that belong together, and how
  much of an event counts.  Two courses **agree** (`Course.Agrees`) if from states that belong
  together their runs show the same of each event, end in states that belong together, and have
  results that are related.

  There is one rule for each way to put courses together, and for operations one for each way to put
  operations together; a failure agrees with itself only (`Both`).  Blocks agree if their entering,
  their bodies and their leaving do (`agrees_block_of`).
-/
import Permits.Proofs.Routine

namespace Permits

open Course (Event Run)

/-- Two surroundings, which of their states belong together, and what of an event counts. -/
structure Pairing (σ τ : Type) where
  left : (r : Request) → σ → r.Answer × σ
  right : (r : Request) → τ → r.Answer × τ
  belong : σ → τ → Prop
  view : Event → Event

/-- Related results, or the same failure. -/
def Both {α β : Type} (R : α → β → Prop) : Except Failure α → Except Failure β → Prop
  | .ok a, .ok b => R a b
  | .error f, .error g => f = g
  | _, _ => False

theorem Both.refl {α : Type} {R : α → α → Prop} (h : ∀ a, R a a) : ∀ r, Both R r r
  | .ok a => h a
  | .error _ => rfl

theorem Both.mono {α β : Type} {R R' : α → β → Prop} (h : ∀ a b, R a b → R' a b)
    {x : Except Failure α} {y : Except Failure β} (hr : Both R x y) : Both R' x y := by
  match x, y, hr with
  | .ok a, .ok b, hr => exact h a b hr
  | .error f, .error _, rfl => rfl

theorem both_eq {α : Type} {r r' : Except Failure α} (h : Both Eq r r') : r = r' := by
  match r, r', h with
  | .ok _, .ok _, rfl => rfl
  | .error _, .error _, rfl => rfl

namespace Course

variable {α α' β β' σ τ : Type} {m : Pairing σ τ} {R : α → α' → Prop} {S : β → β' → Prop}

/-- Two runs that come to the same. -/
structure Run.Agree (m : Pairing σ τ) (R : α → α' → Prop) (p : Run σ α) (q : Run τ α') : Prop where
  result : R p.result q.result
  state : m.belong p.state q.state
  events : p.events.map m.view = q.events.map m.view

/-- Two courses that come to the same wherever their states belong together. -/
def Agrees (m : Pairing σ τ) (R : α → α' → Prop) (p : Course α) (q : Course α') : Prop :=
  ∀ s t, m.belong s t → (p.run m.left s).Agree m R (q.run m.right t)

/-! ## Courses -/

theorem agrees_done {a : α} {b : α'} (h : R a b) : (done a).Agrees m R (done b) :=
  fun _ _ hs => ⟨h, hs, rfl⟩

theorem Agrees.mono {R' : α → α' → Prop} {p : Course α} {q : Course α'} (h : p.Agrees m R q)
    (hr : ∀ a b, R a b → R' a b) : p.Agrees m R' q := by
  intro s t hs
  obtain ⟨result, state, events⟩ := h s t hs
  exact ⟨hr _ _ result, state, events⟩

/-- One more event at the beginning of two runs that agree. -/
theorem Run.Agree.after {p : Run σ α} {q : Run τ α'} (h : p.Agree m R q) {e e' : Event}
    (he : m.view e = m.view e') : (p.after e).Agree m R (q.after e') := by
  refine ⟨h.result, h.state, ?_⟩
  show m.view e :: p.events.map m.view = m.view e' :: q.events.map m.view
  rw [he, h.events]

theorem agrees_mark {e e' : Moment} {p : Course α} {q : Course α'}
    (he : m.view (.moment e) = m.view (.moment e')) (h : p.Agrees m R q) :
    (mark e p).Agrees m R (mark e' q) :=
  fun s t hs => (h s t hs).after he

/-- Requests agree if their answers do: as events, in the states they leave, and in what follows. -/
theorem agrees_ask {r r' : Request} {next : r.Answer → Course α} {next' : r'.Answer → Course α'}
    (h : ∀ s t, m.belong s t →
      m.view (.answer r (m.left r s).1) = m.view (.answer r' (m.right r' t).1) ∧
        m.belong (m.left r s).2 (m.right r' t).2 ∧
        (next (m.left r s).1).Agrees m R (next' (m.right r' t).1)) :
    (ask r next).Agrees m R (ask r' next') := by
  intro s t hs
  obtain ⟨events, state, rest⟩ := h s t hs
  exact (rest _ _ state).after events

theorem agrees_bind {p : Course α} {q : Course α'} {f : α → Course β} {g : α' → Course β'}
    (h : p.Agrees m R q) (hf : ∀ a b, R a b → (f a).Agrees m S (g b)) :
    (p >>= f).Agrees m S (q >>= g) := by
  intro s t hs
  obtain ⟨result, state, events⟩ := h s t hs
  obtain ⟨result', state', events'⟩ := hf _ _ result _ _ state
  rw [run_bind, run_bind]
  refine ⟨result', state', ?_⟩
  show ((p.run m.left s).events ++ _).map m.view = ((q.run m.right t).events ++ _).map m.view
  rw [List.map_append, List.map_append, events, events']

theorem agrees_moment {e e' : Moment} {f : Unit → Course α} {g : Unit → Course α'}
    (he : m.view (.moment e) = m.view (.moment e')) (h : (f ()).Agrees m R (g ())) :
    (moment e >>= f).Agrees m R (moment e' >>= g) :=
  agrees_mark he h

/-! ## Operations -/

theorem agrees_perform_bind {op : Op α} {op' : Op α'} {f : α → Op β} {g : α' → Op β'}
    (h : (perform op).Agrees m (Both R) (perform op'))
    (hf : ∀ a b, R a b → (perform (f a)).Agrees m (Both S) (perform (g b))) :
    (perform (op >>= f)).Agrees m (Both S) (perform (op' >>= g)) := by
  rw [perform_bind, perform_bind]
  refine agrees_bind h fun r r' hr => ?_
  match r, r', hr with
  | .ok a, .ok b, hr => exact hf a b hr
  | .error f, .error _, rfl => exact agrees_done rfl

theorem agrees_attempt {op : Op α} {op' : Op α'}
    (h : (perform op).Agrees m (Both R) (perform op')) :
    (perform op.attempt).Agrees m (Both (Both R)) (perform op'.attempt) := by
  rw [perform_attempt, perform_attempt]
  exact agrees_bind h fun r r' hr => agrees_done hr

/-- What follows a check agrees if it does for what the check gives. -/
theorem agrees_check {x : Except Failure α} {f : α → Op β} {g : α → Op β'}
    (h : ∀ a, x = .ok a → (perform (f a)).Agrees m (Both S) (perform (g a))) :
    (perform (.ofExcept x >>= f)).Agrees m (Both S) (perform (.ofExcept x >>= g)) := by
  cases x with
  | ok a => exact h a rfl
  | error f => exact agrees_done rfl

/-! ## Blocks -/

/-- Blocks agree if what they are made of does, and if their moments show the same. -/
theorem agrees_block_of {s s' : Semaphore} {body body' : Course (Except Failure Unit)}
    (opened : m.view (.moment (.opened s)) = m.view (.moment (.opened s')))
    (entered : m.view (.moment (.entered s)) = m.view (.moment (.entered s')))
    (left : ∀ r, m.view (.moment (.left s r)) = m.view (.moment (.left s' r)))
    (closed : ∀ r, m.view (.moment (.closed s r)) = m.view (.moment (.closed s' r)))
    (he : (perform s.enter).Agrees m (Both Eq) (perform s'.enter))
    (hb : body.Agrees m Eq body')
    (hx : (perform s.exit).Agrees m (Both Eq) (perform s'.exit)) :
    (Routine.block s body).Agrees m Eq (Routine.block s' body') := by
  refine agrees_moment opened (agrees_bind (R := Eq) ?_ ?_)
  · show (perform s.enter >>= _).Agrees _ _ (perform s'.enter >>= _)
    refine agrees_bind he fun r r' hr => ?_
    obtain rfl := both_eq hr
    cases r with
    | error f => exact agrees_done rfl
    | ok u =>
      refine agrees_bind (R := Eq) (agrees_moment entered (agrees_bind hb ?_)) ?_
      · rintro result _ rfl
        exact agrees_moment (left result) (agrees_done rfl)
      · rintro result _ rfl
        refine agrees_bind hx fun r r' hr => ?_
        obtain rfl := both_eq hr
        exact agrees_done rfl
  · rintro result _ rfl
    exact agrees_moment (closed result) (agrees_done rfl)

end Course

end Permits
