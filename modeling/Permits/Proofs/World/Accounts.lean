/-
  Accounts in the world — what holds of every caller, however callers take turns.

  `Course.Always` speaks of one course and of every way in which it may be answered.  In a world each
  caller only ever gets answers that the conditions admit, so what is `Always` so of each caller's
  course at the start holds of its account in every state that is reached (`Reaches.keeps`).

  Totals over the history are totals over callers (`total_callers`): what no single caller owes, the
  callers together do not owe either (`total_nonneg_of_callers`).
-/
import Mathlib.Data.List.Dedup
import Permits.Proofs.Account.Basic
import Permits.Proofs.World.Basic

namespace Permits.World

open Course (Event)

variable {γ : Type} {k : Conditions} {l : Ledger γ} {inv : γ → Prop}
  {post : Except Failure Unit → γ → Prop} {g : γ}

/-- For every caller, `inv` holds of its account now and will hold whatever it is answered, and when
    it is done `post` holds of its result. -/
def Keeps (k : Conditions) (l : Ledger γ) (inv : γ → Prop) (post : Except Failure Unit → γ → Prop)
    (g : γ) (w : World) : Prop :=
  ∀ i, (w.callers i).Always k.Admits l inv post (l.read g (w.eventsOf i))

theorem eventsOf_goOn_self (w : World) (i : Nat) (e : Event)
    (rest : Course (Except Failure Unit)) :
    (w.goOn i e rest).eventsOf i = w.eventsOf i ++ [e] := by
  show under i (w.history ++ [(i, e)]) = _
  rw [under_append, under_cons, if_pos rfl]
  rfl

theorem eventsOf_goOn_of_ne (w : World) {i j : Nat} (e : Event)
    (rest : Course (Except Failure Unit)) (h : j ≠ i) :
    (w.goOn i e rest).eventsOf j = w.eventsOf j := by
  have hne : ¬i = j := fun heq => h heq.symm
  show under j (w.history ++ [(i, e)]) = _
  rw [under_append, under_cons, if_neg hne, under_nil, List.append_nil]
  rfl

/-- What a caller keeps is kept when it goes on as its course says. -/
theorem Keeps.goOn {w : World} (h : w.Keeps k l inv post g) {i : Nat} {e : Event}
    {rest : Course (Except Failure Unit)}
    (hi : rest.Always k.Admits l inv post (l.update (l.read g (w.eventsOf i)) e)) :
    (w.goOn i e rest).Keeps k l inv post g := by
  intro j
  by_cases hj : j = i
  · subst hj
    rw [goOn_callers_self, eventsOf_goOn_self, Ledger.read, List.foldl_append]
    exact hi
  · rw [goOn_callers_of_ne w e rest hj, eventsOf_goOn_of_ne w e rest hj]
    exact h j

theorem Keeps.ask {w : World} (h : w.Keeps k l inv post g) {i : Nat} {r : Request}
    {next : r.Answer → Course (Except Failure Unit)} (hc : w.callers i = .ask r next)
    {a : r.Answer} (ha : k.Admits r a) : (w.goOn i (.answer r a) (next a)).Keeps k l inv post g := by
  have hi := h i
  rw [hc] at hi
  exact h.goOn (hi.2 a ha)

/-- A reply to a blocking pop keeps what is kept if it has the form of such a reply. -/
theorem Keeps.hand {w : World} (h : w.Keeps k l inv post g) {i : Nat} {key : Text.Bytes}
    (hw : w.Awaits i key) {v : Value} (hv : v = .none ∨ ∃ e, v = Lists.pair key e) :
    (w.hand i v).Keeps k l inv post g := by
  obtain ⟨x, name, seconds, next, hc, rfl⟩ := hw
  unfold World.hand
  rw [hc]
  exact h.ask hc hv

theorem Step.keeps {w w' : World} (hs : Step k w w') (hw : Coherent k w)
    (h : w.Keeps k l inv post g) : w'.Keeps k l inv post g := by
  cases hs with
  | tick => exact h
  | @tell i r next hc a ha =>
    refine h.ask hc ?_
    cases r with
    | clock => exact ha ▸ hw.reads
    | log | draw | connect => trivial
    | command => exact ha.elim
  | @pass i m next hc =>
    have hi := h i
    rw [hc] at hi
    exact h.goOn hi.2
  | @serve i x c v next hc free hv =>
    have outcome := w.lists.outcome_execute c
    have distinct := (List.nodup_append.mp (served_distinct hw c)).1
    -- The sender goes on with its reply, then each caller that was served with its entry.
    have first : ({ w with lists := (w.lists.execute c).lists }.goOn i
        (.answer (.command x c) (.ok v)) (next (.ok v))).Keeps k l inv post g :=
      Keeps.ask (w := { w with lists := (w.lists.execute c).lists }) h hc (outcome.answers hv)
    refine handAll_induction (P := fun _ w => w.Keeps k l inv post g) ?_ first distinct
      (awaits_served hw free c _ _)
    intro u e rest w hw' ha
    exact hw'.hand ha (.inr ⟨e, rfl⟩)
  | wait => exact h
  | @expire v hm due =>
    exact Keeps.hand (w := { w with lists := w.lists.leave v.ticket }) h (hw.awaits v hm) (.inl rfl)
  | @fail i x c f next hc hf =>
    exact Keeps.ask (w := { w with lists := w.lists.leave i }) h hc hf

theorem Reaches.keeps {start w : World} (h : Reaches k start w) (hw : Coherent k start)
    (hk : start.Keeps k l inv post g) : w.Keeps k l inv post g := by
  induction h with
  | refl => exact hk
  | step hr hs ih => exact hs.keeps (hr.coherent hw) ih

/-! ## Answers -/

/-- Every answer of any account that was ever given is admitted. -/
theorem Reaches.admitted {start w : World} (h : Reaches k start w) (hw : Coherent k start)
    (hs : start.history = []) {i : Nat} {e : Event} (he : (i, e) ∈ w.history)
    (hq : e.isQuiet = false) : e.AdmittedBy k.Admits := by
  -- Each caller's trace is an account, of which this is an invariant.
  have keeps : start.Keeps k .trace (fun g => ∀ e ∈ g, e.AdmittedBy k.Admits) (fun _ _ => True) [] := by
    intro j
    refine Course.always_admitted ?_
    rw [eventsOf, hs]
    exact fun e he => nomatch he
  have admitted := (h.keeps hw keeps i).invariant
  rw [Ledger.read_trace] at admitted
  refine admitted e (List.mem_append_right _ (List.mem_filter.mpr ⟨mem_under.mpr he, ?_⟩))
  rw [hq]
  rfl

/-! ## Sums over callers -/

/-- What the events of one caller add up to, and what those of the others do. -/
theorem total_eq_add (f : Event → Int) (i : Nat) (history : List (Nat × Event)) :
    total f (history.map (·.2)) =
      total f (under i history) + total f ((history.filter (·.1 ≠ i)).map (·.2)) := by
  induction history with
  | nil => rfl
  | cons p rest ih =>
    by_cases h : p.1 = i
    · rw [under_cons, if_pos h, List.filter_cons_of_neg (by simpa using h), List.map_cons,
        total_cons, total_cons, ih, Int.add_assoc]
    · rw [under_cons, if_neg h, List.filter_cons_of_pos (by simpa using h), List.map_cons,
        List.map_cons, total_cons, total_cons, ih]
      omega

/-- What all events add up to is what the events of the callers add up to, one caller after the
    other. -/
theorem total_callers (f : Event → Int) {callers : List Nat} (distinct : callers.Nodup)
    {history : List (Nat × Event)} (all : ∀ p ∈ history, p.1 ∈ callers) :
    total f (history.map (·.2)) = total (fun i => total f (under i history)) callers := by
  -- One caller after the other is taken away, and with it all that happened to it.
  induction callers generalizing history with
  | nil =>
    obtain rfl : history = [] := List.eq_nil_iff_forall_not_mem.mpr fun p hp => nomatch all p hp
    rfl
  | cons i is ih =>
    obtain ⟨fresh, distinct⟩ := List.nodup_cons.mp distinct
    have rest : ∀ p ∈ history.filter (·.1 ≠ i), p.1 ∈ is := by
      intro p hp
      obtain ⟨hm, hne⟩ := List.mem_filter.mp hp
      exact (List.mem_cons.mp (all p hm)).resolve_left (of_decide_eq_true hne)
    rw [total_eq_add f i, ih distinct rest, total_cons]
    refine congrArg _ (total_congr fun j hj => ?_)
    have hne : j ≠ i := fun h => fresh (h ▸ hj)
    rw [under_filter_ne, if_neg hne]

/-- **What no single caller owes, the callers together do not owe either.** -/
theorem total_nonneg_of_callers {f : Event → Int} {history : List (Nat × Event)}
    (h : ∀ i, 0 ≤ total f (under i history)) : 0 ≤ total f (history.map (·.2)) := by
  rw [total_callers f (List.nodup_dedup (history.map (·.1))) fun p hp =>
    List.mem_dedup.mpr (List.mem_map_of_mem hp)]
  exact total_nonneg fun i _ => h i

end Permits.World
