/-
  Replays — what happened to one caller of a world, as a run of its own.

  Between two events of a caller anything may happen in a world.  But a caller goes on with its answers
  and with nothing else.

  1. **Ways** (`Course.Follows`): the events that lead from a course to what is left of it.  What
     happened to a caller is the way from its program to what it is about to do (`Reaches.follows`).
  2. **Replays** (`replay`): surroundings that give the answers of a row of events once more.  In them
     a course goes the same way again (`Follows.run_replay`).

  So what is true of runs in all surroundings is true of each caller among others: its events so far
  are the beginning of a run (`Reaches.run_replay`).
-/
import Permits.Proofs.World.Accounts

namespace Permits

open Course (Event Run)

/-- Some answer to a request, whatever it asks. -/
def Request.someAnswer : (r : Request) → r.Answer
  | .command .. | .draw .. => .ok .none
  | .clock => .zero
  | .log _ | .connect _ => ()

namespace Course

variable {α : Type}

/-! ## Ways -/

/-- The events that lead from a course to what is left of it. -/
inductive Follows (p : Course α) : List Event → Course α → Prop where
  | refl : Follows p [] p
  | answer {es : List Event} {r : Request} {next : r.Answer → Course α}
      (h : Follows p es (.ask r next)) (a : r.Answer) : Follows p (es ++ [.answer r a]) (next a)
  | moment {es : List Event} {m : Moment} {next : Course α} (h : Follows p es (.mark m next)) :
      Follows p (es ++ [.moment m]) next

/-! ## Replays -/

/-- Is an event an answer? -/
def Event.isAnswer : Event → Bool
  | .answer .. => true
  | .moment _ => false

open Classical in
/-- Answers a request as the first of some events does, if that is an answer to this request. -/
noncomputable def replay (r : Request) : List Event → r.Answer × List Event
  | .answer r' a :: es => if h : r' = r then (h ▸ a, es) else (r.someAnswer, es)
  | es => (r.someAnswer, es)

theorem replay_self (r : Request) (a : r.Answer) (es : List Event) :
    replay r (.answer r a :: es) = (a, es) := dif_pos rfl

/-- In surroundings that give the same answers, a course goes the same way again. -/
theorem Follows.run_replay {p q : Course α} {es : List Event} (h : p.Follows es q)
    (later : List Event) :
    (p.run replay (es.filter Event.isAnswer ++ later)).events = es ++ (q.run replay later).events := by
  induction h generalizing later with
  | refl => rfl
  | @answer es r next h a ih =>
    have first := ih (.answer r a :: later)
    have same : ((ask r next).run replay (.answer r a :: later)).events =
        .answer r a :: ((next a).run replay later).events := by
      show .answer r (replay r (.answer r a :: later)).1 :: (Run.events _) = _
      rw [replay_self]
    rw [List.filter_append, List.append_assoc, List.append_assoc]
    exact first.trans (congrArg (es ++ ·) same)
  | @moment es m next h ih =>
    rw [List.filter_append, List.append_assoc, List.append_assoc]
    exact ih later

end Course

/-! ## Callers of a world -/

namespace World

variable {k : Conditions} {start w w' : World}

/-- Has every caller come from where it was at the start, by what happened to it? -/
def Follows (start w : World) : Prop :=
  ∀ i, (start.callers i).Follows (w.eventsOf i) (w.callers i)

theorem Follows.goOn (h : start.Follows w) {i : Nat} {e : Event}
    {rest : Course (Except Failure Unit)}
    (hi : (start.callers i).Follows (w.eventsOf i ++ [e]) rest) : start.Follows (w.goOn i e rest) := by
  intro j
  by_cases hj : j = i
  · subst hj
    rw [goOn_callers_self, eventsOf_goOn_self]
    exact hi
  · rw [goOn_callers_of_ne w e rest hj, eventsOf_goOn_of_ne w e rest hj]
    exact h j

theorem Follows.ask (h : start.Follows w) {i : Nat} {r : Request}
    {next : r.Answer → Course (Except Failure Unit)} (hc : w.callers i = .ask r next)
    (a : r.Answer) : start.Follows (w.goOn i (.answer r a) (next a)) :=
  h.goOn (.answer (hc ▸ h i) a)

theorem Follows.hand (h : start.Follows w) {i : Nat} {key : Text.Bytes} (hw : w.Awaits i key)
    (v : Value) : start.Follows (w.hand i v) := by
  obtain ⟨x, name, seconds, next, hc, rfl⟩ := hw
  unfold World.hand
  rw [hc]
  exact h.ask hc (.ok v)

theorem Step.follows (hs : Step k w w') (hw : Coherent k w) (h : start.Follows w) :
    start.Follows w' := by
  cases hs with
  | tick => exact h
  | wait => exact h
  | @tell i r next hc a ha => exact h.ask hc a
  | @pass i m next hc => exact h.goOn (.moment (hc ▸ h i))
  | @serve i x c v next hc free hv =>
    have distinct := (List.nodup_append.mp (served_distinct hw c)).1
    -- The sender goes on with its reply, then each caller that was served with its entry.
    have first : start.Follows ({ w with lists := (w.lists.execute c).lists }.goOn i
        (.answer (.command x c) (.ok v)) (next (.ok v))) :=
      Follows.ask (w := { w with lists := (w.lists.execute c).lists }) h hc (.ok v)
    refine handAll_induction (P := fun _ w => start.Follows w) ?_ first distinct
      (awaits_served hw free c _ _)
    intro u e rest w hw' ha
    exact hw'.hand ha _
  | @expire v hm due =>
    exact Follows.hand (w := { w with lists := w.lists.leave v.ticket }) h (hw.awaits v hm) .none
  | @fail i x c f next hc hf =>
    exact Follows.ask (w := { w with lists := w.lists.leave i }) h hc (.error f)

/-- What happened to a caller has brought it to what it is about to do. -/
theorem Reaches.follows (h : Reaches k start w) (hw : Coherent k start)
    (hs : start.history = []) : start.Follows w := by
  induction h with
  | refl =>
    intro i
    rw [eventsOf, hs]
    exact .refl
  | step hr hs ih => exact hs.follows (hr.coherent hw) ih

/-- **What happened to a caller, and an answer to what it asks for now, are the beginning of a run of
    its program.** -/
theorem Reaches.run_replay (h : Reaches k start w) (hw : Coherent k start)
    (hs : start.history = []) {i : Nat} {r : Request}
    {next : r.Answer → Course (Except Failure Unit)} (hc : w.callers i = .ask r next)
    (a : r.Answer) : ∃ script rest,
    ((start.callers i).run Course.replay script).events =
      w.eventsOf i ++ .answer r a :: rest := by
  have follows := ((h.follows hw hs) i)
  rw [hc] at follows
  have run := (follows.answer a).run_replay []
  rw [List.append_assoc] at run
  exact ⟨_, _, run⟩

end World

end Permits
