/-
  The world — any number of callers on one store, in any order.

  A world (`World`) holds the lists, a clock, what each caller is about to do, and the **history**:
  everything that happened, with the caller it happened to.  Callers are numbered; a caller that
  waits does so under its number as its ticket.

  1. **Steps** (`World.Step`): one caller gets one answer.  A command is carried out as a whole.  A
     pop that has to wait stays where it is until a push serves it, its deadline passes, or the
     call is made to fail.  The clock may show any reading that the conditions allow.
  2. **Runs** (`World.Reaches`): steps one after the other, of any callers in any order.
  3. **Coherence** (`World.Coherent`): whoever waits is a caller that asked for a blocking pop, nobody
     waits twice, and nobody waits on a list that has entries.  Every step keeps it.
-/
import Permits.Proofs.Lists
import Permits.Proofs.Routine

namespace Permits

open Number Text
open Course (Event)

/-- One store, one clock, callers, and what happened so far. -/
structure World where
  lists : Lists
  clock : Double
  callers : Nat → Course (Except Failure Unit)
  history : List (Nat × Event) := []

namespace World

/-- The world in which callers with these programs begin. -/
def start (lists : Lists) (clock : Double) (routines : Nat → Routine) : World :=
  ⟨lists, clock, fun i => (routines i).course, []⟩

/-- What happened to one caller, in order. -/
def eventsOf (w : World) (i : Nat) : List Event := under i w.history

/-- A caller had an event and is about to go on with `rest`. -/
def goOn (w : World) (i : Nat) (e : Event) (rest : Course (Except Failure Unit)) : World :=
  { w with
    callers := fun j => if j = i then rest else w.callers j
    history := w.history ++ [(i, e)] }

/-- Gives a reply to a caller that waits for one. -/
def hand (w : World) (i : Nat) (reply : Value) : World :=
  match w.callers i with
  | .ask (.command e c) next => w.goOn i (.answer (.command e c) (.ok reply)) (next (.ok reply))
  | _ => w

/-- Gives their entries to pops that were served. -/
def handAll (w : World) (served : List (Waiter × Bytes)) : World :=
  served.foldl (fun w p => w.hand p.1.ticket (Lists.pair p.1.key p.2)) w

/-! ## Steps -/

/-- The answers to requests that no store is asked: the clock shows its reading, and a source may
    draw whatever it likes. -/
def Tells (w : World) : (r : Request) → r.Answer → Prop
  | .clock, t => t = w.clock
  | .log _, _ | .draw .., _ | .connect _, _ => True
  | .command .., _ => False

/-- One step of one caller, or of the clock. -/
inductive Step (k : Conditions) : World → World → Prop where
  | tick {w : World} {t : Double} (h : k.reads t) : Step k w { w with clock := t }
  | tell {w : World} {i : Nat} {r : Request} {next : r.Answer → Course (Except Failure Unit)}
      (h : w.callers i = .ask r next) {a : r.Answer} (ha : w.Tells r a) :
      Step k w (w.goOn i (.answer r a) (next a))
  | pass {w : World} {i : Nat} {m : Moment} {next : Course (Except Failure Unit)}
      (h : w.callers i = .mark m next) : Step k w (w.goOn i (.moment m) next)
  /-- The store replies to a command at once, and serves whom it serves. -/
  | serve {w : World} {i : Nat} {x : Executor} {c : Command} {v : Value}
      {next : Except Failure Value → Course (Except Failure Unit)}
      (h : w.callers i = .ask (.command x c) next) (free : w.lists.isWaiting i = false)
      (hv : (w.lists.execute c).reply = some v) :
      Step k w
        (({ w with lists := (w.lists.execute c).lists }.goOn i (.answer (.command x c) (.ok v))
          (next (.ok v))).handAll (w.lists.execute c).served)
  | wait {w : World} {i : Nat} {x : Executor} {name : Name} {seconds : Double}
      {next : Except Failure Value → Course (Except Failure Unit)}
      (h : w.callers i = .ask (.command x (.blockingPop name seconds)) next)
      (free : w.lists.isWaiting i = false)
      (hv : (w.lists.execute (.blockingPop name seconds)).reply = none) :
      Step k w { w with lists := w.lists.wait ⟨i, name.key, w.clock.add seconds⟩ }
  /-- The deadline of a pop that waits has come. -/
  | expire {w : World} {v : Waiter} (h : v ∈ w.lists.waiters) (due : v.deadline.le w.clock = true) :
      Step k w ({ w with lists := w.lists.leave v.ticket }.hand v.ticket .none)
  /-- A call fails, also one that waits; the store is left as it is. -/
  | fail {w : World} {i : Nat} {x : Executor} {c : Command} {f : Failure}
      {next : Except Failure Value → Course (Except Failure Unit)}
      (h : w.callers i = .ask (.command x c) next) (hf : k.raises f) :
      Step k w ({ w with lists := w.lists.leave i }.goOn i (.answer (.command x c) (.error f))
        (next (.error f)))

/-- Any number of steps. -/
inductive Reaches (k : Conditions) (start : World) : World → Prop where
  | refl : Reaches k start start
  | step {v w : World} (h : Reaches k start v) (hs : Step k v w) : Reaches k start w

/-! ## Giving replies -/

/-- A caller asked for a blocking pop of a list. -/
def Awaits (w : World) (i : Nat) (key : Bytes) : Prop :=
  ∃ x name seconds next,
    w.callers i = .ask (.command x (.blockingPop name seconds)) next ∧ name.key = key

@[simp] theorem goOn_callers_self (w : World) (i : Nat) (e : Event)
    (rest : Course (Except Failure Unit)) : (w.goOn i e rest).callers i = rest := if_pos rfl

theorem goOn_callers_of_ne (w : World) {i j : Nat} (e : Event)
    (rest : Course (Except Failure Unit)) (h : j ≠ i) :
    (w.goOn i e rest).callers j = w.callers j := if_neg h

@[simp] theorem hand_lists (w : World) (i : Nat) (v : Value) : (w.hand i v).lists = w.lists := by
  unfold hand
  split <;> rfl

@[simp] theorem hand_clock (w : World) (i : Nat) (v : Value) : (w.hand i v).clock = w.clock := by
  unfold hand
  split <;> rfl

theorem hand_callers_of_ne (w : World) {i j : Nat} (v : Value) (h : j ≠ i) :
    (w.hand i v).callers j = w.callers j := by
  unfold hand
  split
  · exact goOn_callers_of_ne w _ _ h
  · rfl

@[simp] theorem handAll_lists (w : World) (served : List (Waiter × Bytes)) :
    (w.handAll served).lists = w.lists := by
  induction served generalizing w with
  | nil => rfl
  | cons p ps ih => exact (ih _).trans (hand_lists w _ _)

@[simp] theorem handAll_clock (w : World) (served : List (Waiter × Bytes)) :
    (w.handAll served).clock = w.clock := by
  induction served generalizing w with
  | nil => rfl
  | cons p ps ih => exact (ih _).trans (hand_clock w _ _)

theorem handAll_callers_of_notMem {w : World} {served : List (Waiter × Bytes)} {j : Nat}
    (h : j ∉ served.map (·.1.ticket)) : (w.handAll served).callers j = w.callers j := by
  induction served generalizing w with
  | nil => rfl
  | cons p ps ih =>
    rw [List.map_cons, List.mem_cons, not_or] at h
    exact (ih h.2).trans (hand_callers_of_ne w _ h.1)

/-- What holds after all entries are given, if each of them keeps it: each goes to a caller that asked
    for a pop of its list, since nobody is served twice. -/
theorem handAll_induction {P : List (Waiter × Bytes) → World → Prop}
    (step : ∀ v e rest w, P ((v, e) :: rest) w → w.Awaits v.ticket v.key →
      P rest (w.hand v.ticket (Lists.pair v.key e)))
    {served : List (Waiter × Bytes)} {w : World} (h : P served w)
    (distinct : (served.map (·.1.ticket)).Nodup)
    (awaits : ∀ p ∈ served, w.Awaits p.1.ticket p.1.key) : P [] (w.handAll served) := by
  induction served generalizing w with
  | nil => exact h
  | cons p ps ih =>
    obtain ⟨v, e⟩ := p
    rw [List.map_cons, List.nodup_cons] at distinct
    refine ih (step v e ps w h (awaits _ (List.mem_cons_self ..))) distinct.2 fun q hq => ?_
    -- To give one caller its entry leaves the others where they are.
    have hne : q.1.ticket ≠ v.ticket := by
      intro heq
      exact distinct.1 (heq ▸ List.mem_map_of_mem hq)
    obtain ⟨x, name, seconds, next, hc, hk⟩ := awaits q (List.mem_cons_of_mem _ hq)
    exact ⟨x, name, seconds, next, (hand_callers_of_ne w _ hne).trans hc, hk⟩

/-! ## Coherence -/

/-- Callers and those who wait fit together. -/
structure Coherent (k : Conditions) (w : World) : Prop where
  reads : k.reads w.clock
  awaits : ∀ v ∈ w.lists.waiters, w.Awaits v.ticket v.key
  distinct : (w.lists.waiters.map (·.ticket)).Nodup
  empty : ∀ v ∈ w.lists.waiters, w.lists.entries v.key = []

/-- As long as nobody waits, the world is coherent. -/
theorem coherent_start {k : Conditions} {lists : Lists} {t : Double} (hl : lists.waiters = [])
    (ht : k.reads t) (routines : Nat → Routine) : Coherent k (start lists t routines) := by
  have none_waits : ∀ v, v ∉ (start lists t routines).lists.waiters := by
    intro v hv
    exact List.not_mem_nil (hl ▸ hv)
  refine ⟨ht, fun v hv => absurd hv (none_waits v), ?_, fun v hv => absurd hv (none_waits v)⟩
  show (lists.waiters.map _).Nodup
  rw [hl]
  exact List.nodup_nil

theorem ticket_ne_of_free {w : World} {i : Nat} (free : w.lists.isWaiting i = false) {v : Waiter}
    (hv : v ∈ w.lists.waiters) : v.ticket ≠ i := by
  intro h
  have hf := List.any_eq_false.mp free v hv
  simp [h] at hf

/-- The world as it is after a command, before anybody goes on. -/
theorem served_distinct {k : Conditions} {w : World} (hw : Coherent k w) (c : Command) :
    ((w.lists.execute c).served.map (·.1.ticket) ++
      (w.lists.execute c).lists.waiters.map (·.ticket)).Nodup := by
  have h := (w.lists.outcome_execute c).perm.map (·.ticket)
  rw [List.map_append, List.map_map] at h
  exact h.nodup_iff.mpr hw.distinct

theorem mem_waiters_of_served {w : World} {c : Command} {p : Waiter × Bytes}
    (hp : p ∈ (w.lists.execute c).served) : p.1 ∈ w.lists.waiters :=
  (w.lists.outcome_execute c).perm.subset (List.mem_append_left _ (List.mem_map_of_mem hp))

theorem mem_waiters_of_left {w : World} {c : Command} {v : Waiter}
    (hv : v ∈ (w.lists.execute c).lists.waiters) : v ∈ w.lists.waiters :=
  (w.lists.outcome_execute c).perm.subset (List.mem_append_right _ hv)

theorem Awaits.goOn {w : World} {i j : Nat} {key : Bytes} (h : w.Awaits j key) (hne : j ≠ i)
    (e : Event) (rest : Course (Except Failure Unit)) : (w.goOn i e rest).Awaits j key := by
  obtain ⟨x, name, seconds, next, hc, hk⟩ := h
  exact ⟨x, name, seconds, next, (goOn_callers_of_ne w e rest hne).trans hc, hk⟩

/-- Those who are served still wait when the caller whose command served them goes on. -/
theorem awaits_served {k : Conditions} {w : World} (hw : Coherent k w) {i : Nat}
    (free : w.lists.isWaiting i = false) (c : Command) (e : Event)
    (rest : Course (Except Failure Unit)) :
    ∀ p ∈ (w.lists.execute c).served,
      ({ w with lists := (w.lists.execute c).lists }.goOn i e rest).Awaits p.1.ticket p.1.key := by
  intro p hp
  have hm := mem_waiters_of_served hp
  exact Awaits.goOn (w := { w with lists := (w.lists.execute c).lists }) (hw.awaits _ hm)
    (ticket_ne_of_free free hm) e rest

/-- A caller that goes on without a command leaves a coherent world coherent. -/
theorem Coherent.goOn {k : Conditions} {w : World} (hw : Coherent k w) {i : Nat}
    (hi : ∀ v ∈ w.lists.waiters, v.ticket ≠ i) (e : Event) (rest : Course (Except Failure Unit)) :
    Coherent k (w.goOn i e rest) where
  reads := hw.reads
  awaits v hv := (hw.awaits v hv).goOn (hi v hv) e rest
  distinct := hw.distinct
  empty := hw.empty

/-- A pop that gives up leaves a coherent world coherent. -/
theorem Coherent.leave {k : Conditions} {w : World} (hw : Coherent k w) (i : Nat) :
    Coherent k { w with lists := w.lists.leave i } where
  reads := hw.reads
  awaits v hv := hw.awaits v (List.mem_filter.mp hv).1
  distinct := hw.distinct.sublist ((List.filter_sublist ..).map _)
  empty v hv := hw.empty v (List.mem_filter.mp hv).1

theorem ticket_ne_of_left {w : World} {i : Nat} :
    ∀ v ∈ (w.lists.leave i).waiters, v.ticket ≠ i := by
  intro v hv h
  have hf := (List.mem_filter.mp hv).2
  simp [h] at hf

theorem Coherent.hand {k : Conditions} {w : World} (hw : Coherent k w) {i : Nat}
    (hi : ∀ v ∈ w.lists.waiters, v.ticket ≠ i) (reply : Value) :
    Coherent k (w.hand i reply) := by
  unfold World.hand
  split
  · exact hw.goOn hi _ _
  · exact hw

theorem Step.coherent {k : Conditions} {w w' : World} (hs : Step k w w') (hw : Coherent k w) :
    Coherent k w' := by
  cases hs with
  | tick h => exact ⟨h, hw.awaits, hw.distinct, hw.empty⟩
  | @tell i r next h a ha =>
    -- A caller that waits has asked for a pop, and is not told anything else.
    refine hw.goOn (fun v hv hi => ?_) _ _
    obtain ⟨x, name, seconds, next', hc, -⟩ := hw.awaits v hv
    rw [hi, h] at hc
    cases hc
    exact ha
  | @pass i m next h =>
    refine hw.goOn (fun v hv hi => ?_) _ _
    obtain ⟨x, name, seconds, next', hc, -⟩ := hw.awaits v hv
    rw [hi, h] at hc
    cases hc
  | @serve i x c v next h free hv =>
    have distinct := List.nodup_append.mp (served_distinct hw c)
    refine ⟨?_, fun u hu => ?_, ?_, ?_⟩
    · rw [handAll_clock]
      exact hw.reads
    -- Whoever still waits was not served, and is not the caller that sent the command.
    · rw [handAll_lists] at hu
      have hi : u.ticket ≠ i := ticket_ne_of_free free (mem_waiters_of_left hu)
      have hn : u.ticket ∉ (w.lists.execute c).served.map (·.1.ticket) := by
        intro hm
        exact distinct.2.2 _ hm _ (List.mem_map_of_mem hu) rfl
      obtain ⟨y, name, seconds, next', hc, hk⟩ := hw.awaits u (mem_waiters_of_left hu)
      refine ⟨y, name, seconds, next', ?_, hk⟩
      rw [handAll_callers_of_notMem hn, goOn_callers_of_ne _ _ _ hi]
      exact hc
    · rw [handAll_lists]
      exact distinct.2.1
    · rw [handAll_lists]
      exact (w.lists.outcome_execute c).empty hw.empty
  | @wait i x name seconds next h free hv =>
    -- Only the pop of an empty list has to wait.
    have hempty : w.lists.entries name.key = [] := by
      generalize he : w.lists.execute (.blockingPop name seconds) = effect at hv
      cases he ▸ w.lists.outcome_execute (.blockingPop name seconds) with
      | popped => cases hv
      | waits h => exact h
    refine ⟨hw.reads, fun u hu => ?_, ?_, fun u hu => ?_⟩
    · rcases List.mem_append.mp hu with hu | hu
      · exact hw.awaits u hu
      · obtain rfl := List.mem_singleton.mp hu
        exact ⟨x, name, seconds, next, h, rfl⟩
    · show ((w.lists.waiters ++ [_]).map _).Nodup
      rw [List.map_append, List.nodup_append]
      refine ⟨hw.distinct, by simp, fun a ha b hb => ?_⟩
      obtain ⟨u, hu, rfl⟩ := List.mem_map.mp ha
      obtain rfl := List.mem_singleton.mp hb
      exact ticket_ne_of_free free hu
    · rcases List.mem_append.mp hu with hu | hu
      · exact hw.empty u hu
      · obtain rfl := List.mem_singleton.mp hu
        exact hempty
  | expire h due => exact (hw.leave _).hand ticket_ne_of_left _
  | fail h hf => exact (hw.leave _).goOn ticket_ne_of_left _ _

theorem Reaches.coherent {k : Conditions} {start w : World} (h : Reaches k start w)
    (hs : Coherent k start) : Coherent k w := by
  induction h with
  | refl => exact hs
  | step _ step ih => exact step.coherent ih

end World

end Permits
