/-
  Service — how pushes serve those who wait.

  A push gives its entry to whoever waits longest on the list, and leaves it there if nobody does.

  1. **Pushes in a row** (`Lists.Pushed`): what some pushes of one entry come to for the lists.  One more
     push serves the next one who waits, and is told the length (`Lists.Pushed.step`).
  2. **Those who wait** (`Step.untouched`): whoever waits before a step and after it is where it was.
     Whoever was served is handed its entry first of all (`World.Handed`), and keeps it.
  3. **Serving** (`World.Serves`): both together, as the invariant that each push moves on by one
     (`Serves.push`) and that any step keeps which leaves the lists alone (`Serves.still`).
  4. **What a served caller tells** (`World.Grants`): it can always get to its next moment, and that moment
     accounts for the entry.  The crux is that until then it *pops nothing*
     (`Receipts.isPop_eq_false_of_taken`): receipts stay in order whatever is answered, and they would
     not if the answer were a second entry.  So nothing makes the caller wait (`Keeps.comes`).
-/
import Permits.Proofs.Delivery
import Permits.Proofs.Demands
import Permits.Proofs.World.Replay

namespace Permits

open Text
open Course (Event)

/-! ## One push after the other -/

namespace Lists

/-- Those who wait on a key, the longest waiting first. -/
def waitersOn (l : Lists) (key : Bytes) : List Waiter := l.waiters.filter (·.key = key)

theorem serve_nil (key : Bytes) (ws : List Waiter) : serve key ws [] = ([], ws, []) := by
  cases ws <;> rfl

/-- Where nobody waits on the key, nobody is served. -/
theorem serve_of_nobody {key : Bytes} {ws : List Waiter} (h : ws.filter (·.key = key) = [])
    (es : List Bytes) : serve key ws es = ([], ws, es) := by
  induction ws with
  | nil => rfl
  | cons w ws ih =>
    cases es with
    | nil => rfl
    | cons e es =>
      have other : w.key ≠ key := by simpa using List.filter_eq_nil_iff.mp h w (List.mem_cons_self ..)
      have rest : ws.filter (·.key = key) = [] := by
        rwa [List.filter_cons_of_neg (by simpa using other)] at h
      simp only [serve, other, ↓reduceIte, ih rest]

/-- A single entry serves the one who waits longest on the key. -/
theorem serve_single {key : Bytes} {ws vs : List Waiter} {v : Waiter}
    (h : ws.filter (·.key = key) = v :: vs) (e : Bytes) :
    ∃ left, serve key ws [e] = ([(v, e)], left, []) ∧
      ∀ k, left.filter (·.key = k) = if k = key then vs else ws.filter (·.key = k) := by
  induction ws with
  | nil => cases h
  | cons w ws ih =>
    by_cases hw : w.key = key
    · rw [List.filter_cons_of_pos (by simpa using hw)] at h
      obtain ⟨rfl, rfl⟩ := List.cons.inj h
      refine ⟨ws, by simp only [serve, hw, ↓reduceIte, serve_nil], fun k => ?_⟩
      split
      · next hk => rw [hk]
      · next hk =>
        have other : ¬w.key = k := fun heq => hk (heq.symm.trans hw)
        rw [List.filter_cons_of_neg (by simpa using other)]
    · rw [List.filter_cons_of_neg (by simpa using hw)] at h
      obtain ⟨left, served, rest⟩ := ih h
      refine ⟨w :: left, by simp only [serve, hw, ↓reduceIte, served], fun k => ?_⟩
      by_cases hk : w.key = k
      · have hne : k ≠ key := fun heq => hw (hk.trans heq)
        rw [List.filter_cons_of_pos (by simpa using hk), List.filter_cons_of_pos (by simpa using hk),
          rest, if_neg hne, if_neg hne]
      · rw [List.filter_cons_of_neg (by simpa using hk), List.filter_cons_of_neg (by simpa using hk),
          rest]

/-- What some pushes of one entry onto a list come to: each serves the one who waits longest, and when
    nobody waits any more the entries stay on the list. -/
structure Pushed (key e : Bytes) (p : Nat) (l l' : Lists) : Prop where
  waiting : ∀ k, l'.waitersOn k = (l.waitersOn k).drop (if k = key then p else 0)
  entries : ∀ k, l'.entries k =
    l.entries k ++ if k = key then List.replicate (p - (l.waitersOn key).length) e else []

theorem Pushed.refl (key e : Bytes) (l : Lists) : Pushed key e 0 l l := by
  refine ⟨fun k => ?_, fun k => ?_⟩
  · rw [ite_self]
    rfl
  · rw [Nat.zero_sub]
    split <;> exact (List.append_nil _).symm

/-- **One more push**: it is answered by the length right after it, and serves the next one who waits. -/
theorem Pushed.step {key e : Bytes} {p : Nat} {l l' : Lists} (h : Pushed key e p l l')
    (empty : l.waitersOn key ≠ [] → l.entries key = []) :
    (l'.push key e).1 = (l.entries key).length + (p - (l.waitersOn key).length) + 1 ∧
      (l'.push key e).2.1 = (l.waitersOn key)[p]?.toList.map (·, e) ∧
      Pushed key e (p + 1) l (l'.push key e).2.2 := by
  have waiting := h.waiting key
  have entries := h.entries key
  rw [if_pos rfl] at waiting entries
  have length : (l'.push key e).1 = (l.entries key).length + (p - (l.waitersOn key).length) + 1 := by
    show (l'.entries key ++ [e]).length = _
    rw [entries, List.length_append, List.length_append, List.length_replicate, List.length_singleton]
  refine ⟨length, ?_⟩
  cases next : (l.waitersOn key).drop p with
  | nil =>
    have all : (l.waitersOn key).length ≤ p := List.drop_eq_nil_iff.mp next
    rw [next] at waiting
    have pushed : l'.push key e = ((l'.entries key ++ [e]).length, [],
        { l'.put key (l'.entries key ++ [e]) with waiters := l'.waiters }) := by
      simp only [push, serve_of_nobody waiting]
    rw [pushed, List.getElem?_eq_none all]
    refine ⟨rfl, fun k => ?_, fun k => ?_⟩
    · refine (h.waiting k).trans ?_
      split
      · next hk => rw [hk, next, List.drop_eq_nil_of_le (Nat.le_succ_of_le all)]
      · rfl
    · show (l'.put key _).entries k = _
      rw [entries_put]
      split
      · next hk =>
        rw [entries, hk, List.append_assoc, ← List.replicate_succ',
          Nat.succ_sub all]
      · next hk => rw [h.entries k, if_neg hk]
  | cons v vs =>
    rw [next] at waiting
    have more : p < (l.waitersOn key).length := by
      apply Nat.lt_of_not_le
      intro all
      cases next.symm.trans (List.drop_eq_nil_of_le all)
    have first : (l.waitersOn key)[p]? = some v := by
      rw [← Nat.add_zero p, ← List.getElem?_drop, next]
      rfl
    have later : (l.waitersOn key).drop (p + 1) = vs := by
      rw [← List.drop_drop, next]
      rfl
    -- Somebody waits, so there is nothing on the list but what is pushed.
    have nothing : l'.entries key = [] := by
      have none : l.entries key = [] := empty fun hnil => by simp [hnil] at more
      rw [entries, none, Nat.sub_eq_zero_of_le (Nat.le_of_lt more)]
      rfl
    obtain ⟨left, served, rest⟩ := serve_single waiting e
    have pushed : l'.push key e = (1, [(v, e)], { l'.put key [] with waiters := left }) := by
      simp only [push, nothing, List.nil_append, served]
      rfl
    rw [pushed, first]
    refine ⟨rfl, fun k => ?_, fun k => ?_⟩
    · refine (rest k).trans ?_
      split
      · next hk => rw [hk, later]
      · next hk => exact (h.waiting k).trans (by rw [if_neg hk])
    · show (l'.put key []).entries k = _
      rw [entries_put]
      split
      · next hk =>
        rw [hk, ← nothing, entries, Nat.sub_eq_zero_of_le (Nat.le_of_lt more),
          Nat.sub_eq_zero_of_le more]
      · next hk => rw [h.entries k, if_neg hk]

end Lists

namespace World

variable {k : Conditions} {w u u' : World}

/-! ## Those who wait -/

theorem hand_of_ask {i : Nat} {x : Executor} {c : Command}
    {next : Except Failure Value → Course (Except Failure Unit)}
    (h : w.callers i = .ask (.command x c) next) (reply : Value) :
    w.hand i reply = w.goOn i (.answer (.command x c) (.ok reply)) (next (.ok reply)) := by
  unfold hand
  rw [h]

theorem eventsOf_hand_of_ne (w : World) {i j : Nat} (v : Value) (h : j ≠ i) :
    (w.hand i v).eventsOf j = w.eventsOf j := by
  unfold hand
  split
  · exact eventsOf_goOn_of_ne w _ _ h
  · rfl

theorem handAll_eventsOf_of_notMem {w : World} {served : List (Waiter × Bytes)} {j : Nat}
    (h : j ∉ served.map (·.1.ticket)) : (w.handAll served).eventsOf j = w.eventsOf j := by
  induction served generalizing w with
  | nil => rfl
  | cons p ps ih =>
    rw [List.map_cons, List.mem_cons, not_or] at h
    exact (ih h.2).trans (eventsOf_hand_of_ne w _ h.1)

/-- Whoever waits has asked for a blocking pop, and nothing else. -/
theorem Coherent.ticket_ne (hw : Coherent k w) {i : Nat} (h : ∀ key, ¬w.Awaits i key) {v : Waiter}
    (hv : v ∈ w.lists.waiters) : v.ticket ≠ i := by
  rintro rfl
  exact h v.key (hw.awaits v hv)

theorem free_of_ticket_ne {i : Nat} (h : ∀ v ∈ u.lists.waiters, v.ticket ≠ i) :
    u.lists.isWaiting i = false :=
  List.any_eq_false.mpr fun v hv => by simpa using h v hv

/-- Only those who wait are served. -/
theorem unserved_of_ticket_ne {i : Nat} (h : ∀ v ∈ u.lists.waiters, v.ticket ≠ i) (c : Command) :
    i ∉ (u.lists.execute c).served.map (·.1.ticket) := by
  intro hm
  obtain ⟨p, hp, rfl⟩ := List.mem_map.mp hm
  exact h p.1 (mem_waiters_of_served hp) rfl

/-- A list on which somebody waits is empty. -/
theorem Coherent.nothing_of_waitersOn (hw : Coherent k w) (key : Bytes)
    (h : w.lists.waitersOn key ≠ []) : w.lists.entries key = [] := by
  obtain ⟨v, hm⟩ := List.exists_mem_of_ne_nil _ h
  obtain ⟨hm, hk⟩ := List.mem_filter.mp hm
  exact of_decide_eq_true hk ▸ hw.empty v hm

/-- **Whoever still waits after a step is untouched by it.** -/
theorem Step.untouched (hs : Step k u u') (hu : Coherent k u) {v : Waiter}
    (hv : v ∈ u.lists.waiters) (hv' : v ∈ u'.lists.waiters) :
    u'.callers v.ticket = u.callers v.ticket ∧ u'.eventsOf v.ticket = u.eventsOf v.ticket := by
  have gone : ∀ {i : Nat} (e : Event) (rest : Course (Except Failure Unit)) {l : Lists},
      v.ticket ≠ i → ({ u with lists := l }.goOn i e rest).callers v.ticket = u.callers v.ticket ∧
        ({ u with lists := l }.goOn i e rest).eventsOf v.ticket = u.eventsOf v.ticket := by
    intro i e rest l hne
    exact ⟨goOn_callers_of_ne _ e rest hne, eventsOf_goOn_of_ne _ e rest hne⟩
  cases hs with
  | tick => exact ⟨rfl, rfl⟩
  | wait => exact ⟨rfl, rfl⟩
  | @tell i r next h a ha =>
    refine gone _ _ (hu.ticket_ne ?_ hv)
    rintro key ⟨x, name, seconds, next', hc, -⟩
    cases h.symm.trans hc
    exact ha
  | @pass i m next h =>
    refine gone _ _ (hu.ticket_ne ?_ hv)
    rintro key ⟨x, name, seconds, next', hc, -⟩
    cases h.symm.trans hc
  | @serve i x c a next h free ha =>
    rw [handAll_lists] at hv'
    have unserved : v.ticket ∉ (u.lists.execute c).served.map (·.1.ticket) := fun hm =>
      (List.nodup_append.mp (served_distinct hu c)).2.2 _ hm _ (List.mem_map_of_mem hv') rfl
    rw [handAll_callers_of_notMem unserved, handAll_eventsOf_of_notMem unserved]
    exact gone _ _ (ticket_ne_of_free free hv)
  | @expire v' h due =>
    rw [hand_lists] at hv'
    have hne := ticket_ne_of_left v hv'
    exact ⟨hand_callers_of_ne _ _ hne, eventsOf_hand_of_ne _ _ hne⟩
  | @fail i x c f next h hf => exact gone _ _ (ticket_ne_of_left v hv')

theorem hand_history (w : World) (i : Nat) (v : Value) : w.history <+: (w.hand i v).history := by
  unfold hand
  split
  · exact List.prefix_append ..
  · exact List.prefix_refl _

theorem handAll_history (w : World) (served : List (Waiter × Bytes)) :
    w.history <+: (w.handAll served).history := by
  induction served generalizing w with
  | nil => exact List.prefix_refl _
  | cons p ps ih => exact (hand_history w _ _).trans (ih _)

/-- What happened stays. -/
theorem Step.history (hs : Step k u u') : u.history <+: u'.history := by
  cases hs with
  | tick | wait => exact List.prefix_refl _
  | tell | pass | fail => exact List.prefix_append ..
  | serve =>
    refine List.IsPrefix.trans ?_ (handAll_history _ _)
    exact List.prefix_append ..
  | @expire v => exact hand_history { u with lists := u.lists.leave v.ticket } v.ticket .none

/-- Was a pop that waited handed an entry, before anything else happened to its caller? -/
def Handed (w u : World) (v : Waiter) (e : Bytes) : Prop :=
  ∃ x name seconds next later,
    w.callers v.ticket = .ask (.command x (.blockingPop name seconds)) next ∧ name.key = v.key ∧
    u.eventsOf v.ticket = w.eventsOf v.ticket ++
      .answer (.command x (.blockingPop name seconds)) (.ok (Lists.pair v.key e)) :: later

theorem Handed.mono {v : Waiter} {e : Bytes} (h : w.Handed u v e) (hu : u.history <+: u'.history) :
    w.Handed u' v e := by
  obtain ⟨x, name, seconds, next, later, hc, hk, events⟩ := h
  obtain ⟨more, hmore⟩ := hu
  refine ⟨x, name, seconds, next, later ++ under v.ticket more, hc, hk, ?_⟩
  rw [eventsOf, ← hmore, under_append, ← eventsOf, events, List.append_assoc]
  rfl

/-! ## Serving -/

/-- How a world stands after some pushes of an entry onto a list: those who waited longest were handed one
    each, and whoever still waits is untouched. -/
structure Serves (w : World) (key e : Bytes) (p : Nat) (u : World) : Prop where
  lists : w.lists.Pushed key e p u.lists
  handed : ∀ v ∈ (w.lists.waitersOn key).take p, w.Handed u v e
  waiting : ∀ v ∈ u.lists.waiters,
    u.callers v.ticket = w.callers v.ticket ∧ u.eventsOf v.ticket = w.eventsOf v.ticket

variable {key e : Bytes} {p : Nat}

theorem Serves.refl (w : World) (key e : Bytes) : Serves w key e 0 w :=
  ⟨.refl key e w.lists, fun _ h => (List.not_mem_nil h).elim, fun _ _ => ⟨rfl, rfl⟩⟩

/-- A step that leaves the lists as they are serves nobody. -/
theorem Serves.still (h : Serves w key e p u) (hu : Coherent k u) (hs : Step k u u')
    (same : u'.lists = u.lists) : Serves w key e p u' := by
  refine ⟨same ▸ h.lists, fun v hv => (h.handed v hv).mono hs.history, fun v hv => ?_⟩
  have before : v ∈ u.lists.waiters := same ▸ hv
  obtain ⟨callers, events⟩ := hs.untouched hu before hv
  obtain ⟨callers', events'⟩ := h.waiting v before
  exact ⟨callers.trans callers', events.trans events'⟩

/-- **One more push hands one more entry over**, or leaves it on the list where nobody waits. -/
theorem Serves.push {i : Nat} {x : Executor} {name : Name} {entry reply : Value}
    {next : Except Failure Value → Course (Except Failure Unit)}
    (h : Serves w name.key (Lists.stored entry) p u) (hw : Coherent k w) (hu : Coherent k u)
    (hc : u.callers i = .ask (.command x (.push name entry)) next)
    (free : u.lists.isWaiting i = false)
    (hv : (u.lists.execute (.push name entry)).reply = some reply) :
    Serves w name.key (Lists.stored entry) (p + 1)
      (({ u with lists := (u.lists.execute (.push name entry)).lists }.goOn i
        (.answer (.command x (.push name entry)) (.ok reply)) (next (.ok reply))).handAll
          (u.lists.execute (.push name entry)).served) := by
  have step := Step.serve (k := k) hc free hv
  obtain ⟨-, served, lists⟩ := h.lists.step (hw.nothing_of_waitersOn _)
  refine ⟨?_, fun v hm => ?_, fun v hm => ?_⟩
  · rw [handAll_lists]
    exact lists
  · rw [List.take_add_one, List.mem_append] at hm
    rcases hm with hm | hm
    · exact (h.handed v hm).mono step.history
    · have hget := Option.mem_toList.mp hm
      have hon : v ∈ u.lists.waitersOn name.key := by
        rw [h.lists.waiting, if_pos rfl]
        refine List.mem_of_getElem? (i := 0) ?_
        rw [List.getElem?_drop]
        exact hget
      obtain ⟨hon, hkey⟩ := List.mem_filter.mp hon
      have hkey : v.key = name.key := of_decide_eq_true hkey
      obtain ⟨y, n, seconds, next', hcaller, hn⟩ := hu.awaits v hon
      obtain ⟨callers, events⟩ := h.waiting v hon
      refine ⟨y, n, seconds, next', [], callers ▸ hcaller, hn, ?_⟩
      -- Nobody else is served, and the caller that pushed does not wait itself.
      have one : (u.lists.execute (.push name entry)).served = [(v, Lists.stored entry)] := by
        refine served.trans ?_
        rw [hget]
        rfl
      have hne := ticket_ne_of_free free hon
      let between : World := { u with lists := (u.lists.execute (.push name entry)).lists }
      have asks := (goOn_callers_of_ne between (.answer (.command x (.push name entry)) (.ok reply))
        (next (.ok reply)) hne).trans hcaller
      rw [one, handAll, List.foldl_cons, List.foldl_nil, hand_of_ask asks, eventsOf_goOn_self,
        eventsOf_goOn_of_ne _ _ _ hne]
      exact congrArg (· ++ _) events
  · rw [handAll_lists] at hm
    have before := mem_waiters_of_left (c := .push name entry) hm
    obtain ⟨callers, events⟩ := step.untouched hu before (by rw [handAll_lists]; exact hm)
    obtain ⟨callers', events'⟩ := h.waiting v before
    exact ⟨callers.trans callers', events.trans events'⟩

/-! ## What a served caller tells -/

/-- Have callers who exchange permits reached a world? -/
def Exchanged (k : Conditions) (w : World) : Prop :=
  ∃ lists t routines, lists.waiters = [] ∧ k.reads t ∧
    (∀ i, (routines i).Only Call.Exchanges) ∧ Reaches k (start lists t routines) w

theorem Reaches.trans {v : World} (h : Reaches k w u) (h' : Reaches k u v) : Reaches k w v := by
  induction h' with
  | refl => exact h
  | step _ hs ih => exact ih.step hs

theorem Reaches.history (h : Reaches k w u) : w.history <+: u.history := by
  induction h with
  | refl => exact List.prefix_refl _
  | step _ hs ih => exact ih.trans hs.history

theorem Exchanged.goesOn (h : w.Exchanged k) (hu : Reaches k w u) : u.Exchanged k := by
  obtain ⟨lists, t, routines, hl, ht, hr, hw⟩ := h
  exact ⟨lists, t, routines, hl, ht, hr, hw.trans hu⟩

theorem Exchanged.coherent (h : w.Exchanged k) : Coherent k w := by
  obtain ⟨lists, t, routines, hl, ht, hr, hw⟩ := h
  exact hw.coherent (coherent_start hl ht routines)

/-- Everybody's receipts are in order, and will be. -/
theorem Exchanged.keeps (h : w.Exchanged k) :
    w.Keeps k Receipts.ledger Receipts.Fine (fun _ g => g.Even) {} := by
  obtain ⟨lists, t, routines, hl, ht, hr, hw⟩ := h
  have even : Receipts.Even {} := ⟨⟨by simp, Nat.zero_le 1, by simp⟩, rfl⟩
  exact hw.keeps (coherent_start hl ht routines) fun i => even.routine (hr i)

end World

/-- A moment that accounts for an entry accounts for no other. -/
theorem Moment.Accounts.single {m : Moment} {taken : List (Bytes × Bytes)} (h : m.Accounts taken)
    {p : Bytes × Bytes} (hp : p ∈ taken) : m.Accounts [p] := by
  have one : taken = [p] := by
    have nothing : taken ≠ [] := List.ne_nil_of_mem hp
    cases m with
    | opened | left | closed => exact absurd h nothing
    | entered s =>
      obtain ⟨e, rfl⟩ := h
      rw [List.mem_singleton.mp hp]
    | returned c r =>
      obtain ⟨key, e, -, -, rfl⟩ | ⟨none, -⟩ := h
      · rw [List.mem_singleton.mp hp]
      · exact absurd none nothing
  exact one ▸ h

/-- There are only answers, or some and then a moment. -/
theorem Course.Event.answers_or_moment : ∀ events : List Event,
    (∀ e ∈ events, e.isAnswer = true) ∨
      ∃ es m later, events = es ++ .moment m :: later ∧ ∀ e ∈ es, e.isAnswer = true
  | [] => .inl fun _ h => nomatch h
  | .moment m :: events => .inr ⟨[], m, events, rfl, fun _ h => nomatch h⟩
  | .answer r a :: events => by
    rcases answers_or_moment events with answers | ⟨es, m, later, rfl, answers⟩
    · exact .inl (List.forall_mem_cons.mpr ⟨rfl, answers⟩)
    · exact .inr ⟨.answer r a :: es, m, later, rfl, List.forall_mem_cons.mpr ⟨rfl, answers⟩⟩

namespace Receipts

/-- Until the next moment, what was taken stays to be accounted for. -/
theorem mem_taken_read {g : Receipts} {events : List Event} (h : ∀ e ∈ events, e.isAnswer = true)
    {p : Bytes × Bytes} (hp : p ∈ g.taken) : p ∈ (ledger.read g events).taken := by
  induction events generalizing g with
  | nil => exact hp
  | cons e events ih =>
    obtain ⟨he, hs⟩ := List.forall_mem_cons.mp h
    refine ih hs ?_
    cases e with
    | moment m => cases he
    | answer r a => exact List.mem_append_left _ hp

theorem mem_settled_read {g : Receipts} {p : List (Bytes × Bytes) × Moment} (hp : p ∈ g.settled)
    (events : List Event) : p ∈ (ledger.read g events).settled := by
  induction events generalizing g with
  | nil => exact hp
  | cons e events ih =>
    refine ih ?_
    cases e with
    | moment m => exact List.mem_append_left _ hp
    | answer r a => exact hp

/-- The first moment after an entry was taken accounts for it. -/
theorem Fine.accounts_of_taken {g : Receipts} {p : Bytes × Bytes} (hp : p ∈ g.taken)
    {es later : List Event} (answers : ∀ e ∈ es, e.isAnswer = true) {m : Moment}
    (h : (ledger.read g (es ++ .moment m :: later)).Fine) : m.Accounts [p] := by
  let g' := ledger.read g es
  have settled : (g'.taken, m) ∈ (ledger.update g' (.moment m)).settled :=
    List.mem_append_right _ (List.mem_singleton.mpr rfl)
  have whole : ledger.read g (es ++ .moment m :: later) =
      ledger.read (ledger.update g' (.moment m)) later := List.foldl_append
  rw [whole] at h
  exact (h.accounts _ (mem_settled_read settled later)).single (mem_taken_read answers hp)

/-- Who has taken an entry pops nothing until its next moment: it might take a second one. -/
theorem isPop_eq_false_of_taken {α : Type} {k : Conditions} {x : Executor} {c : Command}
    {next : Except Failure Value → Course α} {g : Receipts} {post : α → Receipts → Prop}
    (h : (Course.ask (.command x c) next).Always k.Admits ledger Fine post g)
    (taken : g.taken ≠ []) : c.isPop = false := by
  have second : ∀ key v, k.Admits (.command x c) (.ok v) →
      (Event.answer (.command x c) (.ok v)).taken ≠ [(key, [])] := by
    intro key v admits both
    have single : (g.taken ++ Event.taken _).length ≤ 1 := (h.2 (.ok v) admits).invariant.single
    rw [both, List.length_append, List.length_singleton] at single
    exact taken (List.length_eq_zero_iff.mp (by omega))
  cases c with
  | push | length => rfl
  | pop name => exact (second name.key (.bytes []) (.inr ⟨[], rfl⟩) rfl).elim
  | blockingPop name seconds =>
    exact (second name.key (Lists.pair name.key []) (.inr ⟨[], rfl⟩) rfl).elim

end Receipts

namespace World

variable {k : Conditions} {w u : World}

/-- Whatever need not wait can be answered. -/
theorem Coherent.answered (hu : Coherent k u) {i : Nat} {r : Request}
    {next : r.Answer → Course (Except Failure Unit)} (asks : u.callers i = .ask r next)
    (ready : ∀ x c, r = .command x c → c.isPop = false) :
    ∃ a u', Step k u u' ∧ u'.callers i = next a ∧ u'.eventsOf i = u.eventsOf i ++ [.answer r a] := by
  cases r with
  | clock => exact ⟨u.clock, _, .tell asks rfl, goOn_callers_self .., eventsOf_goOn_self ..⟩
  | log | draw | connect =>
    exact ⟨Request.someAnswer _, _, .tell asks trivial, goOn_callers_self .., eventsOf_goOn_self ..⟩
  | command x c =>
    have ready := ready x c rfl
    have idle : ∀ v ∈ u.lists.waiters, v.ticket ≠ i := by
      intro v hv
      refine hu.ticket_ne ?_ hv
      rintro key ⟨x', name, seconds, next', hc, -⟩
      cases asks.symm.trans hc
      cases ready
    obtain ⟨v, hv⟩ : ∃ v, (u.lists.execute c).reply = some v := by
      cases c with
      | pop | blockingPop => cases ready
      | push | length => exact ⟨_, rfl⟩
    refine ⟨.ok v, _, .serve asks (free_of_ticket_ne idle) hv, ?_, ?_⟩
    · rw [handAll_callers_of_notMem (unserved_of_ticket_ne idle c), goOn_callers_self]
    · rw [handAll_eventsOf_of_notMem (unserved_of_ticket_ne idle c), eventsOf_goOn_self]
      rfl

/-- **Who has taken an entry can always get to its next moment**, whatever the others do: until then it
    pops nothing, so nothing makes it wait. -/
theorem Keeps.comes (h : u.Keeps k Receipts.ledger Receipts.Fine (fun _ g => g.Even) {})
    (hu : Coherent k u) {i : Nat} {p : Bytes × Bytes} (taken : p ∈ (u.receipts i).taken) :
    ∃ u' es m, Reaches k u u' ∧ (∀ e ∈ es, e.isAnswer = true) ∧
      u'.eventsOf i = u.eventsOf i ++ (es ++ [.moment m]) := by
  generalize asks : u.callers i = course
  induction course generalizing u with
  | done r =>
    have always := h i
    rw [asks] at always
    exact absurd always.2.none_taken (List.ne_nil_of_mem taken)
  | mark m next =>
    exact ⟨_, [], m, .step .refl (.pass asks), (fun _ h => nomatch h), eventsOf_goOn_self ..⟩
  | ask r next ih =>
    have always := h i
    rw [asks] at always
    have ready : ∀ x c, r = .command x c → c.isPop = false := by
      rintro x c rfl
      exact Receipts.isPop_eq_false_of_taken always (List.ne_nil_of_mem taken)
    obtain ⟨a, u', step, callers, events⟩ := hu.answered asks ready
    have still : p ∈ (u'.receipts i).taken := by
      rw [receipts, events, Ledger.read, List.foldl_append]
      exact List.mem_append_left _ taken
    obtain ⟨u'', es, m, reaches, answers, events'⟩ :=
      ih a (step.keeps hu h) (step.coherent hu) still callers
    refine ⟨u'', .answer r a :: es, m, (Reaches.step .refl step).trans reaches,
      List.forall_mem_cons.mpr ⟨rfl, answers⟩, ?_⟩
    rw [events', events, List.append_assoc]
    rfl

/-- What it comes to for a caller that its pop was handed an entry: however things go on, the caller can
    get to its next moment, and that moment accounts for the entry.  If it is the return of a call, the
    result of that call is the entry. -/
structure Grants (k : Conditions) (w u : World) (v : Waiter) (e : Bytes) : Prop where
  handed : w.Handed u v e
  comes : ∀ u', Reaches k u u' → ∃ u'' es m later, Reaches k u' u'' ∧ (∀ e ∈ es, e.isAnswer = true) ∧
    u''.eventsOf v.ticket = w.eventsOf v.ticket ++ (es ++ .moment m :: later)
  accounts : ∀ u' es m later, Reaches k u u' → (∀ e ∈ es, e.isAnswer = true) →
    u'.eventsOf v.ticket = w.eventsOf v.ticket ++ (es ++ .moment m :: later) → m.Accounts [(v.key, e)]

theorem Handed.grants {v : Waiter} {e : Bytes} (h : w.Handed u v e) (hw : w.Exchanged k)
    (hu : Reaches k w u) : Grants k w u v e where
  handed := h
  comes u' hu' := by
    obtain ⟨x, name, seconds, next, later, -, hk, events⟩ := h.mono hu'.history
    let first : Event := .answer (.command x (.blockingPop name seconds)) (.ok (Lists.pair v.key e))
    -- The caller may have got there already.
    rcases Event.answers_or_moment later with answers | ⟨es, m, after, rfl, answers⟩
    · have exchanged := hw.goesOn (hu.trans hu')
      have taken : (v.key, e) ∈ (u'.receipts v.ticket).taken := by
        rw [receipts, events, Ledger.read, List.foldl_append]
        refine Receipts.mem_taken_read answers (List.mem_append_right _ ?_)
        exact List.mem_singleton.mpr (by rw [← hk])
      obtain ⟨u'', es, m, reaches, answers', events'⟩ := exchanged.keeps.comes exchanged.coherent taken
      refine ⟨u'', first :: (later ++ es), m, [], reaches, ?_, ?_⟩
      · refine List.forall_mem_cons.mpr ⟨rfl, fun e he => ?_⟩
        exact (List.mem_append.mp he).elim (answers e) (answers' e)
      · rw [events', events, List.append_assoc, List.cons_append, List.cons_append, List.append_assoc]
    · exact ⟨u', first :: es, m, after, .refl, List.forall_mem_cons.mpr ⟨rfl, answers⟩, events⟩
  accounts u' es m later hu' answers events := by
    obtain ⟨x, name, seconds, next, after, -, hk, events'⟩ := h.mono hu'.history
    have same := List.append_cancel_left (events'.symm.trans events)
    have fine := ((hw.goesOn (hu.trans hu')).keeps v.ticket).invariant
    cases es with
    | nil => cases same
    | cons e' es =>
      obtain ⟨rfl, -⟩ := List.cons.inj same
      rw [events, Ledger.read, List.foldl_append] at fine
      refine Receipts.Fine.accounts_of_taken (List.mem_append_right _ ?_)
        (List.forall_mem_cons.mp answers).2 fine
      exact List.mem_singleton.mpr (by rw [← hk])

end World

end Permits
