/-
  Release — many permits are released where some wait for them.

  A release of many permits sends one push after the other, and writes a record after each.  Between two
  of these steps other callers may take theirs.

  1. **The releasing caller** (`Semaphore.releasing`): what is left of a release with some pushes to go.
  2. **Meanwhile** (`World.Meanwhile`): steps of this caller, and of others that leave the lists as they
     are.  Of those the caller sees nothing (`Step.seen`).
  3. **From push to push** (`World.Releasing`): after so many pushes so many were served (`Serves`), and
     the caller is about to send the next one, to write a record, or to return.  Every step leads from
     one of these stages to the next (`Releasing.step`), and none is a dead end (`Releasing.completes`).
  4. **A whole release** (`World.release_serves`): the last stage, spelled out (`World.Released`).
-/
import Permits.Proofs.Interruption
import Permits.Proofs.Minting
import Permits.Proofs.World.Service

namespace Permits

open Text
open Course (Event)

/-! ## The releasing caller -/

namespace Semaphore

/-- What is left of a release with some pushes to go, once the last one before was answered. -/
def releasing (s : Semaphore) (rest : Except Failure Value → Course (Except Failure Unit)) :
    Nat → Value → Course (Except Failure Unit)
  | 0, v => rest (.ok v)
  | m + 1, _ => Course.perform (s.releaseTimes (m + 1)) >>= rest

/-- The next push, and what follows its answer. -/
def pushing (s : Semaphore) (rest : Except Failure Value → Course (Except Failure Unit)) (m : Nat) :
    Except Failure Value → Course (Except Failure Unit)
  | .ok v => .ask (.log (.pushed s.store.style s.name v)) fun _ => s.releasing rest m v
  | .error f => rest (.error (s.store.style.raised f))

theorem releasing_succ (s : Semaphore) (rest : Except Failure Value → Course (Except Failure Unit))
    (m : Nat) (v : Value) : s.releasing rest (m + 1) v =
      .ask (.command s.store.executor (.push s.name permit)) (s.pushing rest m) := by
  cases m with
  | zero =>
    show Course.perform (Permits.release s.store s.name) >>= rest = _
    rw [Permits.release_eq, s.store.push_eq]
    refine congrArg (Course.ask _) (funext fun a => ?_)
    cases a <;> rfl
  | succ m =>
    show Course.perform (Permits.release s.store s.name >>= fun _ => s.releaseTimes (m + 1)) >>= rest = _
    rw [Permits.release_eq, s.store.push_eq]
    refine congrArg (Course.ask _) (funext fun a => ?_)
    cases a <;> rfl

end Semaphore

namespace World

variable {k : Conditions} {w u u' : World} {i : Nat}

/-! ## Meanwhile -/

/-- May a step happen while a caller releases permits?  Others may go on as long as they leave the lists as
    they are. -/
def Spares (i : Nat) (u u' : World) : Prop :=
  (u'.lists = u.lists ∧ u'.eventsOf i = u.eventsOf i) ∨
    ∃ r a later, u'.history = u.history ++ (i, .answer r a) :: later

theorem spares_answer (u : World) (i : Nat) (r : Request) (a : r.Answer)
    (rest : Course (Except Failure Unit)) (l : Lists) (served : List (Waiter × Bytes)) :
    u.Spares i (({ u with lists := l }.goOn i (.answer r a) rest).handAll served) := by
  obtain ⟨later, history⟩ := handAll_history ({ u with lists := l }.goOn i (.answer r a) rest) served
  exact .inr ⟨r, a, later, history.symm.trans (List.append_assoc ..)⟩

/-- Such steps one after the other. -/
inductive Meanwhile (k : Conditions) (i : Nat) (w : World) : World → Prop where
  | refl : Meanwhile k i w w
  | step {u u' : World} (h : Meanwhile k i w u) (hs : Step k u u') (spares : u.Spares i u') :
      Meanwhile k i w u'

theorem Meanwhile.reaches (h : Meanwhile k i w u) : Reaches k w u := by
  induction h with
  | refl => exact .refl
  | step _ hs _ ih => exact ih.step hs

theorem Meanwhile.trans {v : World} (h : Meanwhile k i w u) (h' : Meanwhile k i u v) :
    Meanwhile k i w v := by
  induction h' with
  | refl => exact h
  | step _ hs spares ih => exact ih.step hs spares

/-- What a caller that does not wait may see of such a step: nothing, or an answer that it was given. -/
inductive Seen (k : Conditions) (i : Nat) (u : World) : World → Prop where
  | nothing {u' : World} (lists : u'.lists = u.lists) (callers : u'.callers i = u.callers i) :
      Seen k i u u'
  | told {u' : World} {r : Request} {next : r.Answer → Course (Except Failure Unit)} {a : r.Answer}
      (asks : u.callers i = .ask r next) (ha : u.Tells r a) (lists : u'.lists = u.lists)
      (callers : u'.callers i = next a) : Seen k i u u'
  | served {x : Executor} {c : Command} {v : Value}
      {next : Except Failure Value → Course (Except Failure Unit)}
      (asks : u.callers i = .ask (.command x c) next)
      (hv : (u.lists.execute c).reply = some v) :
      Seen k i u (({ u with lists := (u.lists.execute c).lists }.goOn i (.answer (.command x c) (.ok v))
        (next (.ok v))).handAll (u.lists.execute c).served)

theorem Step.seen (hs : Step k u u') (spares : u.Spares i u') (hu : Coherent k u) (calm : k.Calm)
    (hi : ∀ v ∈ u.lists.waiters, v.ticket ≠ i) : Seen k i u u' := by
  cases hs with
  | tick => exact .nothing rfl rfl
  | @tell j r next h a ha =>
    by_cases hj : j = i
    · subst hj
      exact .told h ha rfl (goOn_callers_self ..)
    · exact .nothing rfl (goOn_callers_of_ne _ _ _ (Ne.symm hj))
  | @pass j m next h =>
    by_cases hj : j = i
    · -- A moment is no answer.
      subst hj
      exfalso
      rcases spares with ⟨-, same⟩ | ⟨r, a, later, same⟩
      · rw [eventsOf_goOn_self] at same
        exact List.cons_ne_nil _ _ (List.append_right_eq_self.mp same)
      · cases List.append_cancel_left same
    · exact .nothing rfl (goOn_callers_of_ne _ _ _ (Ne.symm hj))
  | @serve j x c v next h free hv =>
    by_cases hj : j = i
    · subst hj
      exact .served h hv
    · rcases spares with ⟨lists, -⟩ | ⟨r, a, later, same⟩
      · refine .nothing lists ?_
        rw [handAll_callers_of_notMem (unserved_of_ticket_ne hi c)]
        exact goOn_callers_of_ne _ _ _ (Ne.symm hj)
      · exfalso
        obtain ⟨more, hmore⟩ := handAll_history (({ u with lists := (u.lists.execute c).lists }).goOn j
          (.answer (.command x c) (.ok v)) (next (.ok v))) (u.lists.execute c).served
        have first : u.history ++ [(j, .answer (.command x c) (.ok v))] ++ more =
            u.history ++ (i, .answer r a) :: later := hmore.trans same
        rw [List.append_assoc] at first
        exact hj (Prod.mk.inj (List.cons.inj (List.append_cancel_left first)).1).1
  | @wait j x name seconds next h free hv =>
    exfalso
    rcases spares with ⟨lists, -⟩ | ⟨r, a, later, same⟩
    · have waiters : u.lists.waiters ++ [_] = u.lists.waiters := congrArg Lists.waiters lists
      exact List.cons_ne_nil _ _ (List.append_right_eq_self.mp waiters)
    · exact List.cons_ne_nil _ _ (List.append_right_eq_self.mp same.symm)
  | @expire v h due =>
    exfalso
    rcases spares with ⟨lists, -⟩ | ⟨r, a, later, same⟩
    · rw [hand_lists] at lists
      have still : v ∈ (u.lists.leave v.ticket).waiters := by
        show v ∈ Lists.waiters _
        rw [show u.lists.leave v.ticket = u.lists from lists]
        exact h
      exact ticket_ne_of_left v still rfl
    · obtain ⟨y, n, seconds, next, hc, -⟩ := hu.awaits v h
      rw [hand_of_ask (w := { u with lists := u.lists.leave v.ticket }) hc] at same
      exact hi v h (Prod.mk.inj (List.cons.inj (List.append_cancel_left same)).1).1
  | @fail j x c f next h hf => exact (calm f hf).elim

/-! ## From push to push -/

/-- The reply to a push that comes after `p` others: the length right after it. -/
def acknowledged (w : World) (key : Bytes) (p : Nat) : Value :=
  .int ((w.lists.entries key).length + (p - (w.lists.waitersOn key).length) + 1 : Nat)

/-- When no push is to go any more, the reply is that to the last one. -/
theorem acknowledged_of_last {key : Bytes} {n p m : Nat} (all : p + 1 + m = n) (hm : m = 0) :
    w.acknowledged key p = w.acknowledged key (n - 1) := by
  obtain rfl : p = n - 1 := by omega
  rfl

/-- How far a release of `n` permits has come: the next push is to be sent, or the answer to one is to be
    recorded, or the release is over. -/
inductive Releasing (w : World) (i : Nat) (s : Semaphore)
    (rest : Except Failure Value → Course (Except Failure Unit)) (n : Nat) : World → Prop where
  | sending {u : World} {p m : Nat} (all : p + (m + 1) = n)
      (serves : Serves w s.name.key (Lists.stored permit) p u)
      (caller : u.callers i =
        .ask (.command s.store.executor (.push s.name permit)) (s.pushing rest m)) :
      Releasing w i s rest n u
  | noting {u : World} {p m : Nat} (all : p + 1 + m = n)
      (serves : Serves w s.name.key (Lists.stored permit) (p + 1) u)
      (caller : u.callers i = s.pushing rest m (.ok (w.acknowledged s.name.key p))) :
      Releasing w i s rest n u
  | ended {u : World} (serves : Serves w s.name.key (Lists.stored permit) n u)
      (caller : u.callers i = rest (.ok (w.acknowledged s.name.key (n - 1)))) :
      Releasing w i s rest n u

section Releasing

variable {s : Semaphore} {rest : Except Failure Value → Course (Except Failure Unit)} {n p m : Nat}

/-- After the record of a push comes the next one, or the end. -/
theorem Releasing.of_releasing {v : Value} (all : p + m = n)
    (told : m = 0 → v = w.acknowledged s.name.key (n - 1))
    (serves : Serves w s.name.key (Lists.stored permit) p u)
    (caller : u.callers i = s.releasing rest m v) : Releasing w i s rest n u := by
  cases m with
  | zero =>
    obtain rfl : p = n := all
    rw [told rfl] at caller
    exact .ended serves caller
  | succ m => exact .sending all serves (caller.trans (s.releasing_succ rest m v))

/-- Who releases does not wait for an entry. -/
theorem Releasing.idle (marks : ∀ r, ∃ m next, rest r = .mark m next)
    (h : Releasing w i s rest n u) (hu : Coherent k u) : ∀ v ∈ u.lists.waiters, v.ticket ≠ i := by
  intro v hv
  refine hu.ticket_ne ?_ hv
  rintro key ⟨x, name, seconds, next, hc, -⟩
  cases h with
  | sending all serves caller => cases caller.symm.trans hc
  | noting all serves caller => cases caller.symm.trans hc
  | ended serves caller =>
    obtain ⟨m, next', hr⟩ := marks (.ok (w.acknowledged s.name.key (n - 1)))
    cases hr.symm.trans (caller.symm.trans hc)

/-- What a push comes to: one who waits is served, and the caller is told the length. -/
theorem Serves.sent (serves : Serves w s.name.key (Lists.stored permit) p u) (hw : Coherent k w)
    (hu : Coherent k u) (idle : ∀ v ∈ u.lists.waiters, v.ticket ≠ i)
    (caller : u.callers i = .ask (.command s.store.executor (.push s.name permit)) (s.pushing rest m))
    {reply : Value} (hv : (u.lists.execute (.push s.name permit)).reply = some reply) :
    let u' := ({ u with lists := (u.lists.execute (.push s.name permit)).lists }.goOn i
      (.answer (.command s.store.executor (.push s.name permit)) (.ok reply))
        (s.pushing rest m (.ok reply))).handAll (u.lists.execute (.push s.name permit)).served
    Serves w s.name.key (Lists.stored permit) (p + 1) u' ∧
      u'.callers i = s.pushing rest m (.ok (w.acknowledged s.name.key p)) := by
  intro u'
  obtain ⟨length, -, -⟩ := serves.lists.step (hw.nothing_of_waitersOn _)
  have told : reply = w.acknowledged s.name.key p := by
    refine (Option.some.inj hv).symm.trans ?_
    exact congrArg (fun l : Nat => Value.int l) length
  refine ⟨serves.push hw hu caller (free_of_ticket_ne idle) hv, ?_⟩
  rw [handAll_callers_of_notMem (unserved_of_ticket_ne idle _), goOn_callers_self, told]

/-- **Each step leads on**, to the record of a push that was answered, to the next push, or to the end. -/
theorem Releasing.step (marks : ∀ r, ∃ m next, rest r = .mark m next) (calm : k.Calm)
    (h : Releasing w i s rest n u) (hw : Coherent k w) (hu : Coherent k u) (hs : Step k u u')
    (spares : u.Spares i u') : Releasing w i s rest n u' := by
  have idle := h.idle marks hu
  have seen := hs.seen spares hu calm idle
  cases h with
  | @sending p m all serves caller =>
    cases seen with
    | nothing lists callers => exact .sending all (serves.still hu hs lists) (callers.trans caller)
    | told asks ha lists callers =>
      cases caller.symm.trans asks
      exact ha.elim
    | served asks hv =>
      cases caller.symm.trans asks
      obtain ⟨serves, caller⟩ := serves.sent hw hu idle caller hv
      exact .noting (by omega) serves caller
  | @noting p m all serves caller =>
    cases seen with
    | nothing lists callers => exact .noting all (serves.still hu hs lists) (callers.trans caller)
    | told asks ha lists callers =>
      cases caller.symm.trans asks
      exact .of_releasing all (acknowledged_of_last all) (serves.still hu hs lists) callers
    | served asks => cases caller.symm.trans asks
  | ended serves caller =>
    obtain ⟨m, next', hr⟩ := marks (.ok (w.acknowledged s.name.key (n - 1)))
    cases seen with
    | nothing lists callers => exact .ended (serves.still hu hs lists) (callers.trans caller)
    | told asks => cases hr.symm.trans (caller.symm.trans asks)
    | served asks => cases hr.symm.trans (caller.symm.trans asks)

/-- The record of a push can be written. -/
theorem Serves.notes (serves : Serves w s.name.key (Lists.stored permit) p u) (hu : Coherent k u)
    {v : Value} (caller : u.callers i = s.pushing rest m (.ok v)) :
    ∃ u', Meanwhile k i u u' ∧ Coherent k u' ∧ Serves w s.name.key (Lists.stored permit) p u' ∧
      u'.callers i = s.releasing rest m v := by
  have step : Step k u (u.goOn i (.answer (.log (.pushed s.store.style s.name v)) ())
      (s.releasing rest m v)) := .tell caller (a := ()) trivial
  refine ⟨_, .step .refl step (.inr ⟨.log _, (), [], rfl⟩), step.coherent hu, serves.still hu step rfl, ?_⟩
  exact goOn_callers_self ..

/-- The next push can be sent, and its record written. -/
theorem Serves.goesOn (serves : Serves w s.name.key (Lists.stored permit) p u) (hw : Coherent k w)
    (hu : Coherent k u) (idle : ∀ v ∈ u.lists.waiters, v.ticket ≠ i)
    (caller : u.callers i = .ask (.command s.store.executor (.push s.name permit)) (s.pushing rest m)) :
    ∃ u', Meanwhile k i u u' ∧ Coherent k u' ∧ Serves w s.name.key (Lists.stored permit) (p + 1) u' ∧
      u'.callers i = s.releasing rest m (w.acknowledged s.name.key p) := by
  have step := Step.serve (k := k) caller (free_of_ticket_ne idle) rfl
  obtain ⟨serves, caller⟩ := serves.sent hw hu idle caller rfl
  obtain ⟨u', notes, coherent, serves, caller⟩ := serves.notes (step.coherent hu) caller
  exact ⟨u', (Meanwhile.step .refl step (spares_answer ..)).trans notes, coherent, serves, caller⟩

/-- The pushes that are to go can be sent and recorded, up to the last one. -/
theorem Serves.completes (marks : ∀ r, ∃ m next, rest r = .mark m next) (hw : Coherent k w) {v : Value}
    (all : p + m = n) (told : m = 0 → v = w.acknowledged s.name.key (n - 1))
    (serves : Serves w s.name.key (Lists.stored permit) p u) (hu : Coherent k u)
    (caller : u.callers i = s.releasing rest m v) :
    ∃ u', Meanwhile k i u u' ∧ u'.callers i = rest (.ok (w.acknowledged s.name.key (n - 1))) := by
  induction m generalizing u p v with
  | zero =>
    rw [told rfl] at caller
    exact ⟨u, .refl, caller⟩
  | succ m ih =>
    have idle := (Releasing.of_releasing all told serves caller).idle marks hu
    rw [s.releasing_succ] at caller
    obtain ⟨u', more, coherent, serves, caller⟩ := serves.goesOn hw hu idle caller
    have left : p + 1 + m = n := (Nat.add_right_comm p 1 m).trans all
    obtain ⟨u'', others, caller⟩ := ih left (acknowledged_of_last left) serves coherent caller
    exact ⟨u'', more.trans others, caller⟩

/-- **However far a release has come, its caller alone can bring it to its end.** -/
theorem Releasing.completes (marks : ∀ r, ∃ m next, rest r = .mark m next)
    (h : Releasing w i s rest n u) (hw : Coherent k w) (hu : Coherent k u) :
    ∃ u', Meanwhile k i u u' ∧ u'.callers i = rest (.ok (w.acknowledged s.name.key (n - 1))) := by
  cases h with
  | @sending p m all serves caller =>
    exact serves.completes marks hw all nofun hu (caller.trans (s.releasing_succ rest m .none).symm)
  | @noting p m all serves caller =>
    obtain ⟨u', more, coherent, serves, caller⟩ := serves.notes hu caller
    obtain ⟨u'', others, caller⟩ :=
      serves.completes marks hw all (acknowledged_of_last all) coherent caller
    exact ⟨u'', more.trans others, caller⟩
  | ended serves caller => exact ⟨u, .refl, caller⟩

end Releasing

/-! ## A whole release -/

variable {s : Semaphore} {n : Nat}

/-- Is a caller about to release so many permits, and then to mark that the call has returned? -/
def Releases (w : World) (i : Nat) (s : Semaphore) (n : Nat) : Prop :=
  ∃ rest : Except Failure Value → Course (Except Failure Unit),
    w.callers i = Course.perform (s.release (.int n)) >>= fun r =>
      .mark (.returned (.releasePermits s (.int n)) r) (rest r)

/-- What has come of a release of `n` permits once its call is about to return. -/
structure Released (k : Conditions) (w : World) (i : Nat) (s : Semaphore) (n : Nat) (u : World) :
    Prop where
  /-- The result is the length that the last push was told. -/
  result : ∃ next, u.callers i = .mark (.returned (.releasePermits s (.int n)) (.ok (.int
    (if w.lists.waitersOn s.name.key = [] then w.lists.length s.name.key + n
      else max 1 (n - (w.lists.waitersOn s.name.key).length) : Nat)))) next
  /-- Those who waited longest were handed a permit each. -/
  handed : ∀ v ∈ (w.lists.waitersOn s.name.key).take n, w.Handed u v [0x31]
  granted : w.Exchanged k → ∀ v ∈ (w.lists.waitersOn s.name.key).take n, Grants k w u v [0x31]
  /-- The others on the list still wait, and on every other list everybody does. -/
  waiting : ∀ key, u.lists.waitersOn key =
    (w.lists.waitersOn key).drop (if key = s.name.key then n else 0)
  untouched : ∀ v ∈ u.lists.waiters,
    u.callers v.ticket = w.callers v.ticket ∧ u.eventsOf v.ticket = w.eventsOf v.ticket
  /-- What nobody waited for is on the list, and the other lists are as they were. -/
  entries : ∀ key, u.lists.entries key = w.lists.entries key ++
    if key = s.name.key then List.replicate (n - (w.lists.waitersOn s.name.key).length) [0x31] else []
  length : u.lists.length s.name.key =
    w.lists.length s.name.key + n - min n (w.lists.waitersOn s.name.key).length

/-- What the last push is told. -/
theorem acknowledged_last (hw : Coherent k w) (hn : 1 ≤ n) (key : Bytes) :
    w.acknowledged key (n - 1) = .int (if w.lists.waitersOn key = [] then w.lists.length key + n
      else max 1 (n - (w.lists.waitersOn key).length) : Nat) := by
  refine congrArg (fun l : Nat => Value.int l) ?_
  split
  · next nobody =>
    rw [nobody, List.length_nil]
    show w.lists.length key + (n - 1 - 0) + 1 = _
    omega
  · next somebody =>
    rw [hw.nothing_of_waitersOn key somebody, List.length_nil]
    have := List.length_pos_iff.mpr somebody
    omega

/-- When all pushes are answered, the release has come to what it should. -/
theorem Serves.released {rest : Except Failure Value → Course (Except Failure Unit)}
    (serves : Serves w s.name.key (Lists.stored permit) n u) (hw : Coherent k w) (hn : 1 ≤ n)
    (hu : Reaches k w u) (caller : u.callers i = .mark (.returned (.releasePermits s (.int n))
      (.ok (w.acknowledged s.name.key (n - 1)))) (rest (.ok (w.acknowledged s.name.key (n - 1))))) :
    Released k w i s n u := by
  rw [Lists.stored_permit] at serves
  refine ⟨⟨_, by rw [caller, acknowledged_last hw hn]⟩, serves.handed,
    fun exchanged v hv => (serves.handed v hv).grants exchanged hu, serves.lists.waiting,
    serves.waiting, serves.lists.entries, ?_⟩
  show (u.lists.entries s.name.key).length = (w.lists.entries s.name.key).length + n - _
  rw [serves.lists.entries, if_pos rfl, List.length_append, List.length_replicate]
  omega

/-- **A release serves those who wait, in order.**  In a world in which no call fails, a caller releases
    `n` permits of a name, and meanwhile the others go on as long as they leave the lists as they are.
    Then

    - however far the release has come, its caller can bring it to its end;
    - and once the call is about to return, the `n` pops that waited longest for the name, or all if
      there were fewer, were handed a permit each; those behind them and on all other lists are as they
      were; permits are left on the list only if nobody waits any more; and the result is the length with
      all permits if nobody waited, and else the number of those that were left, but at least one. -/
theorem release_serves (calm : k.Calm) (hw : Coherent k w) (hn : 1 ≤ n) (releases : w.Releases i s n)
    (h : Meanwhile k i w u) :
    (∃ u', Meanwhile k i u u' ∧ Released k w i s n u') ∧
      ((∃ m next, u.callers i = .mark m next) → Released k w i s n u) := by
  obtain ⟨next, caller⟩ := releases
  let rest r : Course (Except Failure Unit) :=
    .mark (.returned (.releasePermits s (.int n)) r) (next r)
  have marks : ∀ r, ∃ m next, rest r = .mark m next := fun r => ⟨_, _, rfl⟩
  have start : w.Releasing i s rest n w := by
    obtain ⟨m, rfl⟩ := Nat.exists_eq_add_of_le' hn
    rw [s.release_int hn] at caller
    exact .of_releasing (v := .none) (Nat.zero_add _) nofun (.refl ..) caller
  have goes : ∀ {u}, Meanwhile k i w u → w.Releasing i s rest n u := by
    intro u h
    induction h with
    | refl => exact start
    | step before hs spares ih => exact ih.step marks calm hw (before.reaches.coherent hw) hs spares
  have ends : ∀ {u}, Meanwhile k i w u → (∃ m next, u.callers i = .mark m next) →
      Released k w i s n u := by
    rintro u h ⟨m, after, marked⟩
    cases goes h with
    | sending all serves caller => cases caller.symm.trans marked
    | noting all serves caller => cases caller.symm.trans marked
    | ended serves caller => exact serves.released hw hn h.reaches caller
  obtain ⟨u', more, caller⟩ := (goes h).completes marks hw (h.reaches.coherent hw)
  exact ⟨⟨u', more, ends (h.trans more) ⟨_, _, caller⟩⟩, ends h⟩

/-- Two callers acquire a permit, and a third one releases three at once. -/
def crowd : Nat → Routine
  | 0 | 1 => .call (.acquire ⟨⟨"lists", .awaited⟩⟩ (.text "k") (.float (.finite false 1))) fun _ =>
    .ends (.ok ())
  | 2 => .call (.releasePermits prompt (.int 3)) fun _ => .ends (.ok ())
  | _ => .ends (.ok ())

/-- Both wait, one behind the other, and are served; one permit is left, and one is what is told. -/
theorem crowd_release_serves : ∃ w u, Reaches .still (start {} (.finite false 1) crowd) w ∧
    (w.lists.waitersOn [0x6b]).map (·.ticket) = [0, 1] ∧ Reaches .still w u ∧
    u.lists.waitersOn [0x6b] = [] ∧ u.lists.entries [0x6b] = [[0x31]] ∧
    (∃ next, u.callers 2 = .mark (.returned (.releasePermits prompt (.int 3)) (.ok (.int 1))) next) ∧
    ∀ v ∈ w.lists.waitersOn [0x6b], Grants .still w u v [0x31] := by
  have exchanges : ∀ i, (crowd i).Only Call.Exchanges := by
    intro i
    match i with
    | 0 | 1 | 2 => exact ⟨trivial, fun _ _ => trivial⟩
    | i + 3 => trivial
  obtain ⟨w, v, v', reaches, waiters, tickets, entries, caller⟩ :
      ∃ w v v', Reaches .still (start {} (.finite false 1) crowd) w ∧
        w.lists.waitersOn [0x6b] = [v, v'] ∧ [v.ticket, v'.ticket] = [0, 1] ∧
        w.lists.entries [0x6b] = [] ∧ w.callers 2 = (crowd 2).course := by
    have first := Reaches.step (Reaches.step .refl (.tell (k := .still)
      (w := start {} (.finite false 1) crowd) (i := 0) (r := .clock) rfl rfl)) (.wait (i := 0) rfl rfl rfl)
    have both := (first.step (.tell (i := 1) (r := .clock) rfl rfl)).step (.wait (i := 1) rfl rfl rfl)
    exact ⟨_, _, _, both, rfl, rfl, rfl, rfl⟩
  have exchanged : w.Exchanged .still := ⟨_, _, _, rfl, rfl, exchanges, reaches⟩
  have releases : w.Releases 2 prompt 3 := ⟨fun _ => (Routine.ends (.ok ())).course, caller⟩
  obtain ⟨⟨u, during, released⟩, -⟩ := release_serves (k := .still) (n := 3) (fun _ h => h)
    exchanged.coherent (by decide) releases .refl
  refine ⟨w, u, reaches, by rw [waiters]; exact tickets, during.reaches, ?_, ?_, ?_, fun v hv => ?_⟩
  · rw [released.waiting, waiters]
    rfl
  · rw [released.entries, entries]
    show [] ++ List.replicate (3 - (w.lists.waitersOn [0x6b]).length) _ = _
    rw [waiters]
    rfl
  · obtain ⟨next, result⟩ := released.result
    have one : (if w.lists.waitersOn [0x6b] = [] then w.lists.length [0x6b] + 3 else
        max 1 (3 - (w.lists.waitersOn [0x6b]).length)) = 1 := by
      rw [waiters]
      rfl
    exact ⟨next, result.trans (congrArg (fun l : Nat => Course.mark (.returned
      (.releasePermits prompt (.int 3)) (.ok (.int l))) next) one)⟩
  · refine released.granted exchanged v ?_
    show v ∈ (w.lists.waitersOn [0x6b]).take 3
    rw [waiters] at hv ⊢
    exact hv

end World

end Permits
