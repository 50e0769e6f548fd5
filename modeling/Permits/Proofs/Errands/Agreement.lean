/-
  Lists apart — a name addresses its own list, and only that one.

  A lone caller runs a row of errands (`Errand.course`), on any number of lists.

  1. **Two names are as good as each other** in two surroundings (`Pairing.Likens`) if commands and
     records that differ in the name only come to the same there.  Then every errand on the one
     agrees with the same errand on the other (`Errand.agrees`).
  2. **One name for another** (`Name.likens_of_key`): a text and its bytes are as good as each other in
     one setting, since the lists know the key only.
  3. **One list at a time** (`Setting.likens_apart`): a name is as good as itself in two settings whose
     lists agree on its own list, whatever the other lists are and whatever the clocks show.

  The second is what happens to a row of errands in which some names are written otherwise, and the
  third, together with `Setting.run_staysOn`, is what happens when all errands on other lists are left
  out (`Errand.lists_apart`).
-/
import Permits.Proofs.Agreement
import Permits.Proofs.Errands.Basic

namespace Permits

open Number Text Course

/-! ## Names that are as good as each other -/

/-- The same command on the list of another name. -/
def Command.rename (n : Name) : Command → Command
  | push _ entry => push n entry
  | blockingPop _ seconds => blockingPop n seconds
  | pop _ => pop n
  | length _ => length n

/-- The same record of another name. -/
def Record.rename (n : Name) : Record → Record
  | pushed style _ reply => pushed style n reply
  | acquired _ ms => acquired n ms
  | timedOut _ ms => timedOut n ms
  | registered registrar => registered registrar

section Likens

variable {σ τ α β : Type}

/-- Are two names as good as each other?  Clock readings that stand against each other are those that
    `beat` relates. -/
structure Pairing.Likens (m : Pairing σ τ) (beat : Double → Double → Prop) (n n' : Name) : Prop where
  key : n.key = n'.key
  command : ∀ (e : Executor) (c : Command) {s t}, m.belong s t →
    (m.left (.command e (c.rename n)) s).1 = (m.right (.command e (c.rename n')) t).1 ∧
      m.belong (m.left (.command e (c.rename n)) s).2 (m.right (.command e (c.rename n')) t).2
  sent : ∀ (e : Executor) (c : Command) a,
    m.view (.answer (.command e (c.rename n)) a) = m.view (.answer (.command e (c.rename n')) a)
  log : ∀ (r r' : Record) {s t}, m.belong s t → m.belong (m.left (.log r) s).2 (m.right (.log r') t).2
  written : ∀ r : Record,
    m.view (.answer (.log (r.rename n)) ()) = m.view (.answer (.log (r.rename n')) ())
  clock : ∀ {s t}, m.belong s t →
    m.view (.answer .clock (m.left .clock s).1) = m.view (.answer .clock (m.right .clock t).1) ∧
      m.belong (m.left .clock s).2 (m.right .clock t).2 ∧
      beat (m.left .clock s).1 (m.right .clock t).1
  started : ∀ {a b}, beat a b → a.isZero = b.isZero
  measured : ∀ {a b a' b'}, beat a b → beat a' b' →
    Both (fun ms ms' => ∀ entry, m.view (.answer (.log (outcome n entry ms)) ()) =
      m.view (.answer (.log (outcome n' entry ms')) ())) (elapsed a a') (elapsed b b')

variable {m : Pairing σ τ} {beat : Double → Double → Prop} {n n' : Name} (h : m.Likens beat n n')
include h

namespace Pairing.Likens

theorem agrees_log {r r' : Record}
    (hr : m.view (.answer (.log r) ()) = m.view (.answer (.log r') ())) :
    (perform (.log r)).Agrees m (Both Eq) (perform (.log r')) :=
  agrees_ask fun _ _ hs => ⟨hr, h.log r r' hs, agrees_done rfl⟩

/-- Two looks at the clock, and what follows readings that stand against each other. -/
theorem agrees_clock {f : Double → Course α} {g : Double → Course β} {R : α → β → Prop}
    (hf : ∀ a b, beat a b → (f a).Agrees m R (g b)) :
    (ask .clock f).Agrees m R (ask .clock g) := by
  refine agrees_ask fun s t hs => ?_
  obtain ⟨view, state, looks⟩ := h.clock hs
  exact ⟨view, state, hf _ _ looks⟩

variable {s : ListStore}

theorem agrees_send (c : Command) :
    (perform (s.send (c.rename n))).Agrees m (Both Eq) (perform (s.send (c.rename n'))) := by
  refine agrees_ask fun x y hs => ?_
  obtain ⟨reply, state⟩ := h.command s.executor c hs
  rw [reply]
  exact ⟨h.sent s.executor c _, state, agrees_done (Both.refl (fun _ => rfl) _)⟩

theorem agrees_push (entry : Value) :
    (perform (s.push n entry)).Agrees m (Both Eq) (perform (s.push n' entry)) := by
  rw [s.push_eq, s.push_eq]
  refine agrees_perform_bind (h.agrees_send (.push n entry)) ?_
  rintro reply _ rfl
  exact agrees_perform_bind (h.agrees_log (h.written (.pushed s.style n reply)))
    fun _ _ _ => agrees_done rfl

theorem agrees_length :
    (perform (s.length n)).Agrees m (Both Eq) (perform (s.length n')) := by
  rw [s.length_eq, s.length_eq]
  refine agrees_perform_bind (h.agrees_send (.length n)) ?_
  rintro reply _ rfl
  exact agrees_done (Both.refl (fun _ => rfl) _)

theorem agrees_blockingPop (timeout : Value) :
    (perform (s.blockingPop n timeout)).Agrees m (Both Eq) (perform (s.blockingPop n' timeout)) := by
  rw [s.blockingPop_eq, s.blockingPop_eq]
  refine agrees_check fun seconds _ => ?_
  by_cases hs : seconds.le .zero = true
  · rw [if_pos hs, if_pos hs]
    exact h.agrees_send (.pop n)
  · rw [if_neg hs, if_neg hs]
    refine agrees_perform_bind (h.agrees_send (.blockingPop n seconds)) ?_
    rintro reply _ rfl
    exact agrees_done (Both.refl (fun _ => rfl) _)

/-- What is popped under either name is timed alike, though it may be measured otherwise. -/
theorem agrees_timed {pop pop' : Op (Name × Value)}
    (hp : (perform pop).Agrees m (Both fun p p' => p.1 = n ∧ p'.1 = n' ∧ p.2 = p'.2) (perform pop')) :
    (perform (timed pop)).Agrees m (Both Eq) (perform (timed pop')) := by
  refine h.agrees_clock fun start start' hstart => ?_
  show (perform (pop.attempt >>= _)).Agrees _ _ (perform (pop'.attempt >>= _))
  refine agrees_perform_bind (agrees_attempt hp) fun r r' hr => ?_
  refine h.agrees_clock fun stop stop' hstop => ?_
  show (perform (.ofExcept (stopped start r) >>= _)).Agrees _ _
    (perform (.ofExcept (stopped start' r') >>= _))
  have ended : Both (fun p p' => p.1 = n ∧ p'.1 = n' ∧ p.2 = p'.2) (stopped start r)
      (stopped start' r') := by
    unfold stopped
    rw [h.started hstart]
    split
    · match r, r', hr with
      | .ok _, .ok _, _ => exact rfl
      | .error f, .error _, rfl => exact rfl
    · exact hr
  refine agrees_perform_bind (agrees_done ended) ?_
  rintro ⟨_, entry⟩ ⟨_, _⟩ ⟨rfl, rfl, rfl⟩
  refine agrees_perform_bind (agrees_done (h.measured hstart hstop)) fun ms ms' told => ?_
  exact agrees_perform_bind (h.agrees_log (told entry)) fun _ _ _ => agrees_done rfl

theorem agrees_acquireFrom {name name' : Except Failure Name}
    (hn : Both (fun a b => a = n ∧ b = n') name name') (duration : Value) :
    (perform (acquireFrom s name duration)).Agrees m (Both Eq)
      (perform (acquireFrom s name' duration)) := by
  rw [acquireFrom_eq, acquireFrom_eq]
  have received : Both (fun a b => a = n ∧ b = n') (s.style.received name)
      (s.style.received name') := by
    match name, name', hn with
    | .ok _, .ok _, hn => exact hn
    | .error _, .error _, rfl => exact rfl
  refine h.agrees_timed (agrees_perform_bind (agrees_done received) ?_)
  rintro _ _ ⟨rfl, rfl⟩
  refine agrees_perform_bind (h.agrees_blockingPop duration) ?_
  rintro entry _ rfl
  exact agrees_done ⟨rfl, rfl, rfl⟩

theorem agrees_release :
    (perform (release s n)).Agrees m (Both Eq) (perform (release s n')) := by
  rw [release_eq, release_eq]
  exact h.agrees_push permit

end Pairing.Likens

end Likens

/-- What a name writes is the name, or it is refused as empty; two names with one key are refused
    together. -/
theorem Name.both_check {n n' : Name} (h : n.key = n'.key) :
    Both (fun a b => a = n ∧ b = n') (check n.toValue) (check n'.toValue) := by
  have told : ∀ n : Name, check n.toValue = if n.key = [] then .error .nameEmpty else .ok n := by
    have empty : ∀ s, Utf8.encode s = [] ↔ s = "" := fun s =>
      ⟨fun hs => Utf8.encode_injective (t := "") hs, fun hs => hs ▸ rfl⟩
    rintro (s | bs)
    · simp only [toValue, check, key, empty]
    · rfl
  rw [told, told, h]
  split
  · exact rfl
  · exact ⟨rfl, rfl⟩

/-! ## Errands -/

section Errands

variable {σ τ : Type} {m : Pairing σ τ} {beat : Double → Double → Prop}

/-- What is done with a value that writes a name agrees if it does for the names. -/
theorem Pairing.Likens.agrees_named {α : Type} {n n' : Name} (h : m.Likens beat n n')
    {op : Name → Op α} (hop : (perform (op n)).Agrees m (Both Eq) (perform (op n'))) :
    (perform (.named n.toValue op)).Agrees m (Both Eq) (perform (.named n'.toValue op)) := by
  refine agrees_perform_bind (agrees_done (Name.both_check h.key)) ?_
  rintro _ _ ⟨rfl, rfl⟩
  exact hop

theorem Pairing.Likens.agrees_releaseTimes {s s' : Semaphore} (h : m.Likens beat s.name s'.name)
    (store : s.store = s'.store) :
    ∀ n, (perform (s.releaseTimes n)).Agrees m (Both Eq) (perform (s'.releaseTimes n))
  | 0 => agrees_done rfl
  | 1 => by
    show (perform (release s.store s.name)).Agrees m _ (perform (release s'.store s'.name))
    rw [store]
    exact h.agrees_release
  | n + 2 => by
    show (perform (release s.store s.name >>= _)).Agrees m _
      (perform (release s'.store s'.name >>= _))
    rw [store]
    exact agrees_perform_bind h.agrees_release fun _ _ _ => h.agrees_releaseTimes store (n + 1)

section Semaphore

variable {s s' : Semaphore} (h : m.Likens beat s.name s'.name) (store : s.store = s'.store)
include h store

theorem Pairing.Likens.agrees_releasePermits (count : Value) :
    (perform (s.release count)).Agrees m (Both Eq) (perform (s'.release count)) := by
  rw [s.release_eq, s'.release_eq]
  exact agrees_check fun k _ => h.agrees_releaseTimes store k

theorem Pairing.Likens.agrees_value :
    (perform s.value).Agrees m (Both Eq) (perform s'.value) := by
  rw [s.value_eq, s'.value_eq, store]
  exact h.agrees_length

theorem Pairing.Likens.agrees_locked :
    (perform s.locked).Agrees m (Both Eq) (perform s'.locked) := by
  rw [s.locked_eq, s'.locked_eq]
  refine agrees_perform_bind (h.agrees_value store) ?_
  rintro count _ rfl
  exact agrees_done rfl

theorem Pairing.Likens.agrees_acquire {blocking timeout : Value}
    (wait : s.waitFor blocking timeout = s'.waitFor blocking timeout) :
    (perform (s.acquire blocking timeout)).Agrees m (Both Eq)
      (perform (s'.acquire blocking timeout)) := by
  have named : Both (fun a b => a = s.name ∧ b = s'.name) (.ok s.name) (.ok s'.name) := ⟨rfl, rfl⟩
  rw [s.acquire_eq, s'.acquire_eq, wait, store]
  refine agrees_perform_bind (h.agrees_acquireFrom named _) ?_
  rintro entry _ rfl
  exact agrees_done rfl

end Semaphore

namespace Errand

/-- An errand whose list is named by its key. -/
def plain (e : Errand) : Errand := { e with on := { e.on with name := .bytes e.key } }

/-- **The same errand under another name agrees with it**, if the names are as good as each other. -/
theorem agrees {e e' : Errand} (he : e.plain = e'.plain) (h : m.Likens beat e.on.name e'.on.name) :
    (perform e.op).Agrees m (Both Eq) (perform e'.op) := by
  obtain ⟨⟨n, store, timeout, className, finite⟩, task⟩ := e
  obtain ⟨⟨n', store', timeout', className', finite'⟩, task'⟩ := e'
  simp only [plain, Errand.mk.injEq, Semaphore.mk.injEq] at he
  obtain ⟨⟨-, rfl, rfl, rfl⟩, rfl⟩ := he
  have wrapped : ∀ {α : Type} {op op' : Op α} {f : α → Value},
      (perform op).Agrees m (Both Eq) (perform op') →
      (perform (op >>= fun a => pure (f a))).Agrees m (Both Eq)
        (perform (op' >>= fun a => pure (f a))) := by
    intro α op op' f hop
    refine agrees_perform_bind hop ?_
    rintro a _ rfl
    exact agrees_done rfl
  cases task with
  | push entry =>
    rw [op, op, Call.op_push, Call.op_push]
    refine h.agrees_named ?_
    exact h.agrees_push entry
  | blockingPop timeout =>
    rw [op, op, Call.op_blockingPop, Call.op_blockingPop]
    refine h.agrees_named ?_
    exact h.agrees_blockingPop timeout
  | length =>
    rw [op, op, Call.op_length, Call.op_length]
    exact wrapped (h.agrees_named h.agrees_length)
  | release =>
    rw [op, op, Call.op_release, Call.op_release]
    exact h.agrees_named h.agrees_release
  | acquire duration => exact h.agrees_acquireFrom (Name.both_check h.key) duration
  | value => exact wrapped (h.agrees_value rfl)
  | locked => exact wrapped (h.agrees_locked rfl)
  | acquirePermit blocking timeout => exact wrapped (h.agrees_acquire rfl rfl)
  | releasePermits count => exact h.agrees_releasePermits rfl count

end Errand

end Errands

/-! ## One name for another -/

/-- The name that is the key. -/
def Name.plain (n : Name) : Name := .bytes n.key

/-- The record with its name as a key. -/
def Record.plain : Record → Record
  | pushed style n reply => pushed style n.plain reply
  | acquired n ms => acquired n.plain ms
  | timedOut n ms => timedOut n.plain ms
  | registered registrar => registered registrar

/-- The event with the name of its list as a key. -/
def Course.Event.plain : Event → Event
  | .answer (.command e c) a => .answer (.command e (c.rename c.name.plain)) a
  | .answer (.log r) u => .answer (.log r.plain) u
  | e => e

/-- The lists know a name by its key. -/
theorem Lists.execute_rename (s : Lists) (c : Command) {n n' : Name} (h : n.key = n'.key) :
    s.execute (c.rename n) = s.execute (c.rename n') := by
  cases c <;> simp only [Command.rename, execute, h]

/-- A setting beside itself, where names count as their keys. -/
def Setting.renamed (x : Setting) : Pairing Solo Solo where
  left := x.answer
  right := x.answer
  belong s t := s = t
  view := Event.plain

/-- **A name is as good as another with the same key.** -/
theorem Name.likens_of_key {n n' : Name} (h : n.key = n'.key) (x : Setting) :
    x.renamed.Likens Eq n n' where
  key := h
  command e c s t := by
    rintro rfl
    have same : x.call (c.rename n) s = x.call (c.rename n') s := by
      simp only [Setting.call, s.lists.execute_rename c h]
    exact ⟨congrArg Prod.fst same, congrArg Prod.snd same⟩
  sent e c a := by
    have same : (c.rename n).rename (c.rename n).name.plain =
        (c.rename n').rename (c.rename n').name.plain := by
      cases c <;> simp only [Command.rename, Command.name, plain, h]
    exact congrArg (fun c => Event.answer (.command e c) a) same
  log _ _ _ _ h := h
  written r := by
    have same : (r.rename n).plain = (r.rename n').plain := by
      cases r <;> simp only [Record.rename, Record.plain, plain, h]
    exact congrArg (fun r => Event.answer (.log r) ()) same
  clock := by
    rintro s _ rfl
    exact ⟨rfl, rfl, rfl⟩
  started := by
    rintro a _ rfl
    rfl
  measured := by
    rintro a _ a' _ rfl rfl
    refine Both.refl (fun ms entry => ?_) _
    have same : (outcome n entry ms).plain = (outcome n' entry ms).plain := by
      cases entry <;> simp only [outcome, Record.plain, plain, h]
    exact congrArg (fun r => Event.answer (.log r) ()) same

/-! ## One list at a time -/

/-- The record without the time that it tells. -/
def Record.untimed : Record → Record
  | acquired n _ => acquired n 0
  | timedOut n _ => timedOut n 0
  | r => r

/-- The event without the time that it tells. -/
def Course.Event.untimed : Event → Event
  | .answer (.log r) u => .answer (.log r.untimed) u
  | .answer .clock _ => .answer .clock .zero
  | e => e

/-- Two settings of which one list counts, and no time. -/
def Setting.apart (x x' : Setting) (key : Bytes) : Pairing Solo Solo where
  left := x.answer
  right := x'.answer
  belong s t := s.lists.waiters = [] ∧ t.lists.waiters = [] ∧
    s.lists.entries key = t.lists.entries key
  view := Event.untimed

theorem Command.name_rename (c : Command) (n : Name) : (c.rename n).name = n := by
  cases c <;> rfl

/-- **A name is as good as itself wherever its own list is the same.** -/
theorem Setting.likens_apart {x x' : Setting} {timer : Timer} (hx : x.IsCalm timer)
    (hx' : x'.IsCalm timer) (n : Name) :
    (x.apart x' n.key).Likens (fun a b => timer.reads a ∧ timer.reads b) n n where
  key := rfl
  command e c s t := by
    rintro ⟨hs, ht, same⟩
    obtain ⟨reply, nobody, entries⟩ := x.call_onList hx hs (c.rename n)
    obtain ⟨reply', nobody', entries'⟩ := x'.call_onList hx' ht (c.rename n)
    rw [c.name_rename, same] at reply entries
    rw [c.name_rename] at reply' entries'
    refine ⟨reply.trans reply'.symm, nobody, nobody', ?_⟩
    exact (entries n.key).trans ((if_pos rfl).trans ((entries' n.key).trans (if_pos rfl)).symm)
  sent _ _ _ := rfl
  log _ _ _ _ h := h
  written _ := rfl
  clock h := ⟨rfl, h, hx.reads _, hx'.reads _⟩
  started h := (timer.started h.1).trans (timer.started h.2).symm
  measured h h' := by
    obtain ⟨ms, hms⟩ := timer.measured h.1 h'.1
    obtain ⟨ms', hms'⟩ := timer.measured h.2 h'.2
    rw [hms, hms']
    intro entry
    cases entry <;> rfl

/-! ## Rows of errands -/

namespace Errand

theorem run_cons {σ : Type} (answer : (r : Request) → σ → r.Answer × σ) (e : Errand)
    (es : List Errand) (s : σ) :
    let first := (perform e.op).run answer s
    let rest := (course es).run answer first.state
    (course (e :: es)).run answer s =
      ⟨first.events ++ rest.events, first.result :: rest.result, rest.state⟩ := by
  intro first rest
  show (perform e.op >>= fun r => course es >>= fun rs => .done (r :: rs)).run answer s = _
  simp only [run_bind, run, List.append_nil]
  rfl

/-- Rows that differ in how names are written agree. -/
theorem agrees_course (x : Setting) {es es' : List Errand} (h : es.map plain = es'.map plain) :
    (course es).Agrees x.renamed Eq (course es') := by
  induction es generalizing es' with
  | nil =>
    obtain rfl := List.map_eq_nil_iff.mp h.symm
    exact agrees_done rfl
  | cons e es ih =>
    obtain ⟨e', es', rfl, he, hes⟩ := List.map_eq_cons_iff.mp h.symm
    have key : e.key = e'.key := (Name.bytes.inj (congrArg (·.on.name) he)).symm
    refine agrees_bind (agrees he.symm (Name.likens_of_key key x)) fun r r' hr => ?_
    obtain rfl := both_eq hr
    refine agrees_bind (ih hes.symm) ?_
    rintro rs _ rfl
    exact agrees_done rfl

/-- Whether an event is about a list does not depend on the time that it tells. -/
theorem isOn_untimed (key : Bytes) (e : Event) : e.untimed.isOn key = e.isOn key := by
  cases e with
  | moment m => rfl
  | answer r a =>
    cases r with
    | log r => cases r <;> rfl
    | command | clock | draw | connect => rfl

/-- What a run shows of one list, the times apart that it took. -/
def shown (key : Bytes) (events : List Event) : List Event :=
  (events.filter (·.isOn key)).map Event.untimed

theorem shown_append (key : Bytes) (a b : List Event) :
    shown key (a ++ b) = shown key a ++ shown key b := by
  rw [shown, List.filter_append, List.map_append]
  rfl

theorem shown_eq (key : Bytes) (events : List Event) :
    shown key events = (events.map Event.untimed).filter (·.isOn key) := by
  rw [List.filter_map]
  exact congrArg (List.map _) (List.filter_congr fun e _ => (isOn_untimed key e).symm)

/-- **Errands on other lists may be left out.** -/
theorem run_filter {x x' : Setting} {timer : Timer} (hx : x.IsCalm timer) (hx' : x'.IsCalm timer)
    (key : Bytes) (es : List Errand) {s t : Solo} (h : (x.apart x' key).belong s t) :
    let all := (course es).run x.answer s
    let own := (course (es.filter (·.key = key))).run x'.answer t
    under key ((es.map Errand.key).zip all.result) = own.result ∧
      (x.apart x' key).belong all.state own.state ∧
      shown key all.events = shown key own.events := by
  induction es generalizing s t with
  | nil => exact ⟨rfl, h, rfl⟩
  | cons e es ih =>
    by_cases hk : e.key = key
    · -- An errand on the list itself is run on both sides.
      subst hk
      have agree : (((perform e.op).run x.answer s).Agree (x.apart x' e.key) (Both Eq)
          ((perform e.op).run x'.answer t)) :=
        agrees rfl (Setting.likens_apart hx hx' e.on.name) s t h
      have same : shown e.key ((perform e.op).run x.answer s).events =
          shown e.key ((perform e.op).run x'.answer t).events := by
        rw [shown_eq, shown_eq]
        exact congrArg (List.filter _) agree.events
      obtain ⟨results, states, shows⟩ := ih agree.state
      rw [List.filter_cons_of_pos (by simp)]
      simp only [run_cons]
      refine ⟨?_, states, ?_⟩
      · rw [List.map_cons, List.zip_cons_cons, under_cons, if_pos rfl, both_eq agree.result, results]
      · rw [shown_append, shown_append, same, shows]
    · -- An errand on another list leaves this one as it is.
      obtain ⟨nobody, entries, quiet⟩ := x.run_staysOn hx e.all_staysOn (Ne.symm hk) h.1
      obtain ⟨results, states, shows⟩ := ih (t := t) ⟨nobody, h.2.1, entries.trans h.2.2⟩
      rw [List.filter_cons_of_neg (by simpa using hk)]
      simp only [run_cons]
      refine ⟨?_, states, ?_⟩
      · rw [List.map_cons, List.zip_cons_cons, under_cons, if_neg hk]
        exact results
      · rw [shown_append, shown, quiet, List.map_nil, List.nil_append]
        exact shows

/-- **A name addresses its own list, and only that one.**  A lone caller runs a row of errands on lists
    for which nobody waits; no call fails, and no timer does.

    - Where all errands on other lists are left out, and whatever is on the other lists, the errands on
      a list come to the same, show the same but for times, and leave the same entries.
    - Where some names are written otherwise, as text or as bytes, with the same key, all errands come to
      the same, the lists are the same in the end, and the same is shown but for the names. -/
theorem lists_apart {x x' : Setting} {timer : Timer} (hx : x.IsCalm timer) (hx' : x'.IsCalm timer)
    (es : List Errand) {s : Solo} (hs : s.lists.waiters = []) :
    (∀ key (t : Solo), t.lists.waiters = [] → s.lists.entries key = t.lists.entries key →
      let all := (course es).run x.answer s
      let own := (course (es.filter (·.key = key))).run x'.answer t
      under key ((es.map Errand.key).zip all.result) = own.result ∧
        all.state.lists.entries key = own.state.lists.entries key ∧
        shown key all.events = shown key own.events) ∧
    ∀ es' : List Errand, es.map plain = es'.map plain →
      let first := (course es).run x.answer s
      let second := (course es').run x.answer s
      first.result = second.result ∧ first.state = second.state ∧
        first.events.map Event.plain = second.events.map Event.plain := by
  refine ⟨fun key t ht same => ?_, fun es' h => ?_⟩
  · obtain ⟨results, states, shows⟩ := run_filter hx hx' key es ⟨hs, ht, same⟩
    exact ⟨results, states.2.2, shows⟩
  · obtain ⟨result, state, events⟩ := agrees_course x h s s rfl
    exact ⟨result, state, events⟩

/-- Errands on two lists, of which one is called by two names. -/
def crossed (one other : Name) : List Errand :=
  let direct : ListStore := ⟨⟨"lists", .direct⟩⟩
  let awaited : ListStore := ⟨⟨"lists", .awaited⟩⟩
  [⟨.brief one direct, .push (.text "paid")⟩, ⟨.brief (.text "l") direct, .release⟩,
    ⟨.brief other awaited, .releasePermits (.int 1)⟩,
    ⟨.brief (.text "l") awaited, .acquirePermit (.bool true) .none⟩,
    ⟨.brief one direct, .acquirePermit (.bool false) .none⟩]

/-- A text and its bytes are one list: of the two entries that were pushed under the one name and under
    the other, the first is gone, and the permit of another list was no help. -/
theorem crossed_apart :
    let all := (course (crossed (.text "k") (.bytes [0x6b]))).run Setting.sevens.answer { lists := {} }
    let swapped := (course (crossed (.bytes [0x6b]) (.text "k"))).run Setting.sevens.answer
      { lists := {} }
    all.state.lists.entries [0x6b] = [[0x31]] ∧ swapped.result = all.result ∧
      under [0x6c] (((crossed (.text "k") (.bytes [0x6b])).map Errand.key).zip all.result) =
        ((course ((crossed (.text "k") (.bytes [0x6b])).filter (·.key = [0x6c]))).run
          Setting.sevens.answer { lists := {} }).result := by
  have calm : Setting.sevens.IsCalm .still := ⟨fun _ => rfl, fun _ => rfl⟩
  obtain ⟨deleted, renamed⟩ := lists_apart calm calm (crossed (.text "k") (.bytes [0x6b]))
    (s := { lists := {} }) rfl
  obtain ⟨results, -, -⟩ := deleted [0x6c] { lists := {} } rfl rfl
  obtain ⟨-, entries, -⟩ := deleted [0x6b] { lists := {} } rfl rfl
  obtain ⟨result, -, -⟩ := renamed (crossed (.bytes [0x6b]) (.text "k")) rfl
  refine ⟨entries.trans ?_, result.symm, results⟩
  decide +kernel

end Errand

end Permits
