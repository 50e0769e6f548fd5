/-
  Views — however one looks at a list, one sees the same.

  An entry may be taken by a poll or by a pop that waits, through a store or through a semaphore, and
  entries may be counted, too.  A lone caller finds that all of these agree.

  1. **Acquiring** (`Errand.Acquires`): an errand asks for an entry of one list, with a name and for a
     duration that are accepted.  What it comes to (`Errand.gets`) depends on the entry only.
  2. **Taking** (`Lists.polled`): either way of popping takes the oldest entry, if there is one, and
     leaves the other entries and lists as they are; so do the operations that pop (`Taken`).
  3. **One errand** (`Errand.run_acquires`): it sends one pop, gets what is at the head of the list, and
     leaves what is behind.
  4. **Rows of errands** (`Errand.run_row`): each gets the next entry, so that as many are satisfied as
     there were entries.

  `Errand.views_agree` puts this together with what is counted (`Semaphore.value`) and with what counts
  as nothing (`Semaphore.locked`).
-/
import Permits.Proofs.Acquiring
import Permits.Proofs.Errands.Agreement
import Permits.Proofs.Validation

namespace Permits

open Number Text
open Course (Event Run)

/-! ## Acquiring -/

/-- How long a task on a semaphore's list may wait for an entry, if it asks for one. -/
def Task.wait? (s : Semaphore) : Task → Option Value
  | blockingPop duration | acquire duration => some duration
  | acquirePermit blocking timeout => some (s.waitFor blocking timeout)
  | push _ | length | release | value | locked | releasePermits _ => none

namespace Errand

/-- Does an errand ask for an entry of a list, with a name and for a duration that are accepted? -/
structure Acquires (key : Bytes) (e : Errand) : Prop where
  key : e.key = key
  named : Name.check e.on.name.toValue = .ok e.on.name
  timed : ∃ duration, e.task.wait? e.on = some duration ∧ duration.IsDuration

/-- What an errand comes to that gets an entry or nothing: a semaphore only tells which of the two. -/
def gets (e : Errand) (entry : Option Bytes) : Value :=
  match e.task with
  | .acquirePermit .. => .bool entry.isSome
  | _ => entry.elim .none .bytes

/-- Was there an entry for an errand that came to this? -/
def gained : Except Failure Value → Bool
  | .ok (.bytes _) | .ok (.bool true) => true
  | _ => false

theorem gained_gets (e : Errand) (entry : Option Bytes) :
    gained (.ok (e.gets entry)) = entry.isSome := by
  obtain ⟨s, task⟩ := e
  cases task <;> cases entry <;> rfl

/-- An acquire that may not block is accepted with any timeout, and so is one with the semaphore's own. -/
theorem acquires_permit {s : Semaphore} {key : Bytes} (hk : s.name.key = key)
    (named : Name.check s.name.toValue = .ok s.name) {blocking timeout : Value}
    (h : blocking.isTrue = false ∨ timeout = .none) :
    Acquires key ⟨s, .acquirePermit blocking timeout⟩ := by
  refine ⟨hk, named, s.waitFor blocking timeout, rfl, ?_⟩
  cases hb : blocking.isTrue with
  | false =>
    rw [Semaphore.waitFor_of_not_isTrue s timeout hb]
    exact ⟨.zero, Duration.seconds_zero⟩
  | true =>
    obtain rfl : timeout = .none := h.resolve_left (by simp [hb])
    have own : s.waitFor blocking .none = .float s.timeout := by
      rw [Semaphore.waitFor, hb]
      rfl
    rw [own]
    exact ⟨s.timeout, Duration.seconds_float s.timeout_finite⟩

end Errand

/-! ## Taking -/

namespace Lists

/-- The lists after the oldest entry was taken from one of them, if there was one. -/
def polled (l : Lists) (key : Bytes) : Lists := (l.pop key).elim l Prod.snd

theorem polled_of_nil {l : Lists} {key : Bytes} (h : l.entries key = []) : l.polled key = l := by
  rw [polled, pop_eq_none_iff.mpr h]
  rfl

theorem polled_of_cons {l : Lists} {key e : Bytes} {es : List Bytes} (h : l.entries key = e :: es) :
    l.polled key = l.put key es := by
  have popped : l.pop key = some (e, l.put key es) := by
    rw [pop, h]
  rw [polled, popped]
  rfl

theorem waiters_polled (l : Lists) (key : Bytes) : (l.polled key).waiters = l.waiters := by
  cases h : l.entries key with
  | nil => rw [polled_of_nil h]
  | cons e es =>
    rw [polled_of_cons h]
    rfl

theorem entries_polled (l : Lists) (key k : Bytes) :
    (l.polled key).entries k = if k = key then (l.entries key).tail else l.entries k := by
  cases h : l.entries key with
  | nil =>
    rw [polled_of_nil h]
    split
    · next hk => rw [hk, h]; rfl
    · rfl
  | cons e es =>
    rw [polled_of_cons h, entries_put]
    rfl

end Lists

theorem Command.name_popFor (name : Name) (seconds : Double) : (popFor name seconds).name = name := by
  unfold popFor
  split <;> rfl

/-- A pop is answered by the oldest of the entries, or by nothing if there are none. -/
theorem Command.popped_onList {c : Command} (hc : c.isPop = true) (k : Conditions) (style : Style)
    (es : List Bytes) :
    k.Popped style c (.ok (c.onList es).1) (.ok (es.head?.elim .none .bytes)) := by
  cases c with
  | push | length => cases hc
  | pop | blockingPop =>
    cases es with
    | nil => exact .nothing
    | cons e => exact .entry e

/-- A pop for some seconds was answered at once, and took the oldest entry, if there was one. -/
structure Taken (name : Name) (seconds : Double) (st : Solo) (ran : Run Solo (Except Failure Value)) :
    Prop where
  result : ran.result = .ok ((st.lists.entries name.key).head?.elim .none .bytes)
  lists : ran.state.lists = st.lists.polled name.key
  sent : commands ran.events = [.popFor name seconds]

theorem Taken.pops {name : Name} {seconds : Double} {st : Solo} {ran : Run Solo (Except Failure Value)}
    (h : Taken name seconds st ran) :
    ∃ c : Command, c.isPop = true ∧ c.name.key = name.key ∧ commands ran.events = [c] :=
  ⟨_, Command.isPop_popFor name seconds, congrArg Name.key (Command.name_popFor name seconds), h.sent⟩

section Calm

variable {x : Setting} {timer : Timer} (hx : x.IsCalm timer)
include hx

/-- **Either way of popping takes the oldest entry.** -/
theorem Setting.call_pop {c : Command} (hc : c.isPop = true) (st : Solo) :
    x.call c st = (.ok (c.onList (st.lists.entries c.name.key)).1,
      { st with lists := st.lists.polled c.name.key, calls := st.calls + 1 }) := by
  unfold call
  rw [hx.fails]
  cases c with
  | push | length => cases hc
  | pop name | blockingPop name seconds =>
    simp only [Command.name, Lists.execute]
    cases h : st.lists.entries name.key with
    | nil =>
      rw [Lists.polled_of_nil h, Lists.pop_eq_none_iff.mpr h]
      rfl
    | cons e es =>
      rw [Lists.polled_of_cons h, Lists.pop, h]
      rfl

theorem Setting.answer_popFor (x' : Executor) (name : Name) (seconds : Double) (st : Solo) :
    x.answer (.command x' (.popFor name seconds)) st =
      (.ok ((Command.popFor name seconds).onList (st.lists.entries name.key)).1,
        { st with lists := st.lists.polled name.key, calls := st.calls + 1 }) := by
  have popped := x.call_pop hx (Command.isPop_popFor name seconds) st
  rw [Command.name_popFor] at popped
  exact popped

section Popping

variable (store : ListStore) (name : Name) {duration : Value} {seconds : Double}
  (hd : Duration.seconds duration = .ok seconds) (st : Solo)
include hd

theorem Setting.taken_blockingPop :
    Taken name seconds st ((Course.perform (store.blockingPop name duration)).run x.answer st) := by
  have told := Command.popped_onList (Command.isPop_popFor name seconds) .still store.style
    (st.lists.entries name.key)
  rw [ListStore.run_blockingPop hd told (x.answer_popFor hx store.executor name seconds st)]
  exact ⟨rfl, rfl, rfl⟩

/-- What is timed around a pop changes nothing of it. -/
theorem Setting.taken_acquire :
    Taken name seconds st ((Course.perform (acquire store name duration)).run x.answer st) := by
  have told := Command.popped_onList (Command.isPop_popFor name seconds) .still store.style
    (st.lists.entries name.key)
  have reads : ∀ st : Solo, timer.reads (x.answer .clock st).1 := fun st => hx.reads st.looks
  obtain ⟨ms, ran⟩ := run_acquire reads hd told
    (x.answer_popFor hx store.executor name seconds { st with looks := st.looks + 1 })
  rw [ran]
  exact ⟨rfl, rfl, rfl⟩

end Popping

end Calm

namespace Errand

/-! ## One errand -/

/-- What an errand that asks for an entry comes to, what it sends, and what it leaves behind. -/
structure Takes (key : Bytes) (e : Errand) (st : Solo) (ran : Run Solo (Except Failure Value)) : Prop where
  result : ran.result = .ok (e.gets (st.lists.entries key).head?)
  lists : ran.state.lists = st.lists.polled key
  pops : ∃ c, c.isPop = true ∧ c.name.key = key ∧ commands ran.events = [c]

/-- **An errand that asks for an entry gets the oldest**, however it asks. -/
theorem run_acquires {x : Setting} {timer : Timer} (hx : x.IsCalm timer) {key : Bytes} {e : Errand}
    (h : e.Acquires key) (st : Solo) :
    Takes key e st ((Course.perform e.op).run x.answer st) := by
  obtain ⟨s, task⟩ := e
  obtain ⟨rfl, named, duration, waits, seconds, hd⟩ := h
  cases task with
  | push | length | release | value | locked | releasePermits => cases waits
  | blockingPop =>
    cases waits
    have op : (⟨s, .blockingPop duration⟩ : Errand).op = s.store.blockingPop s.name duration := by
      show s.store.blockingPopFrom (Name.check s.name.toValue) duration = _
      rw [named]
      rfl
    have taken := x.taken_blockingPop hx s.store s.name hd st
    rw [op]
    exact ⟨taken.result, taken.lists, taken.pops⟩
  | acquire =>
    cases waits
    have op : (⟨s, .acquire duration⟩ : Errand).op = acquire s.store s.name duration :=
      acquireNamed_of_check s.store named duration
    have taken := x.taken_acquire hx s.store s.name hd st
    rw [op]
    exact ⟨taken.result, taken.lists, taken.pops⟩
  | acquirePermit blocking timeout =>
    cases waits
    have op : (⟨s, .acquirePermit blocking timeout⟩ : Errand).op =
        acquire s.store s.name (s.waitFor blocking timeout) >>= fun entry =>
          pure (.bool (Semaphore.isEntry entry)) := by
      show s.acquire blocking timeout >>= _ = _
      rw [s.acquire_eq]
      exact Op.bind_assoc _ _ _
    have taken := x.taken_acquire hx s.store s.name hd st
    rw [op, Course.run_perform_bind]
    generalize (Course.perform (acquire s.store s.name _)).run x.answer st = ran at taken
    obtain ⟨es, r, t⟩ := ran
    obtain rfl : r = _ := taken.result
    refine ⟨?_, taken.lists, ?_⟩
    · -- A semaphore only tells whether there was an entry.
      have told : ∀ o : Option Bytes, Semaphore.isEntry (o.elim .none .bytes) = o.isSome := by
        rintro (_ | _) <;> rfl
      exact congrArg (fun b => Except.ok (Value.bool b)) (told _)
    · show ∃ c : Command, _ ∧ _ ∧ commands (es ++ []) = [c]
      rw [List.append_nil]
      exact taken.pops

/-! ## Rows of errands -/

/-- **Each errand of a row gets the next entry**, until there are none left. -/
theorem run_row {x : Setting} {timer : Timer} (hx : x.IsCalm timer) {key : Bytes} {row : List Errand}
    (h : ∀ e ∈ row, e.Acquires key) (st : Solo) :
    let ran := (course row).run x.answer st
    ran.result = row.mapIdx (fun i e => .ok (e.gets (st.lists.entries key)[i]?)) ∧
      ran.state.lists.waiters = st.lists.waiters ∧
      ∀ k, ran.state.lists.entries k =
        if k = key then (st.lists.entries key).drop row.length else st.lists.entries k := by
  induction row generalizing st with
  | nil =>
    refine ⟨rfl, rfl, fun k => ?_⟩
    show st.lists.entries k = _
    split
    · next hk => rw [hk]; rfl
    · rfl
  | cons e row ih =>
    obtain ⟨he, hrow⟩ := List.forall_mem_cons.mp h
    obtain ⟨result, lists, -⟩ := run_acquires hx he st
    obtain ⟨results, nobody, entries⟩ := ih hrow ((Course.perform e.op).run x.answer st).state
    rw [lists] at results nobody entries
    intro ran
    have cut : ran = _ := run_cons x.answer e row st
    rw [cut]
    refine ⟨?_, nobody.trans (Lists.waiters_polled ..), fun k => ?_⟩
    · show _ :: _ = _
      rw [result, results, List.mapIdx_cons, Lists.entries_polled, if_pos rfl, List.head?_eq_getElem?]
      simp only [List.getElem?_tail]
    · show ((course row).run x.answer _).state.lists.entries k = _
      rw [entries, Lists.entries_polled, Lists.entries_polled, if_pos rfl, List.length_cons,
        ← List.drop_one, List.drop_drop, Nat.add_comm 1]
      split <;> rfl

/-- As many errands of a row are satisfied as there are entries, before the first that is not. -/
theorem length_gained (row : List Errand) (es : List Bytes) :
    ((row.mapIdx fun i e => Except.ok (e.gets es[i]?)).takeWhile gained).length =
      min es.length row.length := by
  induction row generalizing es with
  | nil => exact (Nat.min_zero _).symm
  | cons e row ih =>
    rw [List.mapIdx_cons]
    cases es with
    | nil =>
      rw [List.takeWhile_cons, gained_gets]
      exact (Nat.zero_min _).symm
    | cons b es =>
      rw [List.takeWhile_cons, gained_gets]
      simp only [List.getElem?_cons_zero, Option.isSome_some, if_true, List.length_cons,
        List.getElem?_cons_succ, ih, Nat.add_min_add_right]

/-! ## Counting -/

/-- Does an errand count the entries of a list, with a name that is accepted? -/
inductive Counts (key : Bytes) : Errand → Prop where
  | value {s : Semaphore} (h : s.name.key = key) : Counts key ⟨s, .value⟩
  | length {s : Semaphore} (h : s.name.key = key) (named : Name.check s.name.toValue = .ok s.name) :
      Counts key ⟨s, .length⟩

section Counting

variable {x : Setting} {timer : Timer} (hx : x.IsCalm timer) {key : Bytes}
include hx

/-- **What is counted is the length of the list**, which stays as it is. -/
theorem run_counts {e : Errand} (h : e.Counts key) (st : Solo) :
    let ran := (Course.perform e.op).run x.answer st
    ran.result = .ok (.int (st.lists.entries key).length) ∧ ran.state.lists = st.lists := by
  have counted : ∀ s : Semaphore, (Course.perform (s.value >>= fun n => pure (Value.int n))).run x.answer
      st = ⟨[.answer (.command s.store.executor (.length s.name))
        (.ok (.int (st.lists.length s.name.key)))], .ok (.int (st.lists.length s.name.key)),
        { st with calls := st.calls + 1 }⟩ := by
    intro s
    rw [Course.run_perform_bind, x.run_value (hx.fails _)]
    rfl
  cases h with
  | @value s h =>
    subst h
    have op : (⟨s, .value⟩ : Errand).op = s.value >>= fun n => pure (Value.int n) := rfl
    rw [op, counted]
    exact ⟨rfl, rfl⟩
  | @length s h named =>
    subst h
    have op : (⟨s, .length⟩ : Errand).op = s.value >>= fun n => pure (Value.int n) := by
      show s.store.lengthOf (Name.check s.name.toValue) >>= _ = _
      rw [named, s.value_eq]
      rfl
    rw [op, counted]
    exact ⟨rfl, rfl⟩

/-- A semaphore tells that no permit is available exactly when its list is empty. -/
theorem run_locked (s : Semaphore) (st : Solo) :
    let ran := (Course.perform (⟨s, .locked⟩ : Errand).op).run x.answer st
    ran.result = .ok (.bool (st.lists.entries s.name.key).isEmpty) ∧ ran.state.lists = st.lists := by
  have op : (⟨s, .locked⟩ : Errand).op = s.value >>= fun n => pure (Value.bool (n ≤ 0)) := by
    show s.locked >>= _ = _
    rw [s.locked_eq]
    exact Op.bind_assoc _ _ _
  have empty : ∀ es : List Bytes, decide ((es.length : Int) ≤ 0) = es.isEmpty := by
    rintro (_ | ⟨e, es⟩)
    · rfl
    · exact decide_eq_false (by simp)
  rw [op, Course.run_perform_bind, x.run_value (hx.fails _)]
  exact ⟨congrArg (fun b => Except.ok (Value.bool b)) (empty _), rfl⟩

end Counting

/-! ## The whole -/

/-- What one sees of a list, whichever way one looks at it. -/
structure Views (x : Setting) (key : Bytes) (st : Solo) : Prop where
  /-- Whoever acquires while there are entries gets the oldest, and is answered at once. -/
  taken : ∀ b bs, st.lists.entries key = b :: bs → ∀ e : Errand, e.Acquires key →
    let ran := (Course.perform e.op).run x.answer st
    ran.result = .ok (e.gets (some b)) ∧ ran.state.lists = st.lists.put key bs ∧
      ∃ c v, commands ran.events = [c] ∧ (st.lists.execute c).reply = some v
  /-- Whoever acquires when there are none gets nothing. -/
  missed : st.lists.entries key = [] → ∀ e : Errand, e.Acquires key →
    let ran := (Course.perform e.op).run x.answer st
    ran.result = .ok (e.gets none) ∧ ran.state.lists = st.lists
  /-- What is counted is how many there are. -/
  counted : ∀ e : Errand, e.Counts key →
    let ran := (Course.perform e.op).run x.answer st
    ran.result = .ok (.int (st.lists.entries key).length) ∧ ran.state.lists = st.lists
  /-- Nothing counts as available exactly when whoever acquired next would get nothing. -/
  locked : ∀ (s : Semaphore) (e : Errand), s.name.key = key → e.Acquires key →
    let ran := (Course.perform (⟨s, .locked⟩ : Errand).op).run x.answer st
    ran.result = .ok (.bool !gained ((Course.perform e.op).run x.answer st).result) ∧
      ran.state.lists = st.lists
  /-- Of those who acquire one after the other, the first get the entries in order, one each, and the
      others get nothing: as many are satisfied as was counted. -/
  drained : ∀ row : List Errand, (∀ e ∈ row, e.Acquires key) →
    let ran := (course row).run x.answer st
    ran.result = row.mapIdx (fun i e => .ok (e.gets (st.lists.entries key)[i]?)) ∧
      (ran.result.takeWhile gained).length = min (st.lists.entries key).length row.length ∧
      ∀ k, ran.state.lists.entries k =
        if k = key then (st.lists.entries key).drop row.length else st.lists.entries k

/-- A pop of a list with entries does not have to wait. -/
theorem reply_of_cons {l : Lists} {c : Command} (hc : c.isPop = true) {b : Bytes} {bs : List Bytes}
    (h : l.entries c.name.key = b :: bs) : ∃ v, (l.execute c).reply = some v := by
  have popped : l.pop c.name.key = some (b, l.put c.name.key bs) := by
    rw [Lists.pop, h]
  cases c with
  | push | length => cases hc
  | pop name | blockingPop name seconds =>
    change l.pop name.key = _ at popped
    simp only [Lists.execute, popped]
    exact ⟨_, rfl⟩

/-- **All views of a list agree**: a poll and a pop that waits, a count and a look at whether anything is
    available, through a store or a semaphore, of callers that wait on the spot and of callers that are
    suspended. -/
theorem views_agree {x : Setting} {timer : Timer} (hx : x.IsCalm timer) (key : Bytes)
    (st : Solo) : Views x key st where
  taken b bs h e he := by
    obtain ⟨result, lists, c, isPop, on, sent⟩ := run_acquires hx he st
    rw [h] at result
    rw [Lists.polled_of_cons h] at lists
    obtain ⟨v, hv⟩ := reply_of_cons isPop (on ▸ h)
    exact ⟨result, lists, c, v, sent, hv⟩
  missed h e he := by
    obtain ⟨result, lists, -⟩ := run_acquires hx he st
    rw [h] at result
    rw [Lists.polled_of_nil h] at lists
    exact ⟨result, lists⟩
  counted e he := run_counts hx he st
  locked s e hs he := by
    subst hs
    obtain ⟨told, lists⟩ := run_locked hx s st
    obtain ⟨result, -⟩ := run_acquires hx he st
    rw [result, gained_gets]
    refine ⟨told.trans ?_, lists⟩
    cases st.lists.entries s.name.key <;> rfl
  drained row h := by
    obtain ⟨results, -, entries⟩ := run_row hx h st
    refine ⟨results, ?_, entries⟩
    rw [results]
    exact length_gained row _

/-- Four who acquire in different ways, one of them under another name of the list. -/
def fourfold : List Errand :=
  let direct : ListStore := ⟨⟨"lists", .direct⟩⟩
  let awaited : ListStore := ⟨⟨"lists", .awaited⟩⟩
  [⟨.brief (.text "k") direct, .acquire (.int 0)⟩,
    ⟨.brief (.bytes [0x6b]) awaited, .acquirePermit (.bool true) .none⟩,
    ⟨.brief (.text "k") awaited, .acquirePermit (.bool false) .none⟩,
    ⟨.brief (.text "k") direct, .blockingPop (.float (.ofInt 5))⟩]

/-- Of two entries the first is told to one and the second counts as a permit for another; two get
    nothing, and before them the value was two. -/
theorem fourfold_views_agree :
    let st : Solo := { lists := { table := [([0x6b], [[1], [2]])] } }
    ((course fourfold).run Setting.sevens.answer st).result =
        [.ok (.bytes [1]), .ok (.bool true), .ok (.bool false), .ok .none] ∧
      ((Course.perform (⟨.brief (.text "k") ⟨⟨"lists", .direct⟩⟩, .value⟩ : Errand).op).run
        Setting.sevens.answer st).result = .ok (.int 2) := by
  intro st
  have calm : Setting.sevens.IsCalm .still := ⟨fun _ => rfl, fun _ => rfl⟩
  have views := views_agree calm [0x6b] st
  have text : Name.key (.text "k") = [0x6b] := by decide
  have bytes : Name.key (.bytes [0x6b]) = [0x6b] := rfl
  have polls : Value.IsDuration (.int 0) := ⟨.zero, Duration.seconds_zero⟩
  have waits : Value.IsDuration (.float (.ofInt 5)) := ⟨_, Duration.seconds_float (by decide +kernel)⟩
  have acquires : ∀ e ∈ fourfold, e.Acquires [0x6b] := by
    intro e he
    simp only [fourfold, List.mem_cons, List.not_mem_nil, or_false] at he
    rcases he with rfl | rfl | rfl | rfl
    · exact ⟨text, rfl, _, rfl, polls⟩
    · exact acquires_permit bytes rfl (.inr rfl)
    · exact acquires_permit text rfl (.inl rfl)
    · exact ⟨text, rfl, _, rfl, waits⟩
  obtain ⟨results, -, -⟩ := views.drained fourfold acquires
  exact ⟨results, (views.counted _ (.value text)).1⟩

end Errand

end Permits
