/-
  Errands — tasks on lists, each of which has a name.

  1. **Errands** (`Errand`): something that is to be done with the list of a name, through a store or
     through a semaphore.  A row of errands is run one after the other (`Errand.course`).
  2. **One list** (`Command.onList`): a lone caller's command acts on the entries of its own list and on
     nothing else (`Setting.call_onList`).
  3. **Staying on a list** (`Request.StaysOn`): an errand sends commands about its own list only, and
     its records are about that list too (`Errand.all_staysOn`).  So it leaves every other list as it
     is (`Setting.run_staysOn`).
-/
import Permits.Proofs.Conduct
import Permits.Proofs.Solo

namespace Permits

open Text
open Course (Event)

/-! ## Errands -/

/-- What may be done with a list. -/
inductive Task where
  | push (entry : Value)
  | blockingPop (timeout : Value)
  | length
  | release
  | acquire (duration : Value)
  | value
  | locked
  | acquirePermit (blocking timeout : Value)
  | releasePermits (count : Value)

/-- A task on the list of a semaphore, with the semaphore or with its name in its store. -/
structure Errand where
  on : Semaphore
  task : Task

namespace Errand

/-- The key of the list that an errand is about. -/
def key (e : Errand) : Bytes := e.on.name.key

/-- The operation that an errand is; numbers and truth values are values as well. -/
def op : Errand → Op Value
  | ⟨s, .push entry⟩ => (Call.push s.store s.name.toValue entry).op
  | ⟨s, .blockingPop timeout⟩ => (Call.blockingPop s.store s.name.toValue timeout).op
  | ⟨s, .length⟩ => do return .int (← (Call.length s.store s.name.toValue).op)
  | ⟨s, .release⟩ => (Call.release s.store s.name.toValue).op
  | ⟨s, .acquire duration⟩ => (Call.acquire s.store s.name.toValue duration).op
  | ⟨s, .value⟩ => do return .int (← (Call.value s).op)
  | ⟨s, .locked⟩ => do return .bool (← (Call.locked s).op)
  | ⟨s, .acquirePermit blocking timeout⟩ => do
    return .bool (← (Call.acquirePermit s blocking timeout).op)
  | ⟨s, .releasePermits count⟩ => (Call.releasePermits s count).op

/-- Errands one after the other, whatever each comes to; the result is what they came to. -/
def course : List Errand → Course (List (Except Failure Value))
  | [] => .done []
  | e :: es => do
    let result ← Course.perform e.op
    let results ← course es
    return result :: results

end Errand

/-! ## One list -/

/-- The reply to a command whose list has some entries, and the entries that are left. -/
def Command.onList : Command → List Bytes → Value × List Bytes
  | push _ entry, es => (.int (es ++ [Lists.stored entry]).length, es ++ [Lists.stored entry])
  | pop _, [] | blockingPop .., [] => (.none, [])
  | pop _, e :: es => (.bytes e, es)
  | blockingPop name _, e :: es => (Lists.pair name.key e, es)
  | length _, es => (.int es.length, es)

/-- A setting in which no call fails, and in which a timer never does. -/
structure Setting.IsCalm (x : Setting) (timer : Timer) : Prop where
  reads : ∀ n, timer.reads (x.clock n)
  fails : ∀ n, x.fails n = none

namespace Lists

/-- Where nobody waits, an entry is pushed behind the others. -/
theorem push_of_nobody {s : Lists} (h : s.waiters = []) (key entry : Bytes) :
    s.push key entry =
      ((s.entries key ++ [entry]).length, [], s.put key (s.entries key ++ [entry])) := by
  have kept : ∀ es, ({ s.put key es with waiters := [] } : Lists) = s.put key es := fun es => by
    rw [← h]
    rfl
  simp only [push, h, serve, kept]

/-- What one command does to one list, no matter how the lists are kept. -/
theorem execute_onList {s : Lists} (hs : s.waiters = []) (c : Command) :
    (s.execute c).reply.getD .none = (c.onList (s.entries c.name.key)).1 ∧
      (s.execute c).lists.waiters = [] ∧
      ∀ k, (s.execute c).lists.entries k =
        if k = c.name.key then (c.onList (s.entries c.name.key)).2 else s.entries k := by
  -- A list that is looked at or found empty stays as it is.
  have same : ∀ (es : List Bytes) (key : Bytes), s.entries key = es →
      ∀ k, s.entries k = if k = key then es else s.entries k := by
    rintro es key rfl k
    split
    · next h => rw [h]
    · rfl
  cases c with
  | push name entry =>
    simp only [execute, push_of_nobody hs]
    exact ⟨rfl, hs, fun k => s.entries_put name.key k _⟩
  | length name => exact ⟨rfl, hs, same _ _ rfl⟩
  | pop name =>
    simp only [execute, pop, Command.name]
    cases h : s.entries name.key with
    | nil => exact ⟨rfl, hs, same _ _ h⟩
    | cons e es => exact ⟨rfl, hs, fun k => s.entries_put name.key k es⟩
  | blockingPop name seconds =>
    simp only [execute, pop, Command.name]
    cases h : s.entries name.key with
    | nil => exact ⟨rfl, hs, same _ _ h⟩
    | cons e es => exact ⟨rfl, hs, fun k => s.entries_put name.key k es⟩

end Lists

/-- **A lone caller's command acts on its own list and on no other.** -/
theorem Setting.call_onList {x : Setting} {timer : Timer} (hx : x.IsCalm timer) {s : Solo}
    (hs : s.lists.waiters = []) (c : Command) :
    (x.call c s).1 = .ok (c.onList (s.lists.entries c.name.key)).1 ∧
      (x.call c s).2.lists.waiters = [] ∧
      ∀ k, (x.call c s).2.lists.entries k =
        if k = c.name.key then (c.onList (s.lists.entries c.name.key)).2 else s.lists.entries k := by
  obtain ⟨reply, nobody, entries⟩ := Lists.execute_onList hs c
  unfold call
  rw [hx.fails]
  exact ⟨congrArg Except.ok reply, nobody, entries⟩

/-! ## Staying on a list -/

/-- The name of the list that a record is about. -/
def Record.name? : Record → Option Name
  | pushed _ name _ | acquired name _ | timedOut name _ => some name
  | registered _ => none

/-- Is a request about no other list than one? -/
def Request.StaysOn (key : Bytes) : Request → Prop
  | command _ c => c.name.key = key
  | log r => ∀ name, r.name? = some name → name.key = key
  | clock | draw .. | connect _ => True

/-- What follows an operation only ever gets such results as it has. -/
theorem Op.All.bind_of {α β : Type} {P : Request → Prop} {Q : α → Prop} {op : Op α} {f : α → Op β}
    (h : op.All P) (hr : op.Returns Q) (hf : ∀ a, Q a → (f a).All P) : (op >>= f).All P := by
  induction op with
  | done result =>
    cases result with
    | ok a => exact hf a hr
    | error e => trivial
  | ask r next ih => exact ⟨h.1, fun a => ih a (h.2 a) (hr a)⟩

section StaysOn

open Op

variable {key : Bytes} {s : ListStore} {name : Name}

theorem all_send {c : Command} (h : c.name.key = key) : (s.send c).All (Request.StaysOn key) :=
  ⟨h, fun _ => trivial⟩

theorem all_log {r : Record} (h : ∀ name, r.name? = some name → name.key = key) :
    (Op.log r).All (Request.StaysOn key) := ⟨h, fun _ => trivial⟩

theorem ListStore.all_push (h : name.key = key) (entry : Value) :
    (s.push name entry).All (Request.StaysOn key) := by
  rw [s.push_eq]
  have sent : (s.send (.push name entry)).All (Request.StaysOn key) := all_send h
  refine sent.bind fun reply => (all_log ?_).bind fun _ => trivial
  rintro _ ⟨⟩
  exact h

theorem ListStore.all_length (h : name.key = key) : (s.length name).All (Request.StaysOn key) := by
  rw [s.length_eq]
  exact All.bind (all_send h) fun _ => all_ofExcept _

theorem ListStore.all_blockingPop (h : name.key = key) (timeout : Value) :
    (s.blockingPop name timeout).All (Request.StaysOn key) := by
  rw [s.blockingPop_eq]
  refine All.check fun seconds _ => ?_
  split
  · exact all_send h
  · exact All.bind (all_send h) fun _ => all_ofExcept _

/-- What is timed tells the log the name that was popped from. -/
theorem all_timed {pop : Op (Name × Value)} (h : pop.All (Request.StaysOn key))
    (hr : pop.Returns fun p => p.1.key = key) : (timed pop).All (Request.StaysOn key) := by
  refine ⟨trivial, fun start => ?_⟩
  show (pop.attempt >>= _).All _
  refine All.bind_of h.attempt hr.attempt fun result hresult => ⟨trivial, fun stop => ?_⟩
  show (Op.ofExcept (stopped start result) >>= _).All _
  refine All.check fun p hp => All.check fun ms _ => (all_log ?_).bind fun _ => trivial
  have told : (outcome p.1 p.2 ms).name? = some p.1 := by
    obtain ⟨n, entry⟩ := p
    cases entry <;> rfl
  rintro n hn
  rw [← Option.some.inj (told.symm.trans hn)]
  exact hresult p (stopped_eq_ok hp)

theorem all_acquireFrom {name : Except Failure Name} (h : ∀ n, name = .ok n → n.key = key)
    (duration : Value) : (acquireFrom s name duration).All (Request.StaysOn key) := by
  rw [acquireFrom_eq]
  have own : ∀ n, s.style.received name = .ok n → n.key = key := fun n hn => by
    cases name with
    | ok m => exact h n hn
    | error f => cases hn
  refine all_timed (All.check fun n hn => ?_) (Returns.check fun n hn => ?_)
  · exact (ListStore.all_blockingPop (own n hn) duration).bind fun _ => trivial
  · exact (returns_any _).bind fun _ _ => own n hn

theorem all_release (h : name.key = key) : (release s name).All (Request.StaysOn key) := by
  rw [release_eq]
  exact ListStore.all_push h permit

namespace Semaphore

variable {s : Semaphore}

theorem all_value : s.value.All (Request.StaysOn s.name.key) := by
  rw [s.value_eq]
  exact ListStore.all_length rfl

theorem all_acquire (blocking timeout : Value) :
    (s.acquire blocking timeout).All (Request.StaysOn s.name.key) := by
  rw [s.acquire_eq]
  refine All.bind (all_acquireFrom (fun n hn => ?_) _) fun _ => trivial
  cases hn
  rfl

theorem all_releaseTimes : ∀ n, (s.releaseTimes n).All (Request.StaysOn s.name.key)
  | 0 => trivial
  | 1 => Permits.all_release rfl
  | n + 2 => (Permits.all_release rfl).bind fun _ => all_releaseTimes (n + 1)

end Semaphore

end StaysOn

/-- Reading a name gives it back. -/
theorem Name.check_toValue {n n' : Name} (h : check n.toValue = .ok n') : n' = n := by
  have same := toValue_of_check h
  cases n <;> cases n' <;> cases same <;> rfl

open Op in
/-- **An errand stays on its own list.** -/
theorem Errand.all_staysOn (e : Errand) : e.op.All (Request.StaysOn e.key) := by
  obtain ⟨s, task⟩ := e
  have own : ∀ n, Name.check s.name.toValue = .ok n → n.key = s.name.key :=
    fun n hn => congrArg Name.key (Name.check_toValue hn)
  show (op _).All (Request.StaysOn s.name.key)
  cases task with
  | push entry =>
    rw [op, Call.op_push]
    exact All.check fun n hn => ListStore.all_push (own n hn) entry
  | blockingPop timeout =>
    rw [op, Call.op_blockingPop]
    exact All.check fun n hn => ListStore.all_blockingPop (own n hn) timeout
  | length =>
    rw [op, Call.op_length]
    exact All.bind (All.check fun n hn => ListStore.all_length (own n hn)) fun _ => trivial
  | release =>
    rw [op, Call.op_release]
    exact All.check fun n hn => all_release (own n hn)
  | acquire duration => exact all_acquireFrom own duration
  | value => exact All.bind Semaphore.all_value fun _ => trivial
  | locked =>
    refine All.bind (?_ : s.locked.All _) fun _ => trivial
    rw [s.locked_eq]
    exact All.bind Semaphore.all_value fun _ => trivial
  | acquirePermit blocking timeout =>
    exact All.bind (Semaphore.all_acquire blocking timeout) fun _ => trivial
  | releasePermits count =>
    show (s.release count).All _
    rw [s.release_eq]
    exact All.check fun n _ => Semaphore.all_releaseTimes n

/-- Is an event about a list? -/
def Course.Event.isOn (key : Bytes) : Event → Bool
  | .answer (.command _ c) _ => c.name.key = key
  | .answer (.log r) _ => r.name?.any (·.key = key)
  | _ => false

/-- An answer to what stays on one list leaves every other as it is. -/
theorem Setting.answer_staysOn {x : Setting} {timer : Timer} (hx : x.IsCalm timer) {r : Request}
    {own key : Bytes} (h : r.StaysOn own) (hk : key ≠ own) {s : Solo} (hs : s.lists.waiters = []) :
    (x.answer r s).2.lists.waiters = [] ∧
      (x.answer r s).2.lists.entries key = s.lists.entries key ∧
      ∀ a, (Event.answer r a).isOn key = false := by
  cases r with
  | clock | draw | connect => exact ⟨hs, rfl, fun _ => rfl⟩
  | command e c =>
    obtain ⟨-, nobody, entries⟩ := x.call_onList hx hs c
    have other : ¬key = c.name.key := fun heq => hk (heq.trans h)
    refine ⟨nobody, (entries key).trans (if_neg other), fun _ => ?_⟩
    exact decide_eq_false fun heq => other heq.symm
  | log r =>
    refine ⟨hs, rfl, fun _ => ?_⟩
    show r.name?.any (·.key = key) = false
    cases hn : r.name? with
    | none => rfl
    | some n => exact decide_eq_false fun heq => hk (heq.symm.trans (h n hn))

/-- **What stays on one list leaves every other as it is**, and shows nothing about it. -/
theorem Setting.run_staysOn {α : Type} {x : Setting} {timer : Timer} (hx : x.IsCalm timer)
    {op : Op α} {own key : Bytes} (h : op.All (Request.StaysOn own)) (hk : key ≠ own) {s : Solo}
    (hs : s.lists.waiters = []) :
    let ran := (Course.perform op).run x.answer s
    ran.state.lists.waiters = [] ∧ ran.state.lists.entries key = s.lists.entries key ∧
      ran.events.filter (·.isOn key) = [] := by
  induction op generalizing s with
  | done result => exact ⟨hs, rfl, rfl⟩
  | ask r next ih =>
    obtain ⟨nobody, entries, quiet⟩ := x.answer_staysOn hx h.1 hk hs
    obtain ⟨nobody', entries', quiet'⟩ := ih (x.answer r s).1 (h.2 _) nobody
    refine ⟨nobody', entries'.trans entries, ?_⟩
    show List.filter _ (Event.answer r (x.answer r s).1 :: _) = []
    rw [List.filter_cons_of_neg (by simp [quiet])]
    exact quiet'

end Permits
