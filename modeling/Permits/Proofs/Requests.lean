/-
  Requests — what a run asks for, and how often it draws.

  1. **Requests of a run** (`requests`): in order, without the answers.  What all requests of an operation
     are like, those of its runs are (`Op.All.requests_run`).
  2. **Draws** (`Op.Draws`): an operation draws digits from one source and asks for nothing else; if it
     ends well it has drawn just so many.  Of operations in sequence the numbers add up, and a name takes
     forty digits (`Identifier.draws_mint`).
  3. **Commands** (`Op.Asks`): an operation sends the same commands to the same executors whatever it is
     answered.  An acquire sends the pop that its demand comes to and no other command
     (`asks_acquireFrom`).
-/
import Permits.Proofs.Demands

namespace Permits

open Course (Event)

/-! ## Requests of a run -/

/-- The request that an event answers. -/
def Course.Event.request? : Event → Option Request
  | .answer r _ => some r
  | .moment _ => none

/-- The requests that were made, in order. -/
def requests (events : List Event) : List Request := events.filterMap Event.request?

theorem requests_append (events later : List Event) :
    requests (events ++ later) = requests events ++ requests later :=
  List.filterMap_append

/-- Is a request a draw? -/
def Request.isDraw : Request → Bool
  | draw .. => true
  | command .. | clock | log _ | connect _ => false

namespace Op

variable {α β σ : Type} {source : SourceRef} {m n : Nat}

/-- What every request of an operation is like, every request of a run is like. -/
theorem All.requests_run {P : Request → Prop} {op : Op α} (h : op.All P)
    (answer : (r : Request) → σ → r.Answer × σ) (s : σ) :
    ∀ r ∈ requests ((Course.perform op).run answer s).events, P r := by
  induction op generalizing s with
  | done result => exact List.forall_mem_nil _
  | ask r next ih =>
    exact List.forall_mem_cons.mpr ⟨h.1, ih (answer r s).1 (h.2 _) (answer r s).2⟩

/-- What no request of an operation is like, no request of a run is like. -/
theorem All.filter_requests_run {p : Request → Bool} {op : Op α} (h : op.All fun r => p r = false)
    (answer : (r : Request) → σ → r.Answer × σ) (s : σ) :
    (requests ((Course.perform op).run answer s).events).filter p = [] := by
  refine List.filter_eq_nil_iff.mpr fun r hr => ?_
  rw [h.requests_run answer s r hr]
  exact Bool.false_ne_true

/-! ## Draws -/

/-- Does an operation draw so many digits from a source if it ends well, and does it ask for nothing
    else? -/
def Draws (source : SourceRef) : Nat → Op α → Prop
  | n, done (.ok _) => n = 0
  | _, done (.error _) => True
  | n, ask r next => r = .draw source 10 ∧ ∃ m, n = m + 1 ∧ ∀ a, (next a).Draws source m

theorem draws_ok (a : α) : (ok a).Draws source 0 := rfl

theorem Draws.bind {op : Op α} {f : α → Op β} (h : op.Draws source m)
    (hf : ∀ a, (f a).Draws source n) : (op >>= f).Draws source (m + n) := by
  induction op generalizing m with
  | done result =>
    cases result with
    | ok a =>
      obtain rfl : m = 0 := h
      rw [Nat.zero_add]
      exact hf a
    | error e => trivial
  | ask r next ih =>
    obtain ⟨hr, m, rfl, hnext⟩ := h
    exact ⟨hr, m + n, Nat.add_right_comm m 1 n, fun a => ih a (hnext a)⟩

theorem Draws.times {op : Op α} (h : op.Draws source m) : ∀ n, (op.times n).Draws source (n * m)
  | 0 => Nat.zero_mul m
  | n + 1 => by
    rw [Nat.succ_mul, Nat.add_comm]
    exact h.bind fun a => (Draws.times h n).bind fun as => draws_ok (a :: as)

/-- The requests of a run are draws, as many as it takes if the run ends well. -/
theorem Draws.requests_run {op : Op α} (h : op.Draws source n)
    (answer : (r : Request) → σ → r.Answer × σ) (s : σ) :
    ∃ j ≤ n, requests ((Course.perform op).run answer s).events =
        List.replicate j (.draw source 10) ∧
      ∀ a, ((Course.perform op).run answer s).result = .ok a → j = n := by
  induction op generalizing n s with
  | done result =>
    refine ⟨0, Nat.zero_le n, rfl, ?_⟩
    rintro a rfl
    exact h.symm
  | ask r next ih =>
    obtain ⟨rfl, m, rfl, hnext⟩ := h
    obtain ⟨j, hj, drawn, ended⟩ := ih _ (hnext (answer _ s).1) (answer _ s).2
    refine ⟨j + 1, Nat.succ_le_succ hj, ?_, fun a ha => congrArg (· + 1) (ended a ha)⟩
    exact congrArg (.draw source 10 :: ·) drawn

end Op

/-- **A name takes forty digits.** -/
theorem Identifier.draws_mint (source : SourceRef) : (mint source).Draws source 40 := by
  have digit : (digit source).Draws source 1 := by
    refine ⟨rfl, 0, rfl, fun a => ?_⟩
    show Op.Draws source 0 (.done (drawn a))
    cases drawn a with
    | ok digit => rfl
    | error f => trivial
  have segment : (segment source).Draws source 8 := (digit.times 8).bind fun _ => Op.draws_ok _
  exact (segment.times 5).bind fun _ => Op.draws_ok _

/-! ## Commands -/

namespace Op

variable {α β : Type} {l : List Request}

/-- Are these the commands that an operation sends, whatever it is answered? -/
def Asks (l : List Request) (op : Op α) : Prop :=
  ∀ (σ : Type) (answer : (r : Request) → σ → r.Answer × σ) (s : σ),
    (requests ((Course.perform op).run answer s).events).filter Request.isCommand = l

theorem asks_of_all {op : Op α} (h : op.All fun r => r.isCommand = false) : op.Asks [] :=
  fun _ answer s => h.filter_requests_run answer s

theorem asks_done (result : Except Failure α) : (done result).Asks [] :=
  fun _ _ _ => rfl

/-- Behind an operation that sends commands comes nothing more that sends any. -/
theorem Asks.bind {op : Op α} {f : α → Op β} (h : op.Asks l) (hf : ∀ a, (f a).Asks []) :
    (op >>= f).Asks l := by
  intro σ answer s
  have first := h σ answer s
  rw [Course.run_perform_bind]
  generalize (Course.perform op).run answer s = run at first ⊢
  obtain ⟨es, result, t⟩ := run
  cases result with
  | error e => exact first
  | ok a =>
    show (requests (es ++ _)).filter _ = l
    rw [requests_append, List.filter_append, hf a σ answer t, List.append_nil]
    exact first

theorem Asks.attempt {op : Op α} (h : op.Asks l) : op.attempt.Asks l := by
  intro σ answer s
  rw [Course.perform_attempt, Course.run_bind]
  show (requests (_ ++ [])).filter _ = l
  rw [List.append_nil]
  exact h σ answer s

/-- To look at the clock is no command. -/
theorem Asks.after_clock {f : Number.Double → Op α} (h : ∀ t, (f t).Asks l) :
    (clock >>= f).Asks l :=
  fun σ answer s => h (answer .clock s).1 σ answer (answer .clock s).2

end Op

section Stores

open Op

variable {s : ListStore} {duration : Value}

/-- The pops of a demand, sent to one executor. -/
def Demand.sent (d : Demand) (s : ListStore) : List Request := d.pops.map (.command s.executor)

/-- A pop sends what its demand comes to, and asks for nothing else. -/
theorem ListStore.requests_blockingPop {σ : Type} (answer : (r : Request) → σ → r.Answer × σ)
    (name : Name) (t : σ) :
    requests ((Course.perform (s.blockingPop name duration)).run answer t).events =
      Demand.sent ⟨.ok name, duration⟩ s := by
  rw [s.blockingPop_eq, Demand.sent, Demand.pops]
  cases Duration.seconds duration with
  | error f => rfl
  | ok x =>
    show _ = [Request.command s.executor (.popFor name x)]
    rw [Command.popFor]
    show requests ((Course.perform (if x.le .zero = true then s.send (.pop name) else _)).run
      answer t).events = _
    split
    · rfl
    · show requests ((Course.run answer (Course.perform (Op.done (s.style.received
        (answer (.command s.executor (.blockingPop name x)) t).1) >>= fun reply =>
          Op.ofExcept (Reply.popped reply))) _).after _).events = _
      cases s.style.received (answer (.command s.executor (.blockingPop name x)) t).1 with
      | ok reply => rfl
      | error f => rfl

theorem ListStore.asks_blockingPop (name : Name) :
    (s.blockingPop name duration).Asks (Demand.sent ⟨.ok name, duration⟩ s) := by
  intro σ answer t
  rw [ListStore.requests_blockingPop, Demand.sent, List.filter_map]
  exact congrArg _ (List.filter_eq_self.mpr fun c _ => rfl)

/-- Whatever is made of the time a pop took, it sends no command. -/
theorem asks_timed {pop : Op (Name × Value)} {l : List Request} (h : pop.Asks l) :
    (timed pop).Asks l := by
  refine Asks.after_clock fun start => h.attempt.bind fun result => asks_of_all ?_
  have asked (r : Request) (h : r.isCommand = false) :
      (request r).All fun r => r.isCommand = false := ⟨h, fun _ => trivial⟩
  refine All.bind (asked .clock rfl) fun stop => All.check fun pair _ => All.check fun ms _ => ?_
  exact All.bind (asked (.log _) rfl) fun _ => trivial

/-- **An acquire sends the pop that its demand comes to, and no other command.** -/
theorem asks_acquireFrom (name : Except Failure Name) :
    (acquireFrom s name duration).Asks (Demand.sent ⟨name, duration⟩ s) := by
  rw [acquireFrom_eq]
  refine asks_timed ?_
  cases name with
  | error f => exact asks_done _
  | ok name => exact (ListStore.asks_blockingPop name).bind fun entry => asks_done _

end Stores

end Permits
