/-
  Waiting — nobody waits for ever.

  A store takes zero seconds to mean that a pop waits for ever.  Seconds reach a pop from many
  places: as an argument that any value may stand for, as a semaphore's own timeout, as the text that
  a host hands over.  Whatever way they came,

  1. **each call pops as its demand says** (`Demand.pops`, `pops_call`): once if it acquires and its
     name and its duration are read, and not at all otherwise.  It polls if the seconds are zero or
     less, and it waits for that many seconds if they are more;
  2. **every pop that waits is bounded** (`Command.IsBounded`): its seconds are finite and positive.

  The proof has one rule for each function between a call and its pop, and one answer counts as much
  as any other: what a store replies, fails with, or never replies at all makes no difference.

  `Call.Waits` puts together what that means for a call, and `World.waits_bounded` what it means for
  programs, alone and among others.
-/
import Permits.Proofs.Account.Operations
import Permits.Proofs.Demands
import Permits.Proofs.Solo
import Permits.Proofs.World.Replay

namespace Permits

open Number
open Course (Event)

/-! ## Seconds -/

/-- A finite number that is not zero or less is more than zero. -/
theorem Number.Double.zero_lt_of_not_le {x : Double} (hf : x.isFinite = true)
    (hx : ¬x.le .zero = true) : Double.zero.lt x = true := by
  cases x with
  | infinite s => cases hf
  | nan p => cases hf
  | finite s n =>
    have hle : ¬Double.signed s n ≤ Double.signed false 0 := fun h => hx (decide_eq_true h)
    have hlt : Double.signed false 0 < Double.signed s n := Int.lt_of_not_ge hle
    exact decide_eq_true hlt

/-- Finite seconds are not at most zero exactly if they are more. -/
theorem Number.Double.zero_lt_iff_not_le {x : Double} (h : x.isFinite = true) :
    Double.zero.lt x = true ↔ ¬x.le .zero = true := by
  refine ⟨fun positive low => ?_, Double.zero_lt_of_not_le h⟩
  cases x with
  | infinite s => cases h
  | nan p => cases h
  | finite s n =>
    have above : Double.signed false 0 < Double.signed s n := of_decide_eq_true positive
    have below : Double.signed s n ≤ Double.signed false 0 := of_decide_eq_true low
    omega

namespace Command

/-- Does a command wait for a finite and positive number of seconds, if it waits at all? -/
def IsBounded : Command → Prop
  | blockingPop _ seconds => seconds.isFinite = true ∧ Double.zero.lt seconds = true
  | push .. | pop _ | length _ => True

/-- A pop for finite seconds is bounded, since without any seconds to wait it only polls. -/
theorem isBounded_popFor (name : Name) {seconds : Double} (h : seconds.isFinite = true) :
    (popFor name seconds).IsBounded := by
  unfold popFor
  split
  · trivial
  · next hx => exact ⟨h, Double.zero_lt_of_not_le h hx⟩

theorem isBounded_of_not_isPop {c : Command} (h : c.isPop = false) : c.IsBounded := by
  cases c with
  | push | pop | length => trivial
  | blockingPop => cases h

end Command

/-- The pops that were sent, in order. -/
def popsIn (events : List Event) : List Command := (commands events).filter Command.isPop

/-! ## What operations pop -/

/-- Does an operation send just these pops, and no pop that is not bounded, whatever it is
    answered? -/
def Op.Pops {α : Type} (l : List Command) (op : Op α) : Prop :=
  ∀ g, (∀ c ∈ g, c.IsBounded) →
    (Course.perform op).Always (fun _ _ => True) .commands (fun g => ∀ c ∈ g, c.IsBounded)
      (fun _ g' => g'.filter Command.isPop = g.filter Command.isPop ++ l) g

namespace Op

variable {α β : Type} {l : List Command}

/-- What sends no pops pops nothing. -/
theorem pops_of_sends {op : Op α} (h : op.Sends fun c => c.isPop = false) : op.Pops [] := by
  intro g hg
  let same (g' : List Command) : Prop :=
    (∀ c ∈ g', c.IsBounded) ∧ g'.filter Command.isPop = g.filter Command.isPop ++ []
  refine (Course.always_of_all (I := same) h (fun g' r a hr _ hs => ?_) (fun g' hs => hs.1)
    ⟨hg, (List.append_nil _).symm⟩).mono fun _ g' _ hs => hs.2
  cases r with
  | clock | draw | connect | log =>
    show same (g' ++ [])
    rw [List.append_nil]
    exact hs
  | command x c =>
    have hc : c.isPop = false := hr
    refine ⟨fun c' hc' => ?_, ?_⟩
    · rcases List.mem_append.mp hc' with hm | hm
      · exact hs.1 c' hm
      · obtain rfl := List.mem_singleton.mp hm
        exact Command.isBounded_of_not_isPop hc
    · show (g' ++ [c]).filter _ = _
      have skipped : [c].filter Command.isPop = [] := List.filter_cons_of_neg (by simp [hc])
      rw [List.filter_append, skipped, List.append_nil, hs.2]

theorem pops_done (result : Except Failure α) : (done result).Pops [] :=
  pops_of_sends trivial

/-- Behind an operation that pops comes nothing more that pops. -/
theorem Pops.bind {op : Op α} {f : α → Op β} (h : op.Pops l) (hf : ∀ a, (f a).Pops []) :
    (op >>= f).Pops l := by
  intro g hg
  refine Course.always_perform_bind ((h g hg).mono fun r g' hb hl => ?_)
  cases r with
  | error e => exact hl
  | ok a =>
    refine (hf a g' hb).mono fun _ g'' _ hl' => ?_
    rw [hl', hl, List.append_nil]

theorem Pops.attempt {op : Op α} (h : op.Pops l) : op.attempt.Pops l :=
  fun g hg => Course.always_attempt (h g hg)

/-- To look at the clock is no pop. -/
theorem Pops.after_clock {f : Double → Op α} (h : ∀ t, (f t).Pops l) : (clock >>= f).Pops l :=
  fun g hg => Course.always_quiet rfl hg fun t _ => h t g hg

/-- A pop that is bounded is popped, whatever the reply to it. -/
theorem pops_send {s : ListStore} {c : Command} (hp : c.isPop = true) (hb : c.IsBounded) :
    (s.send c).Pops [c] := by
  intro g hg
  refine Course.always_send hg fun a _ => ⟨fun c' hc' => ?_, ?_⟩
  · rcases List.mem_append.mp hc' with hm | hm
    · exact hg c' hm
    · obtain rfl := List.mem_singleton.mp hm
      exact hb
  · show (g ++ [c]).filter _ = _
    rw [List.filter_append, List.filter_cons_of_pos hp]
    rfl

end Op

section Stores

open Op

variable {s : ListStore} {duration : Value}

theorem ListStore.pops_blockingPop (name : Name) :
    (s.blockingPop name duration).Pops (Demand.pops ⟨.ok name, duration⟩) := by
  rw [s.blockingPop_eq]
  unfold Demand.pops
  cases h : Duration.seconds duration with
  | error f => exact pops_done _
  | ok seconds =>
    have bounded := Command.isBounded_popFor name (Duration.isFinite_of_seconds h)
    have isPop := Command.isPop_popFor name seconds
    show (if seconds.le .zero = true then s.send (.pop name) else _).Pops [.popFor name seconds]
    by_cases hx : seconds.le .zero = true
    · rw [Command.popFor, if_pos hx] at bounded isPop ⊢
      rw [if_pos hx]
      exact pops_send isPop bounded
    · rw [Command.popFor, if_neg hx] at bounded isPop ⊢
      rw [if_neg hx]
      exact (pops_send isPop bounded).bind fun reply => pops_done _

/-- Whatever is made of the time a pop took, there is no other. -/
theorem pops_timed {pop : Op (Name × Value)} {l : List Command} (h : pop.Pops l) :
    (timed pop).Pops l := by
  refine Pops.after_clock fun start => h.attempt.bind fun result => pops_of_sends ?_
  refine All.bind sends_clock fun stop => All.check fun pair _ => All.check fun ms _ => ?_
  exact All.bind (sends_log _) fun _ => trivial

theorem pops_acquireFrom (name : Except Failure Name) :
    (acquireFrom s name duration).Pops (Demand.pops ⟨name, duration⟩) := by
  rw [acquireFrom_eq]
  refine pops_timed ?_
  cases name with
  | error f => exact pops_done _
  | ok name => exact (ListStore.pops_blockingPop name).bind fun entry => pops_done _

theorem Semaphore.pops_acquire {s : Semaphore} (blocking timeout : Value) :
    (s.acquire blocking timeout).Pops (Demand.pops ⟨.ok s.name, s.waitFor blocking timeout⟩) := by
  rw [s.acquire_eq]
  exact (pops_acquireFrom _).bind fun entry => pops_done _

end Stores

/-! ## What calls pop -/

/-- The pops that a call is to make. -/
def Call.pops (c : Call) : List Command := (c.demand?.map Demand.pops).getD []

/-- **Each call pops as its demand says.** -/
theorem Call.pops_op {c : Call} (own : c.IsOwn) : c.op.Pops c.pops := by
  cases hd : c.demand? with
  | none =>
    rw [Call.pops, hd]
    exact Op.pops_of_sends (Call.sends_of_demand_eq_none own hd)
  | some d =>
    rw [Call.pops, hd]
    show c.op.Pops d.pops
    cases c with
    | acquire store name duration =>
      cases hd
      exact pops_acquireFrom _
    | acquirePermit s blocking timeout =>
      cases hd
      exact Semaphore.pops_acquire blocking timeout
    | enter s =>
      cases hd
      show s.enter.Pops _
      rw [s.enter_eq]
      refine Op.Pops.bind (Semaphore.pops_acquire (.bool true) .none) fun acquired => ?_
      split <;> exact Op.pops_done _
    | blockingPop store name duration =>
      cases hd
      rw [op_blockingPop]
      unfold Op.named
      cases Name.check name with
      | error f => exact Op.pops_done _
      | ok n => exact ListStore.pops_blockingPop n
    | command r name args =>
      obtain ⟨store, call⟩ := Registrar.call_of_demand hd
      show (r.call name args).Pops d.pops
      rw [call]
      exact pops_acquireFrom _
    | _ => cases hd

/-! ## Timeouts of semaphores -/

namespace Semaphore

/-- Is a semaphore's timeout what its options say, in seconds? -/
def Options.Times (options : Options) (s : Semaphore) : Prop :=
  Duration.seconds (options.timeout.getD defaultTimeout) = .ok s.timeout

theorem Options.returns_bound (options : Options) (name : Name) (store : ListStore) :
    (options.bound name store).Returns options.Times := by
  refine Op.Returns.check fun seconds h => ?_
  show Duration.seconds _ = .ok seconds.1
  rw [Duration.finiteSeconds] at h
  split at h
  · next x hx =>
    cases h
    exact hx
  · cases h

theorem returns_create (options : Options) (name : Value) :
    (create options name).Returns options.Times := by
  rw [create_eq]
  exact Op.Returns.check fun n _ =>
    (Op.returns_any _).bind fun store _ => options.returns_bound n store

theorem returns_mint (options : Options) (source : SourceRef) (value : Value) :
    (mint options source value).Returns options.Times := by
  rw [mint_eq]
  refine Op.Returns.check fun negative _ => ?_
  split
  · trivial
  · refine (Op.returns_any _).bind fun name _ => ((returns_create options _).waitedFor _).bind fun s hs => ?_
    split
    · exact (Op.returns_any _).bind fun _ _ => hs
    · exact hs

end Semaphore

/-- Does a semaphore that a call makes have the timeout that it is made with? -/
def Call.MakesTimed : (c : Call) → Except Failure c.Result → Prop
  | create options _, .ok s | mint options _ _, .ok s => options.Times s
  | _, _ => True

theorem Call.makesTimed_of_ends {c : Call} {result : Except Failure c.Result}
    (h : c.op.Ends result) : c.MakesTimed result := by
  cases result with
  | error f => cases c <;> trivial
  | ok v =>
    cases c with
    | create options name => exact (Semaphore.returns_create options name).ends h
    | mint options source value => exact (Semaphore.returns_mint options source value).ends h
    | _ => trivial

/-! ## Calls -/

/-- How a call waits.

    - A pop that waits does so for a finite, positive number of seconds, and it is the number that the
      duration in force comes to.
    - Seconds of zero or less, and a caller that does not want to be blocked, make a pop that polls.
    - A call pops at most once, and it does not pop at all unless it acquires. -/
structure Call.Waits (c : Call) (events : List Event) (result : Except Failure c.Result) : Prop where
  bounded : ∀ name seconds, .blockingPop name seconds ∈ commands events →
    seconds.isFinite = true ∧ Double.zero.lt seconds = true ∧ ∃ d, c.demand? = some d ∧
      d.name = .ok name ∧ Duration.seconds d.duration = .ok seconds
  polled : ∀ d name seconds, c.demand? = some d → d.name = .ok name →
    Duration.seconds d.duration = .ok seconds → seconds.le .zero = true → popsIn events = [.pop name]
  unblocked : ∀ s blocking timeout, c = .acquirePermit s blocking timeout →
    blocking.isTrue = false → popsIn events = [.pop s.name]
  once : (popsIn events).length ≤ 1
  idle : c.demand? = none → popsIn events = []
  timed : c.MakesTimed result

/-- A demand comes to a pop that waits only if the seconds are those of the duration. -/
theorem Demand.of_mem_pops {d : Demand} {name : Name} {seconds : Double}
    (h : .blockingPop name seconds ∈ d.pops) :
    d.name = .ok name ∧ Duration.seconds d.duration = .ok seconds := by
  unfold Demand.pops at h
  split at h
  · next n x hn hx =>
    have heq := List.mem_singleton.mp h
    rw [Command.popFor] at heq
    split at heq
    · cases heq
    · cases heq
      exact ⟨hn, hx⟩
  · cases h

theorem Demand.pops_of_le {d : Demand} {name : Name} {seconds : Double} (hn : d.name = .ok name)
    (hd : Duration.seconds d.duration = .ok seconds) (hx : seconds.le .zero = true) :
    d.pops = [.pop name] := by
  rw [Demand.pops, hn, hd]
  show [Command.popFor name seconds] = _
  rw [Command.popFor, if_pos hx]

theorem Demand.length_pops_le (d : Demand) : d.pops.length ≤ 1 := by
  unfold Demand.pops
  split
  · exact Nat.le_refl 1
  · exact Nat.zero_le 1

/-- No seconds at all are what a caller waits who does not want to be blocked. -/
theorem Semaphore.waitFor_of_not_isTrue (s : Semaphore) {blocking : Value} (timeout : Value)
    (h : blocking.isTrue = false) : s.waitFor blocking timeout = .int 0 := by
  unfold waitFor
  rw [h]
  rfl

theorem Call.waits {σ : Type} {answer : (r : Request) → σ → r.Answer × σ} :
    Rule.Covers Call.Waits answer Call.IsOwn := by
  intro c own s
  have always := Call.pops_op own [] (fun _ h => nomatch h)
  have bounded := (always.mono fun _ _ hb _ => hb).run answer (fun _ _ => trivial) s
  have popped := always.run answer (fun _ _ => trivial) s
  rw [Ledger.read_commands, List.nil_append] at bounded popped
  change popsIn _ = c.pops at popped
  have polled : ∀ d name seconds, c.demand? = some d → d.name = .ok name →
      Duration.seconds d.duration = .ok seconds → seconds.le .zero = true →
      c.pops = [.pop name] := by
    intro d name seconds hd hn hs hx
    rw [Call.pops, hd]
    exact Demand.pops_of_le hn hs hx
  have timed := Call.makesTimed_of_ends (Course.ends_run answer c.op s)
  refine ⟨fun name seconds h => ?_, ?_, ?_, ?_, ?_, timed⟩
  · obtain ⟨finite, positive⟩ := bounded _ h
    have hm : .blockingPop name seconds ∈ c.pops := popped ▸ List.mem_filter.mpr ⟨h, rfl⟩
    unfold Call.pops at hm
    cases hd : c.demand? with
    | none =>
      rw [hd] at hm
      cases hm
    | some d =>
      rw [hd] at hm
      exact ⟨finite, positive, d, rfl, Demand.of_mem_pops hm⟩
  · rw [popped]
    exact polled
  · rintro s blocking timeout rfl hb
    rw [popped]
    have wait := s.waitFor_of_not_isTrue timeout hb
    exact polled ⟨.ok s.name, s.waitFor blocking timeout⟩ s.name .zero rfl rfl
      (wait ▸ Duration.seconds_zero) rfl
  · rw [popped, Call.pops]
    cases c.demand? with
    | none => exact Nat.zero_le 1
    | some d => exact d.length_pops_le
  · intro hd
    rw [popped, Call.pops, hd]
    rfl

/-! ## Programs -/

/-- A pop that waits somewhere in the run of a program is bounded. -/
theorem Routine.Obeys.isBounded {p : Routine} {events : List Event} {final : Except Failure Unit}
    (h : p.Obeys Call.Waits events final) {x : Executor} {c : Command} {a : Except Failure Value}
    (hc : .answer (.command x c) a ∈ events) : c.IsBounded := by
  have all : ∀ e ∈ events, ∀ c, Event.command? e = some c → c.IsBounded := by
    refine h.forall_mem (fun m c hm => nomatch hm) fun call own r waits e he c hc => ?_
    cases c with
    | push | pop | length => trivial
    | blockingPop name seconds =>
      obtain ⟨finite, positive, -⟩ :=
        waits.bounded name seconds (List.mem_filterMap.mpr ⟨e, he, hc⟩)
      exact ⟨finite, positive⟩
  exact all _ hc c rfl

namespace World

/-- **Waiting is always bounded.**  Programs call and block as they like, with any arguments.

    - Whatever a program is answered, each of its calls waits as `Call.Waits` says: its pops are those
      of an acquire, and none of them waits unless for a finite, positive number of seconds.
    - Among other callers, whoever waits does so in such a call, for a finite, positive number of
      seconds. -/
theorem waits_bounded {routines : Nat → Routine} (hr : ∀ i, (routines i).Only Call.IsOwn) :
    (∀ (σ : Type) (answer : (r : Request) → σ → r.Answer × σ) (s : σ) (i : Nat),
      (routines i).Obeys Call.Waits ((routines i).course.run answer s).events
        ((routines i).course.run answer s).result) ∧
    ∀ (k : Conditions) (lists : Lists) (t : Double) (w : World), lists.waiters = [] → k.reads t →
      Reaches k (start lists t routines) w → ∀ v ∈ w.lists.waiters, ∃ x name seconds next,
        w.callers v.ticket = .ask (.command x (.blockingPop name seconds)) next ∧
        name.key = v.key ∧ seconds.isFinite = true ∧ Double.zero.lt seconds = true ∧
        ∃ rest final, (routines v.ticket).Obeys Call.Waits (w.eventsOf v.ticket ++
          .answer (.command x (.blockingPop name seconds)) (.ok .none) :: rest) final := by
  have obeys : ∀ (σ : Type) (answer : (r : Request) → σ → r.Answer × σ) (s : σ) (i : Nat),
      (routines i).Obeys Call.Waits ((routines i).course.run answer s).events
        ((routines i).course.run answer s).result :=
    fun σ answer s i => Routine.run_obeys Call.waits (hr i) s
  refine ⟨obeys, fun k lists t w hl ht h v hv => ?_⟩
  have coherent := coherent_start hl ht routines
  obtain ⟨x, name, seconds, next, hc, hk⟩ := (h.coherent coherent).awaits v hv
  -- What happened to the caller, with an answer to its pop, is the beginning of a run.
  obtain ⟨script, rest, events⟩ := h.run_replay coherent rfl hc (.ok .none)
  have run := obeys _ Course.replay script v.ticket
  change ((routines v.ticket).course.run Course.replay script).events = _ at events
  rw [events] at run
  obtain ⟨finite, positive⟩ := run.isBounded (List.mem_append_right _ (List.mem_cons_self ..))
  exact ⟨x, name, seconds, next, hc, hk, finite, positive, rest, _, run⟩

/-- The first caller names a number that is zero for all that can be told, and then a block; all
    others wait for the shortest time there is. -/
def brief : Nat → Routine
  | 0 => .call (.acquire ⟨⟨"lists", .direct⟩⟩ (.text "k") (.text "1e-400")) fun _ =>
    .within (.brief (.text "k") ⟨⟨"lists", .direct⟩⟩) (.ends (.ok ())) .ends
  | _ => .call (.blockingPop ⟨⟨"lists", .awaited⟩⟩ (.text "k") (.float (.finite false 1))) fun _ =>
    .ends (.ok ())

/-- The first caller polls and then waits, and one of the others is seen waiting. -/
theorem brief_waits_bounded :
    (brief 0).Obeys Call.Waits ((brief 0).course.run Setting.sevens.answer { lists := {} }).events
      ((brief 0).course.run Setting.sevens.answer { lists := {} }).result ∧
    (commands ((brief 0).course.run Setting.sevens.answer { lists := {} }).events).map
      Command.word = ["LPOP", "BLPOP"] ∧
    ∃ w, Reaches .still (start {} (.finite false 1) brief) w ∧
      w.lists.waiters.map (·.ticket) = [1] ∧
      ∀ v ∈ w.lists.waiters, ∃ x name seconds next,
        w.callers v.ticket = .ask (.command x (.blockingPop name seconds)) next ∧
        seconds.isFinite = true ∧ Double.zero.lt seconds = true := by
  have own : ∀ i, (brief i).Only Call.IsOwn := by
    intro i
    match i with
    | 0 => exact ⟨trivial, fun _ _ => ⟨trivial, fun _ => trivial⟩⟩
    | i + 1 => exact ⟨trivial, fun _ _ => trivial⟩
  obtain ⟨obeys, suspended⟩ := waits_bounded own
  have waits : Reaches .still (start {} (.finite false 1) brief) _ :=
    Reaches.step .refl (.wait (i := 1) rfl rfl rfl)
  refine ⟨obeys _ _ _ 0, by decide +kernel, _, waits, rfl, fun v hv => ?_⟩
  obtain ⟨x, name, seconds, next, hc, -, finite, positive, -⟩ :=
    suspended .still {} (.finite false 1) _ rfl rfl waits v hv
  exact ⟨x, name, seconds, next, hc, finite, positive⟩

end World

end Permits
