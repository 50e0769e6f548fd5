/-
  Durations — what is made of a value that should say how long to wait.

  A duration comes from anywhere: a number, a span of time, text or bytes from a host, or whatever
  else a caller has.  It is either taken for a finite number of seconds or **rejected**.

  1. **Refusals** (`Failure.IsRefusal`): what is rejected is refused, which is to say that a value
     error or a type error is raised.  The exceptions are listed by `Duration.Escapes`: an integer to
     which no finite number is near, while the same integer as text is refused; an object that raises
     something else when it is converted; and an object that cannot be written into the message that
     refuses it.
  2. **Rejected calls** (`Op.Rejects`): where the duration that a call is given is rejected
     (`Call.duration?`), so is the call, and nothing has been sent.  It needs a timer that counts as
     started and draws that give digits (`Request.Runs`), for otherwise those are what the call
     fails with; commands may be answered anyhow.

  What escapes reaches a caller in the style in which the caller waits (`Call.waiting`), and refusals
  reach every caller as they are.  `Duration.settled` puts it all together.
-/
import Permits.Proofs.Account.Commands
import Permits.Proofs.Demands
import Permits.Proofs.Rounding
import Permits.Proofs.Solo

namespace Permits

open Number Text

/-! ## Refusals -/

/-- Is a failure a value error or a type error, or of a kind that is derived from one? -/
def Failure.IsRefusal (f : Failure) : Prop :=
  f.isA "ValueError" = true ∨ f.isA "TypeError" = true

/-- The refusals of this library's own. -/
theorem Failure.isRefusal_of_kind {f : Failure} {path : String} (h : f.kind = .of path)
    (hp : path ∈ ["ValueError", "UnicodeDecodeError", "TypeError"]) : f.IsRefusal := by
  have refusing : ∀ path ∈ ["ValueError", "UnicodeDecodeError", "TypeError"],
      (Kind.of path).isA "ValueError" = true ∨ (Kind.of path).isA "TypeError" = true := by
    decide +kernel
  rw [IsRefusal, isA, isA, h]
  exact refusing path hp

/-- Does this library refuse something with a failure of its own? -/
def Failure.IsOwnRefusal (f : Failure) : Prop := f.isOwn = true ∧ f.IsRefusal

namespace Failure.IsOwnRefusal

variable {f : Failure}

theorem value (h : f.kind = .of "ValueError") (own : f.isOwn = true) : f.IsOwnRefusal :=
  ⟨own, isRefusal_of_kind h (.head _)⟩

theorem type (h : f.kind = .of "TypeError") (own : f.isOwn = true) : f.IsOwnRefusal :=
  ⟨own, isRefusal_of_kind h (.tail _ (.tail _ (.head _)))⟩

theorem coding (h : f.kind = .of "UnicodeDecodeError") (own : f.isOwn = true) : f.IsOwnRefusal :=
  ⟨own, isRefusal_of_kind h (.tail _ (.head _))⟩

/-- A refusal reaches every caller as it is. -/
theorem raised (h : f.IsOwnRefusal) (w : Style) : w.raised f = f := by
  cases w with
  | direct => rfl
  | awaited => exact leaving_of_endsIteration (endsIteration_of_isOwn h.1)

end Failure.IsOwnRefusal

/-- A name that is refused is so by a value error or a type error. -/
theorem Name.isOwnRefusal_of_check {v : Value} {f : Failure} (h : check v = .error f) :
    f.IsOwnRefusal := by
  cases v <;> simp only [check] at h
  case text | bytes =>
    split at h <;> cases h
    exact .value rfl rfl
  all_goals
    cases h
    exact .type rfl rfl

/-- A number that is not below a bound is one, or it is refused as none. -/
theorem Semaphore.isOwnRefusal_of_isBelow {bound : Int} {v : Value} {f : Failure}
    (h : isBelow bound v = .error f) : f.IsOwnRefusal := by
  unfold isBelow at h
  split at h <;> cases h
  exact .type rfl rfl

/-! ## What escapes -/

namespace Duration

/-- What a value that is to be a duration runs into, where it is not refused as a duration. -/
inductive Escapes : Value → Failure → Prop where
  /-- An integer is rounded to infinity. -/
  | oversize {n : Int} (h : Double.overflow ≤ n.natAbs) : Escapes (.int n) .durationTooLarge
  /-- Converting an object runs into something that is not a matter of its value or type. -/
  | converting {o : Object} {r : Refusal} (h : o.number = some (.error r))
      (value : r.kind.isA "ValueError" = false) (type : r.kind.isA "TypeError" = false) :
      Escapes (.other o) (.ofRefusal r)
  /-- An object is refused for its value, but cannot be written. -/
  | writing {o : Object} {r unwritten : Refusal} (h : o.number = some (.error r))
      (value : r.kind.isA "ValueError" = true) (text : o.text = .error unwritten) :
      Escapes (.other o) ((Failure.ofRefusal unwritten).whileHandling (.ofRefusal r))

/-- Is a failure what somebody gets, who waits in some style, for a duration that is rejected?  It is
    a refusal, or it is what escapes. -/
def Rejection (w : Style) (d : Value) (f : Failure) : Prop :=
  f.IsOwnRefusal ∨ ∃ e, Escapes d e ∧ f = w.raised e

/-- Whoever waits gets a rejection in the style of waiting. -/
theorem Rejection.raised {w : Style} {d : Value} {f : Failure} (h : Rejection .direct d f) :
    Rejection w d (w.raised f) := by
  rcases h with own | ⟨_, escapes, rfl⟩
  · rw [own.raised]
    exact .inl own
  · exact .inr ⟨_, escapes, rfl⟩

theorem isOwnRefusal_of_ofText {s : String} {f : Failure} (h : ofText s = .error f) :
    f.IsOwnRefusal := by
  unfold ofText at h
  split at h <;> cases h
  exact .value rfl rfl

/-- An object that is no number of seconds is refused, unless converting or writing it fails. -/
theorem ofObject_error {o : Object} {f : Failure} (h : ofObject o = .error f) :
    Rejection .direct (.other o) f := by
  unfold ofObject at h
  split at h
  · cases h
  · next r raised =>
    cases h
    unfold unconverted
    split
    · next value =>
      split
      · exact .inl (.value rfl rfl)
      · next unwritten text => exact .inr ⟨_, .writing raised value text, rfl⟩
    · next value =>
      split
      · exact .inl (.type rfl rfl)
      · next type =>
        exact .inr ⟨_, .converting raised (Bool.eq_false_iff.mpr value) (Bool.eq_false_iff.mpr type), rfl⟩
  · cases h
    exact .inl (.type rfl rfl)

/-- What is no number is rejected. -/
theorem number_error {d : Value} {f : Failure} (h : number d = .error f) :
    Rejection .direct d f := by
  cases d with
  | span s => cases h
  | float x => cases h
  | other o => exact ofObject_error h
  | int n =>
    rw [number_int] at h
    split at h
    · cases h
    · next hn =>
      cases h
      have large : Double.overflow ≤ n.natAbs :=
        Nat.le_of_not_lt fun hlt => hn (Double.isFinite_ofInt.mpr hlt)
      exact .inr ⟨_, .oversize large, rfl⟩
  | text s => exact .inl (isOwnRefusal_of_ofText h)
  | bytes bs =>
    simp only [number] at h
    split at h
    · exact .inl (isOwnRefusal_of_ofText h)
    · cases h
      exact .inl (.coding rfl rfl)
  | byteArray bs =>
    simp only [number] at h
    split at h <;> cases h
    exact .inl (.value rfl rfl)
  | bool | none | list | tuple | semaphore =>
    cases h
    exact .inl (.type rfl rfl)

/-- **A duration that is not taken is rejected.** -/
theorem seconds_error {d : Value} {f : Failure} (h : seconds d = .error f) :
    Rejection .direct d f := by
  rw [seconds] at h
  cases hn : number d with
  | error e =>
    rw [hn] at h
    cases h
    exact number_error hn
  | ok x =>
    rw [hn] at h
    change (if x.isFinite then Except.ok x else .error (Failure.durationUnbounded x)) = _ at h
    split at h <;> cases h
    exact .inl (.value rfl rfl)

/-- What escapes does so: there is no exception without an instance. -/
theorem Escapes.seconds_eq {d : Value} {f : Failure} (h : Escapes d f) : seconds d = .error f := by
  have number : number d = .error f := by
    cases h with
    | @oversize n large =>
      have infinite : ¬(Double.ofInt n).isFinite = true := fun hn =>
        Nat.not_lt_of_le large (Double.isFinite_ofInt.mp hn)
      rw [number_int, if_neg infinite]
    | converting raised value type =>
      show ofObject _ = _
      rw [ofObject, raised]
      show Except.error (unconverted _ _) = _
      rw [unconverted, value, type]
      rfl
    | writing raised value text =>
      show ofObject _ = _
      rw [ofObject, raised]
      show Except.error (unconverted _ _) = _
      rw [unconverted, if_pos value, text]
  rw [seconds, number]
  rfl

end Duration

/-! ## Operations -/

/-- Is an answer one with which the timer counts as started, and what is drawn can be written? -/
def Request.Runs : (r : Request) → r.Answer → Prop
  | .clock, t => t.isZero = false
  | .draw .., a => ∃ digit, Identifier.drawn a = .ok digit
  | .command .., _ | .log _, _ | .connect _, _ => True

namespace Op

variable {α β : Type} {w : Style} {d : Value} {post : Except Failure α → Prop}

/-- Does an operation send nothing and end as `post` says, as long as timer and draws do not
    fail? -/
def Quietly (post : Except Failure α → Prop) (op : Op α) : Prop :=
  ∀ g, (Course.perform op).Always Request.Runs .commands (fun _ => True)
    (fun r g' => g' = g ∧ post r) g

/-- Is an operation rejected, as a duration may be for callers who wait in some style, without having
    sent anything? -/
abbrev Rejects (w : Style) (d : Value) (op : Op α) : Prop :=
  op.Quietly fun r => ∃ f, r = .error f ∧ Duration.Rejection w d f

/-- Has an operation a result, and does it send nothing for it? -/
abbrev Proceeds (op : Op α) : Prop := op.Quietly fun r => ∃ a, r = .ok a

theorem quietly_done {r : Except Failure α} (h : post r) : (done r).Quietly post :=
  fun _ => ⟨trivial, rfl, h⟩

/-- What follows a look at the clock, a draw or a connection decides. -/
theorem quietly_ask {r : Request} {next : r.Answer → Op α} (hr : r.isQuiet = true)
    (h : ∀ a, r.Runs a → (next a).Quietly post) : (ask r next).Quietly post :=
  fun g => Course.always_quiet hr trivial fun a ha => h a ha g

theorem rejects_fail {f : Failure} (h : Duration.Rejection w d f) : (fail f : Op α).Rejects w d :=
  quietly_done ⟨f, rfl, h⟩

theorem Rejects.bind {op : Op α} {f : α → Op β} (h : op.Rejects w d) : (op >>= f).Rejects w d := by
  refine fun g => Course.always_perform_bind ((h g).mono fun r g' _ hr => ?_)
  obtain ⟨hg, e, rfl, he⟩ := hr
  exact ⟨hg, e, rfl, he⟩

theorem Proceeds.bind {op : Op β} {f : β → Op α} (h : op.Proceeds) (hf : ∀ b, (f b).Quietly post) :
    (op >>= f).Quietly post := by
  refine fun g => Course.always_perform_bind ((h g).mono fun r g' _ hr => ?_)
  obtain ⟨rfl, b, rfl⟩ := hr
  exact hf b g'

/-- Where a check refuses, the whole is rejected; else it is what follows that has to be. -/
theorem Rejects.check {x : Except Failure α} {f : α → Op β}
    (herror : ∀ e, x = .error e → e.IsOwnRefusal) (hok : ∀ a, x = .ok a → (f a).Rejects w d) :
    (ofExcept x >>= f).Rejects w d := by
  cases x with
  | error e => exact rejects_fail (.inl (herror e rfl))
  | ok a => exact hok a rfl

/-- Whoever waits for an operation that is rejected is rejected in the style of waiting. -/
theorem Rejects.waitedFor {op : Op α} (h : op.Rejects .direct d) : (op.waitedFor w).Rejects w d := by
  refine fun g => Course.always_waitedFor ((h g).mono fun r g' _ hr => ?_)
  obtain ⟨hg, f, rfl, hf⟩ := hr
  exact ⟨hg, w.raised f, rfl, hf.raised⟩

theorem Proceeds.times {op : Op α} (h : op.Proceeds) : ∀ n, (times n op).Proceeds
  | 0 => quietly_done ⟨_, rfl⟩
  | n + 1 => h.bind fun _ => (Proceeds.times h n).bind fun _ => quietly_done ⟨_, rfl⟩

/-- Whoever runs an operation that is rejected gets the failure, and has sent nothing. -/
theorem Rejects.run {σ : Type} {op : Op α} (h : op.Rejects w d)
    (answer : (r : Request) → σ → r.Answer × σ) (runs : ∀ (r : Request) s, r.Runs (answer r s).1)
    (s : σ) :
    (∃ f, ((Course.perform op).run answer s).result = .error f ∧ Duration.Rejection w d f) ∧
      commands ((Course.perform op).run answer s).events = [] := by
  obtain ⟨sent, rejected⟩ := (h []).run answer runs s
  rw [Ledger.read_commands, List.nil_append] at sent
  exact ⟨rejected, sent⟩

end Op

open Op

/-- What is timed is rejected if it is, since the timer counts as started. -/
theorem rejects_timed {w : Style} {d : Value} {pop : Op (Name × Value)} (h : pop.Rejects w d) :
    (timed pop).Rejects w d := by
  refine quietly_ask rfl fun start hstart g => ?_
  show (Course.perform (pop.attempt >>= _)).Always _ _ _ _ _
  refine Course.always_perform_bind (Course.always_attempt ((h g).mono fun r g' _ hr => ?_))
  obtain ⟨rfl, f, rfl, hf⟩ := hr
  refine quietly_ask rfl (fun stop _ => ?_) g'
  show (ofExcept (stopped start (.error f)) >>= _).Rejects w d
  rw [stopped_of_ne_zero hstart]
  exact rejects_fail hf

/-- A name is minted of draws that give digits. -/
theorem Identifier.proceeds_mint (source : SourceRef) : (mint source).Proceeds := by
  have digit : (digit source).Proceeds := by
    refine quietly_ask rfl fun a ha => ?_
    obtain ⟨digit, drawn⟩ := ha
    exact quietly_done ⟨digit, drawn⟩
  have segment : (segment source).Proceeds := (digit.times _).bind fun _ => quietly_done ⟨_, rfl⟩
  exact (segment.times _).bind fun _ => quietly_done ⟨_, rfl⟩

theorem Semaphore.Options.proceeds_findStore (options : Options) : options.findStore.Proceeds := by
  unfold findStore
  split
  · exact quietly_done ⟨_, rfl⟩
  · rw [ListStore.connect_eq]
    split
    · exact quietly_done ⟨_, rfl⟩
    · exact quietly_ask rfl fun _ _ => quietly_done ⟨_, rfl⟩

section Rejected

variable {d : Value} {f : Failure} (h : Duration.seconds d = .error f)
include h

theorem ListStore.rejects_blockingPop (s : ListStore) (name : Name) :
    (s.blockingPop name d).Rejects s.style d := by
  rw [s.blockingPop_eq, h]
  exact rejects_fail (Duration.seconds_error h).raised

theorem rejects_acquireFrom (s : ListStore) {name : Except Failure Name}
    (hn : ∀ e, name = .error e → e.IsOwnRefusal) : (acquireFrom s name d).Rejects s.style d := by
  rw [acquireFrom_eq]
  refine rejects_timed ?_
  cases name with
  | ok n => exact (s.rejects_blockingPop h n).bind
  | error e =>
    refine rejects_fail (.inl ?_)
    rw [(hn e rfl).raised]
    exact hn e rfl

theorem rejects_acquire (s : ListStore) (name : Name) : (acquire s name d).Rejects s.style d := by
  refine rejects_acquireFrom h s fun e he => ?_
  cases he

namespace Semaphore

theorem rejects_acquire {s : Semaphore} {blocking timeout : Value}
    (hd : s.waitFor blocking timeout = d) : (s.acquire blocking timeout).Rejects s.store.style d := by
  rw [s.acquire_eq, hd]
  exact (Permits.rejects_acquire h s.store s.name).bind

/-- A semaphore is refused for its name, or else it is rejected for its timeout. -/
theorem rejects_create {options : Options} (hd : options.timeout.getD defaultTimeout = d)
    (name : Value) : (create options name).Rejects .direct d := by
  rw [create_eq]
  refine Rejects.check (fun e he => Name.isOwnRefusal_of_check he) fun n _ => ?_
  refine (options.proceeds_findStore).bind fun store => ?_
  rw [Options.bound, hd, Duration.finiteSeconds_error h]
  exact rejects_fail (Duration.seconds_error h)

/-- A fresh name makes no difference to a timeout that is rejected. -/
theorem rejects_mint {options : Options} (hd : options.timeout.getD defaultTimeout = d)
    (source : SourceRef) (value : Value) : (mint options source value).Rejects options.style d := by
  rw [mint_eq]
  refine Rejects.check (fun e he => isOwnRefusal_of_isBelow he) fun negative _ => ?_
  split
  · exact rejects_fail (.inl (.value rfl rfl))
  · exact (Identifier.proceeds_mint source).bind fun name => (rejects_create h hd _).waitedFor.bind

end Semaphore

end Rejected

/-! ## Calls -/

/-- The duration that a call is given: how long its pop may wait, or the timeout of a new
    semaphore. -/
def Call.duration? : Call → Option Value
  | create options _ | mint options _ _ => some (options.timeout.getD Semaphore.defaultTimeout)
  | c => c.demand?.map (·.duration)

/-- How a registered command's callers wait for it. -/
def Registrar.waiting (r : Registrar) (name : Value) : Style :=
  match r.command name with
  | .ok c => c.style
  | .error _ => .direct

/-- How the callers of a call wait that is given a duration: as those of the store do that is to be
    popped from, and those of a new semaphore as they are going to. -/
def Call.waiting : Call → Style
  | blockingPop s .. | acquire s .. => s.style
  | acquirePermit s .. | enter s => s.store.style
  | mint options .. => options.style
  | command r name _ => r.waiting name
  | create .. | push .. | length .. | release .. | value _ | locked _ | releasePermits .. | exit _
  | register .. => .direct

/-- The name that a registered command is to pop from is one that was checked, and its callers wait as
    those of the store do. -/
theorem Registrar.acquire_of_demand {r : Registrar} {name : Value} {args : List Value} {d : Demand}
    (h : r.demand? name args = some d) :
    ∃ store v, r.call name args = acquireFrom store (Name.check v) d.duration ∧
      r.waiting name = store.style := by
  unfold demand? at h
  split at h
  · next c hc =>
    unfold HostCommand.demand? at h
    split at h
    · next store v duration =>
      cases h
      refine ⟨store, v, ?_, ?_⟩
      · rw [call, hc]
        exact HostCommand.run_dec store v duration
      · rw [waiting, hc]
        rfl
    · cases h
  · cases h

/-- **A call is rejected if its duration is.** -/
theorem Call.rejects_of_duration {c : Call} {d : Value} (hc : c.duration? = some d) {f : Failure}
    (h : Duration.seconds d = .error f) : c.op.Rejects c.waiting d := by
  have named : ∀ v e, Name.check v = .error e → e.IsOwnRefusal :=
    fun _ _ => Name.isOwnRefusal_of_check
  cases c with
  | create options name =>
    cases hc
    exact Semaphore.rejects_create h rfl name
  | mint options source value =>
    cases hc
    exact Semaphore.rejects_mint h rfl source value
  | blockingPop s name timeout =>
    cases hc
    rw [op_blockingPop]
    exact Rejects.check (named name) fun n _ => s.rejects_blockingPop h n
  | acquire s name duration =>
    cases hc
    exact rejects_acquireFrom h s (named name)
  | acquirePermit s blocking timeout =>
    cases hc
    exact Semaphore.rejects_acquire h rfl
  | enter s =>
    cases hc
    show s.enter.Rejects _ _
    rw [s.enter_eq]
    exact (Semaphore.rejects_acquire h rfl).bind
  | command r name args =>
    change (r.demand? name args).map (·.duration) = some d at hc
    obtain ⟨demand, hdemand, rfl⟩ := Option.map_eq_some_iff.mp hc
    obtain ⟨store, v, hcall, hstyle⟩ := Registrar.acquire_of_demand hdemand
    show (r.call name args).Rejects (r.waiting name) _
    rw [hcall, hstyle]
    exact rejects_acquireFrom h store (named v)
  | push | length | release | value | locked | releasePermits | exit | register => cases hc

/-- **A duration is taken for a finite number, or it is rejected wherever it is given.**  Whatever is
    rejected is refused by a value error or a type error, unless it is one of what escapes; and a call
    that is given it fails so as well, before anything is sent. -/
theorem Duration.settled (d : Value) :
    (∃ x, seconds d = .ok x ∧ x.isFinite = true) ∨
    ((∃ f, seconds d = .error f ∧ (f.IsRefusal ∨ Escapes d f)) ∧
      ∀ {σ : Type} (answer : (r : Request) → σ → r.Answer × σ),
        (∀ (r : Request) s, r.Runs (answer r s).1) → ∀ c : Call, c.duration? = some d → ∀ s,
          (∃ f, ((Course.perform c.op).run answer s).result = .error f ∧
            (f.IsRefusal ∨ ∃ e, Escapes d e ∧ f = c.waiting.raised e)) ∧
          commands ((Course.perform c.op).run answer s).events = []) := by
  have known {w : Style} {f : Failure} (h : Rejection w d f) :
      f.IsRefusal ∨ ∃ e, Escapes d e ∧ f = w.raised e := h.imp_left fun own => own.2
  cases h : seconds d with
  | ok x => exact .inl ⟨x, rfl, isFinite_of_seconds h⟩
  | error f =>
    refine .inr ⟨⟨f, rfl, (known (seconds_error h)).imp_right ?_⟩, fun answer runs c hc s => ?_⟩
    · rintro ⟨e, escapes, rfl⟩
      exact escapes
    · obtain ⟨⟨g, result, rejected⟩, sent⟩ := (c.rejects_of_duration hc h).run answer runs s
      exact ⟨⟨g, result, known rejected⟩, sent⟩

/-- The exception is there: the least integer that is too large for a number is not refused. -/
theorem Duration.not_always_refused :
    ¬∀ d, (∃ x, seconds d = .ok x ∧ x.isFinite = true) ∨
      ∃ f, seconds d = .error f ∧ f.IsRefusal := by
  have large : Double.overflow ≤ (Double.overflow : Int).natAbs := Nat.le_of_eq (Int.natAbs_natCast _).symm
  have raised := (Escapes.oversize large).seconds_eq
  intro all
  rcases all _ with ⟨x, hx, _⟩ | ⟨f, hf, refusal⟩
  · cases raised.symm.trans hx
  · cases raised.symm.trans hf
    have other : ¬(Failure.durationTooLarge.isA "ValueError" = true ∨
        Failure.durationTooLarge.isA "TypeError" = true) := by decide +kernel
    exact other refusal

end Permits
