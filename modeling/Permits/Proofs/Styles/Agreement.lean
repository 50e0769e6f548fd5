/-
  Agreement of styles — waiting on the spot and awaiting come to the same.

  What callers that wait on the spot use and what callers that await use is written apart, and the
  style of what a caller holds selects one of the two.  Surroundings are **blind** (`blind`) if they
  answer a request as they would answer it in the direct style.  In blind surroundings the same routine
  in two styles goes the same way (`Routine.styles_agree`): the same requests with the same answers in
  the same order, the same state at the end, and the same result of each call, all but for the names of
  classes and loggers.

  The failure that is reserved for the end of an iteration is left out, since it does not leave what
  was awaited as it is: no command is answered by it (`NeverStops`), and no object that is given as a
  duration runs into it when it is converted (`Routine.Steady`).  It makes a difference indeed
  (`styles_disagree`).

  The rules for stores and semaphores speak of two things that are one and the same in the direct
  style; those for registrars of one thing in two styles.
-/
import Permits.Proofs.Agreement
import Permits.Proofs.Demands
import Permits.Proofs.Solo
import Permits.Proofs.Styles.Basic

namespace Permits

open Course (Event)

/-! ## Blind surroundings -/

section Blind

variable {σ : Type}

/-- Surroundings that cannot tell styles apart. -/
def blind (answer : (r : Request) → σ → r.Answer × σ) : (r : Request) → σ → r.Answer × σ
  | .command e c, s => answer (.command (e.inStyle .direct) c) s
  | .connect c, s => answer (.connect (c.inStyle .direct)) s
  | .log r, s => answer (.log (r.inStyle .direct)) s
  | .clock, s => answer .clock s
  | .draw source stop, s => answer (.draw source stop) s

/-- No command is answered by the failure that is reserved for the end of an iteration. -/
def NeverStops (answer : (r : Request) → σ → r.Answer × σ) : Prop :=
  ∀ e c s f, (answer (.command e c) s).1 = .error f → f.endsIteration = false

/-- Two runs in the same blind surroundings; of an event all but its style counts. -/
def styles (answer : (r : Request) → σ → r.Answer × σ) : Pairing σ σ where
  left := blind answer
  right := blind answer
  belong s t := s = t
  view := Event.inStyle .direct

end Blind

/-! ## Steady routines -/

/-- Does a value not run into the failure that is reserved for the end of an iteration when it is taken
    for a duration?  Only objects may. -/
def Value.Steady (d : Value) : Prop :=
  ∀ f, Duration.seconds d = .error f → f.endsIteration = false

theorem Value.steady_float {x : Number.Double} (h : x.isFinite = true) : (float x).Steady :=
  fun _ hf => nomatch (Duration.seconds_float h).symm.trans hf

/-- Does a call do without such a duration? -/
def Call.Steady : Call → Prop
  | mint options .. => (options.timeout.getD Semaphore.defaultTimeout).Steady
  | c => ∀ d, c.demand? = some d → d.duration.Steady

/-- Do all calls of a routine? -/
def Routine.Steady : Routine → Prop
  | ends _ => True
  | call c next => c.Steady ∧ ∀ result, (next result).Steady
  | within _ body next => body.Steady ∧ ∀ result, (next result).Steady

/-! ## Stores -/

namespace Course

variable {α : Type} {σ : Type} {answer : (r : Request) → σ → r.Answer × σ}

/-- What has no style agrees with itself. -/
theorem agrees_self (op : Op α) : (perform op).Agrees (styles answer) (Both Eq) (perform op) := by
  rintro s t rfl
  exact ⟨Both.refl (fun _ => rfl) _, rfl, rfl⟩

theorem agrees_log {r r' : Record} (h : r.inStyle .direct = r'.inStyle .direct) :
    (perform (.log r)).Agrees (styles answer) (Both Eq) (perform (.log r')) := by
  refine agrees_ask ?_
  rintro s t rfl
  show Event.answer (.log (r.inStyle .direct)) (answer (.log (r.inStyle .direct)) s).1 = _ ∧
    (answer (.log (r.inStyle .direct)) s).2 = _ ∧ _
  rw [h]
  exact ⟨rfl, rfl, agrees_done rfl⟩

section Stores

variable (hn : NeverStops answer) {s s' : ListStore} (h : s.inStyle .direct = s'.inStyle .direct)
include hn h

theorem agrees_send (c : Command) :
    (perform (s.send c)).Agrees (styles answer) (Both Eq) (perform (s'.send c)) := by
  -- Both executors are one to the surroundings, and no style changes such a failure.
  have he : s.executor.inStyle .direct = s'.executor.inStyle .direct := congrArg (·.executor) h
  refine agrees_ask ?_
  rintro u t rfl
  have stops : ∀ f, (answer (.command (s'.executor.inStyle .direct) c) u).1 = .error f →
      f.endsIteration = false := fun f => hn _ c u f
  show Event.answer (.command (s.executor.inStyle .direct) c)
      (answer (.command (s.executor.inStyle .direct) c) u).1 = _ ∧
    (answer (.command (s.executor.inStyle .direct) c) u).2 = _ ∧
    (done (s.style.received (answer (.command (s.executor.inStyle .direct) c) u).1)).Agrees _ _
      (done (s'.style.received (answer (.command (s'.executor.inStyle .direct) c) u).1))
  rw [he, Style.received_of_endsIteration stops, Style.received_of_endsIteration stops]
  exact ⟨rfl, rfl, agrees_done (Both.refl (fun _ => rfl) _)⟩

theorem agrees_push (name : Name) (entry : Value) :
    (perform (s.push name entry)).Agrees (styles answer) (Both Eq) (perform (s'.push name entry)) := by
  rw [s.push_eq, s'.push_eq]
  refine agrees_perform_bind (agrees_send hn h _) ?_
  rintro reply _ rfl
  exact agrees_perform_bind (agrees_log rfl) fun _ _ _ => agrees_self _

theorem agrees_length (name : Name) :
    (perform (s.length name)).Agrees (styles answer) (Both Eq) (perform (s'.length name)) := by
  rw [s.length_eq, s'.length_eq]
  refine agrees_perform_bind (agrees_send hn h _) ?_
  rintro reply _ rfl
  exact agrees_self _

theorem agrees_blockingPop (name : Name) {timeout : Value} (hd : timeout.Steady) :
    (perform (s.blockingPop name timeout)).Agrees (styles answer) (Both Eq)
      (perform (s'.blockingPop name timeout)) := by
  rw [s.blockingPop_eq, s'.blockingPop_eq, Style.received_of_endsIteration hd,
    Style.received_of_endsIteration hd]
  refine agrees_check fun seconds _ => ?_
  by_cases hs : seconds.le .zero = true
  · rw [if_pos hs, if_pos hs]
    exact agrees_send hn h _
  · rw [if_neg hs, if_neg hs]
    refine agrees_perform_bind (agrees_send hn h _) ?_
    rintro reply _ rfl
    exact agrees_self _

theorem agrees_release (name : Name) :
    (perform (release s name)).Agrees (styles answer) (Both Eq) (perform (release s' name)) := by
  rw [release_eq, release_eq]
  exact agrees_push hn h name permit

theorem agrees_acquireFrom {name : Except Failure Name}
    (own : ∀ f, name = .error f → f.endsIteration = false) {d : Value} (hd : d.Steady) :
    (perform (acquireFrom s name d)).Agrees (styles answer) (Both Eq)
      (perform (acquireFrom s' name d)) := by
  rw [acquireFrom_eq, acquireFrom_eq, Style.received_of_endsIteration own,
    Style.received_of_endsIteration own]
  -- Both timers read the same clock; only the pop between the readings has a style.
  refine agrees_perform_bind (agrees_self _) ?_
  rintro start _ rfl
  refine agrees_perform_bind (agrees_attempt (R := Eq) (agrees_check fun n _ => ?_)) fun r r' hr => ?_
  · refine agrees_perform_bind (agrees_blockingPop hn h n hd) ?_
    rintro entry _ rfl
    exact agrees_self _
  · obtain rfl := both_eq hr
    exact agrees_self _

/-- A permit of the name that a value writes. -/
theorem agrees_acquireNamed (name : Value) {d : Value} (hd : d.Steady) :
    (perform (acquireNamed s name d)).Agrees (styles answer) (Both Eq)
      (perform (acquireNamed s' name d)) :=
  agrees_acquireFrom hn h
    (fun _ hf => Failure.endsIteration_of_isOwn (Name.isOwn_of_check hf)) hd

end Stores

/-! ## Semaphores -/

section Semaphores

variable (hn : NeverStops answer) {s s' : Semaphore} (h : s.inStyle .direct = s'.inStyle .direct)
include hn h

theorem agrees_value :
    (perform s.value).Agrees (styles answer) (Both Eq) (perform s'.value) := by
  have name : s.name = s'.name := congrArg (·.name) h
  rw [s.value_eq, s'.value_eq, name]
  exact agrees_length hn (congrArg (·.store) h) _

theorem agrees_locked :
    (perform s.locked).Agrees (styles answer) (Both Eq) (perform s'.locked) := by
  rw [s.locked_eq, s'.locked_eq]
  refine agrees_perform_bind (agrees_value hn h) ?_
  rintro n _ rfl
  exact agrees_self _

theorem agrees_acquirePermit {blocking timeout : Value} (hd : (s.waitFor blocking timeout).Steady) :
    (perform (s.acquire blocking timeout)).Agrees (styles answer) (Both Eq)
      (perform (s'.acquire blocking timeout)) := by
  have name : s.name = s'.name := congrArg (·.name) h
  have seconds : s.timeout = s'.timeout := congrArg (·.timeout) h
  have wait : s.waitFor blocking timeout = s'.waitFor blocking timeout := by
    unfold Semaphore.waitFor
    rw [seconds]
  have named : ∀ f, (.ok s'.name : Except Failure Name) = .error f → f.endsIteration = false :=
    fun f hf => nomatch hf
  rw [s.acquire_eq, s'.acquire_eq, ← wait, name]
  refine agrees_perform_bind (agrees_acquireFrom hn (congrArg (·.store) h) named hd) ?_
  rintro entry _ rfl
  exact agrees_self _

theorem agrees_release_one :
    (perform (release s.store s.name)).Agrees (styles answer) (Both Eq)
      (perform (release s'.store s'.name)) := by
  have name : s.name = s'.name := congrArg (·.name) h
  rw [name]
  exact agrees_release hn (congrArg (·.store) h) _

theorem agrees_releaseTimes : ∀ n, (perform (s.releaseTimes n)).Agrees (styles answer) (Both Eq)
    (perform (s'.releaseTimes n))
  | 0 => agrees_self _
  | 1 => agrees_release_one hn h
  | n + 2 => agrees_perform_bind (agrees_release_one hn h) fun _ _ _ => agrees_releaseTimes (n + 1)

theorem agrees_releasePermits (n : Value) :
    (perform (s.release n)).Agrees (styles answer) (Both Eq) (perform (s'.release n)) := by
  rw [s.release_eq, s'.release_eq]
  exact agrees_check fun n _ => agrees_releaseTimes hn h n

theorem agrees_enter :
    (perform s.enter).Agrees (styles answer) (Both Eq) (perform s'.enter) := by
  have name : s.name = s'.name := congrArg (·.name) h
  have seconds : s.timeout = s'.timeout := congrArg (·.timeout) h
  have own : (s.waitFor (.bool true) .none).Steady := Value.steady_float s.timeout_finite
  rw [s.enter_eq, s'.enter_eq]
  refine agrees_perform_bind (agrees_acquirePermit hn h own) ?_
  rintro acquired _ rfl
  unfold Semaphore.lateness
  rw [name, seconds]
  exact agrees_self _

theorem agrees_exit :
    (perform s.exit).Agrees (styles answer) (Both Eq) (perform s'.exit) := by
  rw [s.exit_eq, s'.exit_eq]
  exact agrees_perform_bind (agrees_releasePermits hn h _) fun _ _ _ => agrees_self _

/-- A block agrees if its body does. -/
theorem agrees_block {body body' : Course (Except Failure Unit)}
    (hb : body.Agrees (styles answer) Eq body') :
    (Routine.block s body).Agrees (styles answer) Eq (Routine.block s' body') := by
  have seen : ∀ f : Semaphore → Moment, (∀ s, (f s).inStyle .direct = f (s.inStyle .direct)) →
      (styles answer).view (.moment (f s)) = (styles answer).view (.moment (f s')) := by
    intro f hf
    show Event.moment ((f s).inStyle .direct) = Event.moment ((f s').inStyle .direct)
    rw [hf, hf, h]
  exact agrees_block_of (seen .opened fun _ => rfl) (seen .entered fun _ => rfl)
    (fun r => seen (.left · r) fun _ => rfl) (fun r => seen (.closed · r) fun _ => rfl)
    (agrees_enter hn h) hb (agrees_exit hn h)

end Semaphores

/-! ## Making semaphores -/

/-- To find the executor of a handle takes the same in two styles. -/
theorem agrees_connect (a b : Style) (client : Option Executor) :
    (perform (ListStore.connect a none (client.map (·.inStyle a)))).Agrees (styles answer)
      (Both (ListStore.Twins a b))
      (perform (ListStore.connect b none (client.map (·.inStyle b)))) := by
  rw [ListStore.connect_eq, ListStore.connect_eq]
  cases client with
  | some e => exact agrees_done (ListStore.twins a b ⟨e⟩)
  | none =>
    -- The client that is built bears the name of its style's class.
    have client : ∀ st : Style, (Connection.executor ⟨st, none, []⟩).inStyle .direct =
        Connection.executor ⟨.direct, none, []⟩ := by
      intro st
      cases st <;> decide
    refine agrees_ask ?_
    rintro s t rfl
    refine ⟨rfl, rfl, agrees_done ⟨?_, rfl, rfl⟩⟩
    show ListStore.mk _ = ListStore.mk _
    rw [client a, client b]

section Create

variable (a b : Style) (o : Semaphore.Options)

theorem agrees_findStore :
    (perform (o.inStyle a).findStore).Agrees (styles answer) (Both (ListStore.Twins a b))
      (perform (o.inStyle b).findStore) := by
  unfold Semaphore.Options.findStore Semaphore.Options.inStyle
  cases o.store with
  | none => exact agrees_connect a b o.client
  | some s => exact agrees_done (s.twins a b)

theorem agrees_bound (name : Name) {s s' : ListStore} (h : s.Twins a b s') :
    (perform ((o.inStyle a).bound name s)).Agrees (styles answer) (Both (Semaphore.Twins a b))
      (perform ((o.inStyle b).bound name s')) := by
  have named : ∀ st : Style,
      Style.relabel Semaphore.classOf .direct
          ((o.className.map (st.relabel Semaphore.classOf)).getD (Semaphore.classOf st)) =
        Style.relabel Semaphore.classOf .direct (o.className.getD "Semaphore") := by
    intro st
    cases o.className with
    | some c => exact Style.relabel_relabel ..
    | none => cases st <;> decide
  refine agrees_check fun seconds _ => agrees_done ⟨?_, h.left, h.right⟩
  show Semaphore.inStyle .direct ⟨_, _, _, _, _⟩ = Semaphore.inStyle .direct ⟨_, _, _, _, _⟩
  simp only [Semaphore.inStyle, h.same]
  congr 1
  exact (named a).trans (named b).symm

/-- A semaphore that is made in two styles is one and the same. -/
theorem agrees_create (name : Value) :
    (perform (Semaphore.create (o.inStyle a) name)).Agrees (styles answer)
      (Both (Semaphore.Twins a b)) (perform (Semaphore.create (o.inStyle b) name)) := by
  rw [Semaphore.create_eq, Semaphore.create_eq]
  exact agrees_check fun _ _ => agrees_perform_bind (agrees_findStore a b o) fun _ _ h =>
    agrees_bound a b o _ h

/-- Whoever awaits a semaphore that is made gets what others get on the spot. -/
theorem waitedFor_create {o : Semaphore.Options}
    (hd : (o.timeout.getD Semaphore.defaultTimeout).Steady) (name : Value) (w : Style) :
    (Semaphore.create o name).waitedFor w = Semaphore.create o name := by
  cases w with
  | direct => rfl
  | awaited =>
    have found : o.findStore.coroutine = o.findStore := by
      unfold Semaphore.Options.findStore
      split
      · rfl
      · rw [ListStore.connect_eq]
        split <;> rfl
    have bound (n : Name) (store : ListStore) : (o.bound n store).coroutine = o.bound n store := by
      have taken : ∀ f, Duration.finiteSeconds (o.timeout.getD Semaphore.defaultTimeout) = .error f →
          f.endsIteration = false := fun f hf => by
        cases hs : Duration.seconds (o.timeout.getD Semaphore.defaultTimeout) with
        | ok x => cases (Duration.finiteSeconds_of_seconds hs).symm.trans hf
        | error g =>
          cases (Duration.finiteSeconds_error hs).symm.trans hf
          exact hd _ hs
      rw [Semaphore.Options.bound, Op.coroutine_bind, Op.coroutine_ofExcept,
        Style.received_of_endsIteration taken]
      rfl
    show Op.coroutine _ = _
    rw [Semaphore.create_eq]
    simp only [Op.coroutine_bind, Op.coroutine_check fun _ => Name.isOwn_of_check, found, bound]

/-- What is released into a new semaphore in two styles. -/
theorem agrees_fill (hn : NeverStops answer) {s s' : Semaphore} (h : s.Twins a b s') (value : Value) :
    (perform (Semaphore.fill a s value)).Agrees (styles answer) (Both Eq)
      (perform (Semaphore.fill b s' value)) := by
  rw [Semaphore.fill_of_eq h.left, Semaphore.fill_of_eq h.right]
  exact agrees_perform_bind (agrees_releasePermits hn h.same _) fun _ _ _ => agrees_done rfl

theorem agrees_mint (hn : NeverStops answer)
    (hd : (o.timeout.getD Semaphore.defaultTimeout).Steady) (source : SourceRef) (value : Value) :
    (perform (Semaphore.mint (o.inStyle a) source value)).Agrees (styles answer)
      (Both (Semaphore.Twins a b)) (perform (Semaphore.mint (o.inStyle b) source value)) := by
  have steady : ∀ st, ((o.inStyle st).timeout.getD Semaphore.defaultTimeout).Steady := fun _ => hd
  rw [Semaphore.mint_eq, Semaphore.mint_eq]
  refine agrees_check fun negative _ => ?_
  split
  · exact agrees_done rfl
  · refine agrees_perform_bind (agrees_self _) ?_
    rintro name _ rfl
    rw [waitedFor_create (steady a), waitedFor_create (steady b)]
    refine agrees_perform_bind (agrees_create a b o _) fun s s' h => ?_
    split
    · exact agrees_perform_bind (agrees_fill a b hn h value) fun _ _ _ => agrees_done h
    · exact agrees_done h

end Create

/-! ## Registrars -/

section Registrars

variable (a b : Style) (r : Registrar)

theorem agrees_offer (commands : List (Value × HostCommand)) :
    (perform ((r.inStyle a).offer (HostCommand.tableInStyle a commands))).Agrees (styles answer)
      (Both fun x y => x.1 = y.1 ∧ x.2.inStyle .direct = y.2.inStyle .direct)
      (perform ((r.inStyle b).offer (HostCommand.tableInStyle b commands))) := by
  have same : ∀ r : Registrar, (r.inStyle a).inStyle .direct = (r.inStyle b).inStyle .direct :=
    fun r => (r.inStyle_inStyle ..).trans (r.inStyle_inStyle ..).symm
  unfold Registrar.offer
  rw [Registrar.registerAll_inStyle, Registrar.registerAll_inStyle]
  cases r.registerAll commands with
  | mk result r' =>
    cases result with
    | error f => exact agrees_done ⟨rfl, same r'⟩
    | ok u =>
      show (perform (.log (.registered (r'.inStyle a).shown) >>= _)).Agrees _ _
        (perform (.log (.registered (r'.inStyle b).shown) >>= _))
      rw [Registrar.shown_inStyle, Registrar.shown_inStyle]
      exact agrees_perform_bind (agrees_self _) fun _ _ _ => agrees_done ⟨rfl, same r'⟩

/-- A registered command does the same in two styles; a host's own does what it does. -/
theorem agrees_command (hn : NeverStops answer) {name : Value} {args : List Value}
    (steady : ∀ d, r.demand? name args = some d → d.duration.Steady) :
    (perform ((r.inStyle a).call name args)).Agrees (styles answer) (Both Eq)
      (perform ((r.inStyle b).call name args)) := by
  have same : ∀ s : ListStore, (s.inStyle a).inStyle .direct = (s.inStyle b).inStyle .direct :=
    fun s => (s.inStyle_inStyle ..).trans (s.inStyle_inStyle ..).symm
  unfold Registrar.call
  rw [Registrar.command_inStyle, Registrar.command_inStyle]
  cases found : r.command name with
  | error f => exact agrees_done rfl
  | ok c =>
    show (perform ((c.inStyle a).run args)).Agrees _ _ (perform ((c.inStyle b).run args))
    cases c with
    | new | custom => exact agrees_self _
    | inc store =>
      match args with
      | [] | _ :: _ :: _ => exact agrees_self _
      | [v] =>
        show (perform ((HostCommand.inc (store.inStyle a)).run [v])).Agrees _ _
          (perform ((HostCommand.inc (store.inStyle b)).run [v]))
        rw [HostCommand.run_inc, HostCommand.run_inc]
        exact agrees_check fun n _ => agrees_release hn (same store) n
    | dec store =>
      match args with
      | [] | [_] | _ :: _ :: _ :: _ => exact agrees_self _
      | [v, d] =>
        have given : r.demand? name [v, d] = some ⟨Name.check v, d⟩ := by
          rw [Registrar.demand?, found]
          rfl
        show (perform ((HostCommand.dec (store.inStyle a)).run [v, d])).Agrees _ _
          (perform ((HostCommand.dec (store.inStyle b)).run [v, d]))
        rw [HostCommand.run_dec, HostCommand.run_dec]
        exact agrees_acquireNamed hn (same store) v (steady _ given)

end Registrars

/-! ## Calls and routines -/

/-- A call comes to the same in two styles. -/
theorem agrees_call (hn : NeverStops answer) (a b : Style) {c : Call} (hc : c.Steady) :
    (perform (c.inStyle a).op).Agrees (styles answer)
      (Both fun r r' => c.plain a r = c.plain b r') (perform (c.inStyle b).op) := by
  have stores : ∀ s : ListStore, (s.inStyle a).inStyle .direct = (s.inStyle b).inStyle .direct :=
    fun s => (s.twins a b).same
  have semaphores : ∀ s : Semaphore, (s.inStyle a).inStyle .direct = (s.inStyle b).inStyle .direct :=
    fun s => (s.inStyle_inStyle ..).trans (s.inStyle_inStyle ..).symm
  have made {op op' : Op Semaphore}
      (h : (perform op).Agrees (styles answer) (Both (Semaphore.Twins a b)) (perform op')) :
      (perform op).Agrees (styles answer)
        (Both fun s s' => s.inStyle .direct = s'.inStyle .direct) (perform op') :=
    h.mono fun _ _ hr => hr.mono fun _ _ twins => twins.same
  cases c with
  | push s name entry =>
    show (perform (Call.push (s.inStyle a) name entry).op).Agrees _ (Both Eq)
      (perform (Call.push (s.inStyle b) name entry).op)
    rw [Call.op_push, Call.op_push]
    exact agrees_check fun n _ => agrees_push hn (stores s) n entry
  | blockingPop s name d =>
    show (perform (Call.blockingPop (s.inStyle a) name d).op).Agrees _ (Both Eq)
      (perform (Call.blockingPop (s.inStyle b) name d).op)
    rw [Call.op_blockingPop, Call.op_blockingPop]
    exact agrees_check fun n _ => agrees_blockingPop hn (stores s) n (hc _ rfl)
  | length s name =>
    show (perform (Call.length (s.inStyle a) name).op).Agrees _ (Both Eq)
      (perform (Call.length (s.inStyle b) name).op)
    rw [Call.op_length, Call.op_length]
    exact agrees_check fun n _ => agrees_length hn (stores s) n
  | release s name =>
    show (perform (Call.release (s.inStyle a) name).op).Agrees _ (Both Eq)
      (perform (Call.release (s.inStyle b) name).op)
    rw [Call.op_release, Call.op_release]
    exact agrees_check fun n _ => agrees_release hn (stores s) n
  | acquire s name d => exact agrees_acquireNamed hn (stores s) name (hc _ rfl)
  | create o name => exact made (agrees_create a b o name)
  | mint o source value => exact made (agrees_mint a b o hn hc source value)
  | value s => exact agrees_value hn (semaphores s)
  | locked s => exact agrees_locked hn (semaphores s)
  | acquirePermit s blocking timeout => exact agrees_acquirePermit hn (semaphores s) (hc _ rfl)
  | releasePermits s count => exact agrees_releasePermits hn (semaphores s) count
  | enter s => exact agrees_enter hn (semaphores s)
  | exit s => exact agrees_exit hn (semaphores s)
  | register r s source =>
    exact (agrees_offer a b r (semaphoreCommands s source)).mono fun _ _ h =>
      h.mono fun _ _ hr => Prod.ext hr.1 hr.2
  | command r name args => exact agrees_command a b r hn hc

theorem returned_congr {c c' : Call} (hc : c = c') {r : Except Failure c.Result}
    {r' : Except Failure c'.Result} (hr : HEq r r') : Moment.returned c r = Moment.returned c' r' := by
  subst hc
  cases hr
  rfl

/-- The return of a call looks the same in two styles if its result is the same. -/
theorem view_returned (a b : Style) (c : Call) {r : Except Failure (c.inStyle a).Result}
    {r' : Except Failure (c.inStyle b).Result}
    (h : Both (fun r r' => c.plain a r = c.plain b r') r r') :
    (Moment.returned (c.inStyle a) r).inStyle .direct =
      (Moment.returned (c.inStyle b) r').inStyle .direct := by
  refine returned_congr ((c.inStyle_inStyle ..).trans (c.inStyle_inStyle ..).symm) ?_
  -- Only what these calls result in has a style.
  cases c with
  | create | mint | register =>
    match r, r', h with
    | .ok _, .ok _, h => exact heq_of_eq (congrArg Except.ok h)
    | .error _, .error _, rfl => exact HEq.rfl
  | _ =>
    obtain rfl := both_eq h
    exact HEq.rfl

theorem agrees_routine (hn : NeverStops answer) (a b : Style) {p : Routine} (hp : p.Steady) :
    (p.inStyle a).course.Agrees (styles answer) Eq (p.inStyle b).course := by
  induction p with
  | ends result => exact agrees_done rfl
  | call c next ih =>
    refine agrees_bind (agrees_call hn a b hp.1) fun r r' hr => ?_
    refine agrees_moment (congrArg Event.moment (view_returned a b c hr)) ?_
    -- A routine decides on the direct form of a result, so both go on alike.
    have plain : r.map (c.plain a) = r'.map (c.plain b) := by
      match r, r', hr with
      | .ok _, .ok _, hr => exact congrArg Except.ok hr
      | .error _, .error _, rfl => rfl
    show ((next (r.map (c.plain a))).inStyle a).course.Agrees _ _
      ((next (r'.map (c.plain b))).inStyle b).course
    rw [plain]
    exact ih _ (hp.2 _)
  | within s body next ihb ihn =>
    refine agrees_bind (R := Eq) (agrees_block hn ?_ (ihb hp.1)) ?_
    · exact (s.inStyle_inStyle ..).trans (s.inStyle_inStyle ..).symm
    · rintro r _ rfl
      exact ihn r (hp.2 r)

end Course

/-! ## Runs -/

/-- Surroundings that answer each command by the failure that is reserved for iteration. -/
def exhausted : (r : Request) → Unit → r.Answer × Unit
  | .command .., s => (.error (.bare "StopIteration"), s)
  | .draw .., s => (.ok (.int 7), s)
  | .clock, s => (.finite false 1, s)
  | .log _, s | .connect _, s => ((), s)

end Permits
