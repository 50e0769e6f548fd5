/-
  Timeouts — it does not matter where a timeout is named.

  A semaphore is made with a timeout, or each acquire names one, or a caller acquires without any
  semaphore.  A semaphore keeps its timeout in seconds, so one route reads a duration twice and the
  others read it once.

  1. **Seconds** (`Duration.seconds_float`): seconds are a duration themselves, and come to
     themselves.
  2. **Acquires** (`acquire_of_seconds`): an acquire looks at nothing of its duration but the seconds.
     So by each route it is one and the same operation (`Semaphore.acquire_eq_of_seconds`).
  3. **Blocks** (`Semaphore.run_enter`): to enter a block is to acquire with the semaphore's own timeout,
     and what the acquire comes to decides whether there is a body.

  The routes are compared as operations, so `Semaphore.timeouts_agree` holds in any surroundings.
-/
import Permits.Proofs.Requests
import Permits.Proofs.Solo

namespace Permits

open Number
open Course (Event Run perform)

/-! ## Operations -/

/-- **An acquire looks at nothing of its duration but the seconds.** -/
theorem acquire_of_seconds {d d' : Value} (h : Duration.seconds d = Duration.seconds d')
    (store : ListStore) (name : Name) : acquire store name d = acquire store name d' := by
  have pop : store.blockingPop name d = store.blockingPop name d' := by
    rw [store.blockingPop_eq, h, store.blockingPop_eq]
  rw [acquire_eq, acquire_eq, pop]

/-- An operation passes no moments. -/
theorem Course.moment_notMem_run {α σ : Type} (answer : (r : Request) → σ → r.Answer × σ)
    (op : Op α) (m : Moment) (t : σ) : Event.moment m ∉ ((perform op).run answer t).events := by
  induction op generalizing t with
  | done result => exact List.not_mem_nil
  | ask r next ih =>
    intro h
    rcases List.mem_cons.mp h with h | h
    · cases h
    · exact ih _ _ h

namespace Semaphore

variable {σ : Type} {answer : (r : Request) → σ → r.Answer × σ} {s : Semaphore}

/-! ## Acquires -/

/-- The options with a store, whose callers wait in its style, and with a timeout. -/
def Options.on (options : Options) (store : ListStore) (timeout : Value) : Options :=
  { options with style := store.style, store := some store, timeout := some timeout }

/-- A semaphore of a valid name with a valid timeout is made at once, and keeps its timeout in
    seconds. -/
theorem create_on (options : Options) (store : ListStore) {name d : Value} {n : Name} {x : Double}
    (named : Name.check name = .ok n) (taken : Duration.seconds d = .ok x) :
    ∃ s : Semaphore, create (options.on store d) name = pure s ∧
      s.name = n ∧ s.store = store ∧ s.timeout = x := by
  refine ⟨⟨n, store, x, options.className.getD (classOf store.style),
    Duration.isFinite_of_seconds taken⟩, ?_, rfl, rfl, rfl⟩
  rw [create_eq, named]
  show Options.bound (options.on store d) n store = _
  rw [Options.bound]
  show (Op.ofExcept (Duration.finiteSeconds d) >>= _) = _
  rw [Duration.finiteSeconds_of_seconds taken]
  rfl

/-- **An acquire with a duration, by argument or by default, is the acquire without a semaphore.** -/
theorem acquire_eq_of_seconds {timeout d : Value}
    (h : Duration.seconds (s.waitFor (.bool true) timeout) = Duration.seconds d) :
    s.acquire (.bool true) timeout =
      Permits.acquire s.store s.name d >>= fun entry => pure (isEntry entry) := by
  rw [s.acquire_eq, acquire_of_seconds h]

/-- What a caller names is what it waits for, if it names anything. -/
theorem waitFor_of_ne_none {timeout : Value} (h : timeout ≠ .none) :
    s.waitFor (.bool true) timeout = timeout := by
  cases timeout with
  | none => exact absurd rfl h
  | _ => rfl

/-! ## Blocks -/

/-- How entering a block ends once its acquire has ended. -/
def entering (s : Semaphore) : Except Failure Bool → Except Failure Unit
  | .ok true => .ok ()
  | .ok false => .error s.lateness
  | .error f => .error f

/-- To enter a block is to acquire with the semaphore's own timeout. -/
theorem run_enter (s : Semaphore) (t : σ) :
    (perform s.enter).run answer t =
      let own := (perform (s.acquire (.bool true) .none)).run answer t
      { own with result := s.entering own.result } := by
  rw [s.enter_eq, Course.run_perform_bind]
  generalize (perform (s.acquire (.bool true) .none)).run answer t = own
  obtain ⟨events, result, state⟩ := own
  match result with
  | .ok true | .ok false => exact congrArg (Run.mk · _ _) (List.append_nil events)
  | .error f => rfl

/-- The run of a block that is not entered, after an acquire in vain. -/
def missed (s : Semaphore) (tried : Run σ (Except Failure Bool)) (f : Failure) :
    Run σ (Except Failure Unit) :=
  ⟨.moment (.opened s) :: (tried.events ++ [.moment (.closed s (.error f))]), .error f, tried.state⟩

variable {body : Course (Except Failure Unit)} {t : σ}

theorem run_block_of_error {f : Failure}
    (h : s.entering ((perform (s.acquire (.bool true) .none)).run answer t).result = .error f) :
    (Routine.block s body).run answer t =
      s.missed ((perform (s.acquire (.bool true) .none)).run answer t) f := by
  rw [Course.run_block, Course.run_bind, run_enter]
  generalize (perform (s.acquire (.bool true) .none)).run answer t = own at h ⊢
  obtain ⟨events, result, state⟩ := own
  match result, h with
  | .ok false, h | .error e, h =>
    cases h
    rfl

theorem events_block_of_ok
    (h : ((perform (s.acquire (.bool true) .none)).run answer t).result = .ok true) :
    ∃ rest, ((Routine.block s body).run answer t).events = .moment (.opened s) ::
      (((perform (s.acquire (.bool true) .none)).run answer t).events ++ .moment (.entered s) ::
        ((body.run answer ((perform (s.acquire (.bool true) .none)).run answer t).state).events ++
          rest)) := by
  rw [Course.run_block, Course.run_bind, run_enter]
  generalize (perform (s.acquire (.bool true) .none)).run answer t = own at h ⊢
  obtain ⟨events, result, state⟩ := own
  obtain rfl : result = .ok true := h
  show ∃ rest, .moment (.opened s) :: (events ++ .moment (.entered s) ::
    ((body >>= _).run answer state).events) = _
  rw [Course.run_bind]
  exact ⟨_, rfl⟩

/-- How a block goes that stands where an acquire with the semaphore's own timeout might stand.

    - It is entered if the acquire would get a permit, and its body begins where the acquire would have
      ended.
    - If the acquire would be in vain the block ends with the failure to enter it in time, and if the
      acquire would fail the block ends with that failure; either way it has done what the acquire would
      have done, and nothing more. -/
structure Decides (s : Semaphore) (answer : (r : Request) → σ → r.Answer × σ)
    (body : Course (Except Failure Unit)) (own : Run σ (Except Failure Bool))
    (block : Run σ (Except Failure Unit)) : Prop where
  entered_iff : .moment (.entered s) ∈ block.events ↔ own.result = .ok true
  begins : own.result = .ok true → ∃ rest, block.events = .moment (.opened s) ::
    (own.events ++ .moment (.entered s) :: ((body.run answer own.state).events ++ rest))
  missed_iff : ∀ f, block = s.missed own f ↔
    own.result = .ok false ∧ f = s.lateness ∨ own.result = .error f

/-- **The acquire decides about the block.** -/
theorem decides (s : Semaphore) (body : Course (Except Failure Unit)) (t : σ) :
    s.Decides answer body ((perform (s.acquire (.bool true) .none)).run answer t)
      ((Routine.block s body).run answer t) := by
  have entered := @events_block_of_ok _ answer s body t
  have failed (f : Failure) := @run_block_of_error _ answer s body t f
  have still := Course.moment_notMem_run answer (s.acquire (.bool true) .none) (.entered s) t
  generalize (perform (s.acquire (.bool true) .none)).run answer t = own at *
  -- What is missed is never entered, since the acquire itself passes no moments.
  have outside (f : Failure) : .moment (.entered s) ∉ (s.missed own f).events := by
    intro h
    rcases List.mem_cons.mp h with h | h
    · cases h
    · rcases List.mem_append.mp h with h | h
      · exact still h
      · cases List.mem_singleton.mp h
  have same {f f' : Failure} (h : s.missed own f = s.missed own f') : f = f' :=
    Except.error.inj (congrArg Run.result h)
  match hr : own.result with
  | .ok true =>
    obtain ⟨rest, events⟩ := entered hr
    have inside : .moment (.entered s) ∈ ((Routine.block s body).run answer t).events := by
      rw [events]
      exact List.mem_cons_of_mem _ (List.mem_append_right _ (List.mem_cons_self ..))
    refine ⟨iff_of_true inside hr, fun _ => ⟨rest, events⟩, fun f => iff_of_false (fun h => ?_) ?_⟩
    · exact outside f (h ▸ inside)
    · simp [hr]
  | .ok false =>
    have late := failed s.lateness (by rw [hr]; rfl)
    rw [late]
    refine ⟨iff_of_false (outside _) (by simp [hr]), by simp [hr], fun f => ?_⟩
    simp only [hr, true_and, reduceCtorEq, or_false]
    exact ⟨fun h => (same h).symm, fun h => h ▸ rfl⟩
  | .error e =>
    have ended := failed e (by rw [hr]; rfl)
    rw [ended]
    refine ⟨iff_of_false (outside _) (by simp [hr]), by simp [hr], fun f => ?_⟩
    simp only [hr, reduceCtorEq, false_and, false_or, Except.error.injEq]
    exact ⟨same, fun h => h ▸ rfl⟩

/-! ## The whole -/

/-- **It does not matter where a timeout is named.**  Two durations are taken for seconds, in whatever
    encoding.  Then a semaphore that is made with the first acquires by default, and a semaphore that is
    made with the second acquires with the first as an argument, just as a caller without a semaphore
    does: in any surroundings

    - the requests, the answers, the result or failure, and the state in the end are the same, and the
      only command is the pop for the seconds of the first duration;
    - a block of the first semaphore goes as that acquire decides.

    Seconds that are read once more come to themselves. -/
theorem timeouts_agree (options : Options) {store : ListStore} {name x y : Value} {n : Name}
    {a b : Double} (named : Name.check name = .ok n) (hx : Duration.seconds x = .ok a)
    (hy : Duration.seconds y = .ok b) :
    Duration.seconds (.float a) = .ok a ∧
    ∃ s t : Semaphore,
      create (options.on store x) name = pure s ∧ create (options.on store y) name = pure t ∧
      s.lateness = .timedOut name (.float a) ∧
      ∀ {σ : Type} (answer : (r : Request) → σ → r.Answer × σ) (st : σ),
        let own := (perform (s.acquire (.bool true) .none)).run answer st
        let told := (perform (t.acquire (.bool true) x)).run answer st
        let plain := (perform (acquireNamed store name x)).run answer st
        told = own ∧ own = { plain with result := plain.result.map isEntry } ∧
        (requests own.events).filter Request.isCommand =
          [.command store.executor (.popFor n a)] ∧
        ∀ body : Course (Except Failure Unit),
          s.Decides answer body own ((Routine.block s body).run answer st) := by
  have again : Duration.seconds (.float a) = .ok a :=
    Duration.seconds_float (Duration.isFinite_of_seconds hx)
  obtain ⟨s, made, rfl, rfl, rfl⟩ := create_on options store named hx
  obtain ⟨t, made', name_eq, store_eq, -⟩ := create_on options s.store named hy
  have given : x ≠ .none := by
    rintro rfl
    cases hx
  -- All three are one operation, and what is left is to tell apart how they read its result.
  have plain := acquireNamed_of_check s.store named x
  have own : s.acquire (.bool true) .none = acquireNamed s.store name x >>= fun e => pure (isEntry e) := by
    rw [plain]
    exact acquire_eq_of_seconds (again.trans hx.symm)
  have told : t.acquire (.bool true) x = s.acquire (.bool true) .none := by
    rw [own, plain, ← name_eq, ← store_eq]
    exact acquire_eq_of_seconds (by rw [waitFor_of_ne_none given])
  refine ⟨again, s, t, made, made', ?_, fun answer st => ⟨?_, ?_, ?_, fun body => s.decides body st⟩⟩
  · rw [lateness, Name.toValue_of_check named]
  · rw [told]
  · rw [own, Course.run_perform_bind]
    generalize (perform (acquireNamed s.store name x)).run answer st = run
    obtain ⟨events, result, state⟩ := run
    cases result with
    | ok entry => exact congrArg (Run.mk · _ _) (List.append_nil events)
    | error f => rfl
  · have asked : (acquireNamed s.store name x >>= fun e => pure (isEntry e)).Asks
        (Demand.sent ⟨Name.check name, x⟩ s.store) :=
      (asks_acquireFrom _).bind fun e => Op.asks_done _
    have sent : Demand.sent ⟨Name.check name, x⟩ s.store =
        [.command s.store.executor (.popFor s.name s.timeout)] := by
      rw [named, Demand.sent, Demand.pops, hx]
      rfl
    rw [own]
    exact (asked _ answer st).trans sent

/-- A caller finds nothing within half a second, which it writes out, and does not enter the block of a
    semaphore that waits as long. -/
theorem half_timeouts_agree :
    let store : ListStore := ⟨⟨"lists", .awaited⟩⟩
    let half : Double := .ofIntRatio 1 2
    let late : Failure := .timedOut (.text "k") (.float half)
    ∃ s t : Semaphore, create (Options.on default store (.text " 0.5\n")) (.text "k") = pure s ∧
      create (Options.on default store (.int 10)) (.text "k") = pure t ∧
      let own := (perform (s.acquire (.bool true) .none)).run Setting.sevens.answer { lists := {} }
      let told := (perform (t.acquire (.bool true) (.text " 0.5\n"))).run Setting.sevens.answer
        { lists := {} }
      told = own ∧ own.result = .ok false ∧
      (requests own.events).filter Request.isCommand =
        [.command store.executor (.blockingPop (.text "k") half)] ∧
      (Routine.block s (.done (.ok ()))).run Setting.sevens.answer { lists := {} } =
        s.missed own late := by
  intro store half late
  have named : Name.check (.text "k") = .ok (.text "k") := rfl
  have written : Duration.seconds (.text " 0.5\n") = .ok half := by
    refine Duration.seconds_text_eq_ok_iff.mpr ⟨?_, ?_⟩ <;> decide +kernel
  have whole : Duration.seconds (.int 10) = .ok (.ofInt 10) := by
    refine Duration.seconds_int_eq_ok_iff.mpr ⟨rfl, ?_⟩
    decide +kernel
  obtain ⟨-, s, t, made, made', lateness, routes⟩ :=
    @timeouts_agree default store _ _ _ _ _ _ named written whole
  obtain ⟨told, own, sent, blocks⟩ := routes Setting.sevens.answer { lists := {} }
  have missed : ((perform (s.acquire (.bool true) .none)).run Setting.sevens.answer
      { lists := {} }).result = .ok false := by
    have vain : ((perform (acquireNamed store (.text "k") (.text " 0.5\n"))).run Setting.sevens.answer
        { lists := {} }).result.toOption.map isEntry = some false := by decide +kernel
    rw [own]
    generalize (perform (acquireNamed store (.text "k") (.text " 0.5\n"))).run _ _ = plain at vain
    match hr : plain.result with
    | .ok entry =>
      rw [hr] at vain
      exact congrArg Except.ok (Option.some.inj vain)
    | .error f =>
      rw [hr] at vain
      cases vain
  have waits : ¬half.le .zero = true := by decide +kernel
  rw [Command.popFor, if_neg waits] at sent
  refine ⟨s, t, made, made', told, missed, sent, ?_⟩
  exact ((blocks (.done (.ok ()))).missed_iff late).mpr (.inl ⟨missed, lateness.symm⟩)

end Semaphore

end Permits
