/-
  Acquiring — what an acquire comes to where the answer to its pop is known.

  Surroundings that answer every request at once answer a pop in one of three ways
  (`Conditions.Popped`).  **What the pop comes to is known then** (`run_blockingPop`), whether it polls
  or waits, and so is the acquire around it (`run_acquire`) and the entering of a block
  (`Semaphore.run_enter_of_popped`).  Only the milliseconds of the record depend on the clock.
-/
import Permits.Proofs.Account.Operations

namespace Permits

open Number
open Course (Event Run)

variable {σ : Type} {answer : (r : Request) → σ → r.Answer × σ} {k : Conditions} {t : Timer}

/-! ## Pops -/

section Pops

variable {store : ListStore} {name : Name} {duration : Value} {seconds : Double} {s u : σ}
  {a r : Except Failure Value}

/-- To send a command is to be answered. -/
theorem ListStore.run_send {c : Command} (ha : answer (.command store.executor c) s = (a, u)) :
    (Course.perform (store.send c)).run answer s = ⟨[.sent store c a], store.style.received a, u⟩ := by
  show (⟨[.sent store c (answer (.command store.executor c) s).1],
    store.style.received (answer (.command store.executor c) s).1,
    (answer (.command store.executor c) s).2⟩ : Run σ _) = _
  rw [ha]

/-- **A pop for some seconds comes to what its answer says**, in either way of popping. -/
theorem ListStore.run_blockingPop (hd : Duration.seconds duration = .ok seconds)
    (hr : k.Popped store.style (.popFor name seconds) a r)
    (ha : answer (.command store.executor (.popFor name seconds)) s = (a, u)) :
    (Course.perform (store.blockingPop name duration)).run answer s =
      ⟨[.sent store (.popFor name seconds) a], r, u⟩ := by
  rw [store.blockingPop_eq, hd]
  show (Course.perform (if seconds.le .zero then _ else _)).run answer s = _
  by_cases polls : seconds.le .zero = true
  · rw [Command.popFor, if_pos polls] at hr ha ⊢
    rw [if_pos polls, store.run_send ha]
    cases hr <;> rfl
  · -- The reply to a pop that waits is a pair, of which the entry is taken.
    rw [Command.popFor, if_neg polls] at hr ha ⊢
    rw [if_neg polls, Course.run_perform_bind, store.run_send ha]
    cases hr <;> rfl

end Pops

/-! ## Acquires -/

/-- What is timed comes out as it was popped, and a record is left. -/
theorem run_timed (ht : ∀ s, t.reads (answer .clock s).1) {pop : Op (Name × Value)} {s u : σ}
    {events : List Event} {name : Name} {entry : Value}
    (h : (Course.perform pop).run answer (answer .clock s).2 = ⟨events, .ok (name, entry), u⟩) :
    ∃ ms, (Course.perform (timed pop)).run answer s =
      ⟨.answer .clock (answer .clock s).1 :: (events ++
          [.answer .clock (answer .clock u).1, .noted (outcome name entry ms)]),
        .ok entry, (answer (.log (outcome name entry ms)) (answer .clock u).2).2⟩ := by
  have started := t.started (ht s)
  obtain ⟨ms, measured⟩ := t.measured (ht s) (ht u)
  have attempted : (Course.perform pop.attempt).run answer (answer .clock s).2 =
      ⟨events, .ok (.ok (name, entry)), u⟩ := by
    rw [Course.perform_attempt, Course.run_bind, h]
    exact congrArg (Run.mk · _ _) (List.append_nil events)
  refine ⟨ms, ?_⟩
  -- The clock is looked at before the pop and after it, and then there is a record.
  show ((Course.perform (pop.attempt >>= _)).run answer (answer .clock s).2).after _ = _
  rw [Course.run_perform_bind, attempted]
  show (((Course.run answer
    (Course.perform (Op.ofExcept (stopped (answer .clock s).1 (.ok (name, entry))) >>= _))
    (answer .clock u).2).after _).behind events).after _ = _
  rw [stopped_of_ne_zero started]
  show (((Course.run answer
    (Course.perform (Op.ofExcept (elapsed (answer .clock s).1 (answer .clock u).1) >>= _))
    (answer .clock u).2).after _).behind events).after _ = _
  rw [measured]
  rfl

/-- What an acquire comes to whose pop is answered well. -/
theorem run_acquire (ht : ∀ s, t.reads (answer .clock s).1) {store : ListStore} {name : Name}
    {duration entry : Value} {seconds : Double} {a : Except Failure Value} {s u : σ}
    (hd : Duration.seconds duration = .ok seconds)
    (hr : k.Popped store.style (.popFor name seconds) a (.ok entry))
    (ha : answer (.command store.executor (.popFor name seconds)) (answer .clock s).2 = (a, u)) :
    ∃ ms, (Course.perform (acquire store name duration)).run answer s =
      ⟨[.answer .clock (answer .clock s).1, .sent store (.popFor name seconds) a,
          .answer .clock (answer .clock u).1, .noted (outcome name entry ms)],
        .ok entry, (answer (.log (outcome name entry ms)) (answer .clock u).2).2⟩ := by
  have popped : (Course.perform (store.blockingPop name duration >>= fun entry =>
      pure (name, entry))).run answer (answer .clock s).2 =
        ⟨[.sent store (.popFor name seconds) a], .ok (name, entry), u⟩ := by
    rw [Course.run_perform_bind, store.run_blockingPop hd hr ha]
    rfl
  rw [acquire_eq]
  exact run_timed ht popped

/-- What entering a block comes to whose pop is answered well. -/
theorem Semaphore.run_enter_of_popped (ht : ∀ s, t.reads (answer .clock s).1) {m : Semaphore} {entry : Value}
    {a : Except Failure Value} {s u : σ} (hr : k.Popped m.store.style m.entry a (.ok entry))
    (ha : answer (.command m.store.executor m.entry) (answer .clock s).2 = (a, u)) :
    ∃ ms, (Course.perform m.enter).run answer s =
      ⟨[.answer .clock (answer .clock s).1, .sent m.store m.entry a,
          .answer .clock (answer .clock u).1, .noted (outcome m.name entry ms)],
        m.admission (.ok entry), (answer (.log (outcome m.name entry ms)) (answer .clock u).2).2⟩ := by
  have hd : Duration.seconds (m.waitFor (.bool true) .none) = .ok m.timeout :=
    Duration.seconds_float m.timeout_finite
  obtain ⟨ms, acquired⟩ := run_acquire ht hd hr ha
  refine ⟨ms, ?_⟩
  rw [m.enter_eq, Course.run_perform_bind, m.acquire_eq, Course.run_perform_bind, acquired]
  show ((Course.perform (if isEntry entry then _ else _)).run answer _).behind _ = _
  rw [admission]
  cases isEntry entry <;> rfl

end Permits
