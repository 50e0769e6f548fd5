/-
  Accounts of operations — what each operation does to the account of its caller.

  Under given conditions every operation makes a command or none, and may leave a record.  The rules
  below say what has to be shown about the account after the command, and after the record, for
  `Always` to hold of the operation: one rule for each function, from `always_send` up to
  `always_enter` and `always_exit`.  Callers of these rules never look into the operations.
-/
import Permits.Proofs.Account.Basic
import Permits.Proofs.Conditions

namespace Permits

/-- Are records of no account? -/
def Ledger.IgnoresLog {γ : Type} (l : Ledger γ) : Prop :=
  ∀ (g : γ) (r : Record), l.update g (.answer (.log r) ()) = g

end Permits

namespace Permits.Course

open Number

variable {α γ : Type} {k : Conditions} {l : Ledger γ} {inv : γ → Prop} {g : γ}

/-- A command and its answer. -/
abbrev Event.sent (s : ListStore) (c : Command) (a : Except Failure Value) : Event :=
  .answer (.command s.executor c) a

/-- A record for the log. -/
abbrev Event.noted (r : Record) : Event := .answer (.log r) ()

/-! ## Commands -/

section Commands

variable {admits : (r : Request) → r.Answer → Prop}

theorem always_send {s : ListStore} {c : Command} {post : Except Failure Value → γ → Prop}
    (hi : inv g)
    (h : ∀ a, admits (.command s.executor c) a →
      inv (l.update g (.sent s c a)) ∧ post (s.style.received a) (l.update g (.sent s c a))) :
    (perform (s.send c)).Always admits l inv post g :=
  ⟨hi, h⟩

theorem always_log {r : Record} {post : Except Failure Unit → γ → Prop} (hi : inv g)
    (hn : inv (l.update g (.noted r))) (h : post (.ok ()) (l.update g (.noted r))) :
    (perform (.log r)).Always admits l inv post g :=
  ⟨hi, fun _ _ => ⟨hn, h⟩⟩

/-- What has to hold after the command of a push, before and after its record. -/
def Pushed (l : Ledger γ) (inv : γ → Prop) (post : Except Failure Value → γ → Prop)
    (s : ListStore) (name : Name) (g : γ) : Except Failure Value → Prop
  | .ok v => inv (l.update g (.noted (.pushed s.style name v))) ∧
      post (.ok v) (l.update g (.noted (.pushed s.style name v)))
  | .error f => post (.error (s.style.raised f)) g

theorem always_push {s : ListStore} {name : Name} {v : Value}
    {post : Except Failure Value → γ → Prop} (hi : inv g)
    (h : ∀ a, admits (.command s.executor (.push name v)) a →
      inv (l.update g (.sent s (.push name v) a)) ∧
        Pushed l inv post s name (l.update g (.sent s (.push name v) a)) a) :
    (perform (s.push name v)).Always admits l inv post g := by
  rw [s.push_eq]
  refine always_perform_bind (always_send hi fun a ha => ⟨(h a ha).1, ?_⟩)
  cases a with
  | error f => exact (h _ ha).2
  | ok reply =>
    obtain ⟨hs, hn, hp⟩ := h _ ha
    exact always_perform_bind (always_log hs hn ⟨hn, hp⟩)

end Commands

/-! ## Pops -/

/-- The ways in which the command of a pop is answered. -/
theorem always_blockingPop {s : ListStore} {name : Name} {d : Value} {x : Double}
    (hd : Duration.seconds d = .ok x) {post : Except Failure Value → γ → Prop} (hi : inv g)
    (h : ∀ a r, k.Popped s.style (.popFor name x) a r →
      inv (l.update g (.sent s (.popFor name x) a)) ∧
        post r (l.update g (.sent s (.popFor name x) a))) :
    (perform (s.blockingPop name d)).Always k.Admits l inv post g := by
  rw [s.blockingPop_eq]
  refine always_perform_bind (always_ofExcept hi ?_)
  rw [hd]
  by_cases hx : x.le .zero = true
  · -- The list is polled, and the reply is taken as it is.
    rw [Command.popFor, if_pos hx] at h
    show (perform (if x.le .zero then _ else _)).Always _ _ _ _ _
    rw [if_pos hx]
    refine always_send hi fun a ha => ?_
    cases a with
    | error f => exact h _ _ (.raised ha)
    | ok v =>
      obtain rfl | ⟨e, rfl⟩ := ha
      · exact h _ _ .nothing
      · exact h _ _ (.entry e)
  · -- The reply to a pop that waits is a pair, of which the second part is the entry.
    rw [Command.popFor, if_neg hx] at h
    show (perform (if x.le .zero then _ else _)).Always _ _ _ _ _
    rw [if_neg hx]
    refine always_perform_bind (always_send hi fun a ha => ?_)
    cases a with
    | error f => exact h _ _ (.raised ha)
    | ok v =>
      obtain rfl | ⟨e, rfl⟩ := ha
      · obtain ⟨hs, hp⟩ := h _ _ .nothing
        exact ⟨hs, always_ofExcept hs hp⟩
      · obtain ⟨hs, hp⟩ := h _ _ (.entry e)
        exact ⟨hs, always_ofExcept hs hp⟩

/-- A duration that is refused is refused before anything is sent. -/
theorem always_blockingPop_error {s : ListStore} {name : Name} {d : Value} {f : Failure}
    (hd : Duration.seconds d = .error f) {post : Except Failure Value → γ → Prop} (hi : inv g)
    (h : post (.error (s.style.raised f)) g) :
    (perform (s.blockingPop name d)).Always k.Admits l inv post g := by
  rw [s.blockingPop_eq, hd]
  exact always_perform_bind (always_ofExcept hi h)

/-- What has to hold when a pop has ended, before and after the record of an acquire. -/
def Acquired (l : Ledger γ) (inv : γ → Prop) (post : Except Failure Value → γ → Prop)
    (name : Name) (g : γ) : Except Failure Value → Prop
  | .ok v => ∀ ms, inv (l.update g (.noted (outcome name v ms))) ∧
      post (.ok v) (l.update g (.noted (outcome name v ms)))
  | .error f => post (.error f) g

/-- A timer that never fails leaves what it times as it is. -/
theorem always_timed {pop : Op (Name × Value)} {post : Except Failure Value → γ → Prop}
    (hi : inv g)
    (h : (perform pop).Always k.Admits l inv
      (fun r g => match r with
        | .ok (name, v) => Acquired l inv post name g (.ok v)
        | .error f => post (.error f) g) g) :
    (perform (timed pop)).Always k.Admits l inv post g := by
  refine always_quiet rfl hi fun start hstart => ?_
  show (perform (pop.attempt >>= _)).Always k.Admits l inv post g
  -- The timer is stopped whatever the pop comes to, so the pop is attempted.
  refine always_perform_bind (always_attempt (h.mono fun r g hi hr => ?_))
  refine always_quiet rfl hi fun stop hstop => ?_
  show (perform (.ofExcept (stopped start r) >>= _)).Always k.Admits l inv post g
  rw [stopped_of_ne_zero (k.started hstart)]
  refine always_perform_bind (always_ofExcept hi ?_)
  cases r with
  | error f => exact hr
  | ok pair =>
    obtain ⟨ms, hms⟩ := k.measured hstart hstop
    refine always_perform_bind (always_ofExcept hi ?_)
    rw [hms]
    obtain ⟨hn, hp⟩ := hr ms
    exact always_perform_bind (always_log hi hn ⟨hn, hp⟩)

/-- A name that is refused is refused before anything is sent. -/
theorem always_acquireFrom_error {s : ListStore} {d : Value} {f : Failure}
    {post : Except Failure Value → γ → Prop} (hi : inv g) (h : post (.error (s.style.raised f)) g) :
    (perform (acquireFrom s (.error f) d)).Always k.Admits l inv post g := by
  rw [acquireFrom_eq]
  exact always_timed hi (always_perform_bind (always_ofExcept hi h))

theorem always_acquire {s : ListStore} {name : Name} {d : Value} {x : Double}
    (hd : Duration.seconds d = .ok x) {post : Except Failure Value → γ → Prop} (hi : inv g)
    (h : ∀ a r, k.Popped s.style (.popFor name x) a r →
      inv (l.update g (.sent s (.popFor name x) a)) ∧
        Acquired l inv post name (l.update g (.sent s (.popFor name x) a)) r) :
    (perform (acquire s name d)).Always k.Admits l inv post g := by
  rw [acquire_eq]
  refine always_timed hi (always_perform_bind ?_)
  refine (always_blockingPop hd hi fun a r hr => ⟨(h a r hr).1, ?_⟩)
  cases r with
  | error f => exact (h a _ hr).2
  | ok v => exact ⟨(h a _ hr).1, (h a _ hr).2⟩

theorem always_acquire_error {s : ListStore} {name : Name} {d : Value} {f : Failure}
    (hd : Duration.seconds d = .error f) {post : Except Failure Value → γ → Prop} (hi : inv g)
    (h : post (.error (s.style.raised f)) g) :
    (perform (acquire s name d)).Always k.Admits l inv post g := by
  rw [acquire_eq]
  exact always_timed hi (always_perform_bind (always_blockingPop_error hd hi h))

section IgnoresLog

variable {s : ListStore} {name : Name} {post : Except Failure Value → γ → Prop}
  {r : Except Failure Value}

/-- Where records are of no account, nothing is left to show after a record. -/
theorem acquired_of_ignoresLog (hl : l.IgnoresLog) (hi : inv g) (h : post r g) :
    Acquired l inv post name g r := by
  cases r with
  | error f => exact h
  | ok v =>
    intro ms
    rw [hl]
    exact ⟨hi, h⟩

theorem pushed_of_ignoresLog (hl : l.IgnoresLog) (hi : inv g) (h : post (s.style.received r) g) :
    Pushed l inv post s name g r := by
  cases r with
  | error f => exact h
  | ok v =>
    show inv (l.update g (.noted (.pushed s.style name v))) ∧ post _ (l.update g _)
    rw [hl]
    exact ⟨hi, h⟩

end IgnoresLog

/-! ## Semaphores -/

section Semaphores

variable {s : Semaphore}

theorem always_value {post : Except Failure Int → γ → Prop} (hi : inv g)
    (h : ∀ a, k.Admits (.command s.store.executor (.length s.name)) a →
      inv (l.update g (.sent s.store (.length s.name) a)) ∧
        post (s.store.style.received a >>= Reply.count)
          (l.update g (.sent s.store (.length s.name) a))) :
    (perform s.value).Always k.Admits l inv post g := by
  rw [s.value_eq, s.store.length_eq]
  refine always_perform_bind (always_send hi fun a ha => ?_)
  obtain ⟨hs, hp⟩ := h a ha
  cases a with
  | error f => exact ⟨hs, hp⟩
  | ok v => exact ⟨hs, always_ofExcept hs hp⟩

theorem always_locked {post : Except Failure Bool → γ → Prop} (hi : inv g)
    (h : ∀ a, k.Admits (.command s.store.executor (.length s.name)) a →
      inv (l.update g (.sent s.store (.length s.name) a)) ∧
        post (do return (← s.store.style.received a >>= Reply.count) ≤ 0)
          (l.update g (.sent s.store (.length s.name) a))) :
    (perform s.locked).Always k.Admits l inv post g := by
  rw [s.locked_eq]
  refine always_perform_bind (always_value hi fun a ha => ?_)
  obtain ⟨hs, hp⟩ := h a ha
  refine ⟨hs, ?_⟩
  cases hr : s.store.style.received a >>= Reply.count with
  | error f => rw [hr] at hp; exact hp
  | ok n => rw [hr] at hp; exact ⟨hs, hp⟩

theorem always_acquirePermit {blocking timeout : Value} {x : Double}
    (hd : Duration.seconds (s.waitFor blocking timeout) = .ok x)
    {post : Except Failure Bool → γ → Prop} (hi : inv g)
    (h : ∀ a r, k.Popped s.store.style (.popFor s.name x) a r →
      inv (l.update g (.sent s.store (.popFor s.name x) a)) ∧
        Acquired l inv (fun r g => post (r.map Semaphore.isEntry) g) s.name
          (l.update g (.sent s.store (.popFor s.name x) a)) r) :
    (perform (s.acquire blocking timeout)).Always k.Admits l inv post g := by
  rw [s.acquire_eq]
  refine always_perform_bind (always_acquire hd hi fun a r hr => ⟨(h a r hr).1, ?_⟩)
  cases r with
  | error f => exact (h a _ hr).2
  | ok v =>
    intro ms
    obtain ⟨hn, hp⟩ := (h a _ hr).2 ms
    exact ⟨hn, hn, hp⟩

theorem always_acquirePermit_error {blocking timeout : Value} {f : Failure}
    (hd : Duration.seconds (s.waitFor blocking timeout) = .error f)
    {post : Except Failure Bool → γ → Prop} (hi : inv g)
    (h : post (.error (s.store.style.raised f)) g) :
    (perform (s.acquire blocking timeout)).Always k.Admits l inv post g := by
  rw [s.acquire_eq]
  exact always_perform_bind (always_acquire_error hd hi h)

end Semaphores

end Permits.Course

namespace Permits.Semaphore

open Course

variable {γ : Type} {k : Conditions} {l : Ledger γ} {inv : γ → Prop} {g : γ} {s : Semaphore}
  {post : Except Failure Unit → γ → Prop}

/-- The pop with which a block is entered. -/
def entry (s : Semaphore) : Command := .popFor s.name s.timeout

/-- How entering a block ends once its pop has ended. -/
def admission (s : Semaphore) : Except Failure Value → Except Failure Unit
  | .ok v => if isEntry v then .ok () else .error s.lateness
  | .error f => .error f

theorem always_enter (hi : inv g)
    (h : ∀ a r, k.Popped s.store.style s.entry a r →
      inv (l.update g (.sent s.store s.entry a)) ∧
        Acquired l inv (fun r g => post (s.admission r) g) s.name
          (l.update g (.sent s.store s.entry a)) r) :
    (perform s.enter).Always k.Admits l inv post g := by
  -- A block waits for the semaphore's own timeout, and that is never refused.
  have hd : Duration.seconds (s.waitFor (.bool true) .none) = .ok s.timeout :=
    Duration.seconds_float s.timeout_finite
  rw [s.enter_eq]
  refine always_perform_bind (always_acquirePermit hd hi fun a r hr => ⟨(h a r hr).1, ?_⟩)
  cases hr with
  | entry e =>
    intro ms
    obtain ⟨hn, hp⟩ := (h _ _ (.entry e)).2 ms
    exact ⟨hn, hn, hp⟩
  | nothing =>
    intro ms
    obtain ⟨hn, hp⟩ := (h _ _ .nothing).2 ms
    exact ⟨hn, hn, hp⟩
  | raised hf => exact (h _ _ (.raised hf)).2

/-- Leaving a block is one push of a permit. -/
theorem exit_eq_push (s : Semaphore) :
    s.exit = do
      let _ ← s.store.push s.name permit
      return () := by
  rw [s.exit_eq, s.release_eq, ← Permits.release_eq]
  rfl

theorem always_exit (hi : inv g)
    (h : ∀ a, k.Admits (.command s.store.executor (.push s.name permit)) a →
      inv (l.update g (.sent s.store (.push s.name permit) a)) ∧
        Pushed l inv (fun r g => post (r.map fun _ => ()) g) s.store s.name
          (l.update g (.sent s.store (.push s.name permit) a)) a) :
    (perform s.exit).Always k.Admits l inv post g := by
  rw [exit_eq_push]
  refine always_perform_bind (always_push hi fun a ha => ⟨(h a ha).1, ?_⟩)
  cases a with
  | error f => exact (h _ ha).2
  | ok v =>
    obtain ⟨hn, hp⟩ := (h _ ha).2
    exact ⟨hn, hn, hp⟩

/-! ## Blocks -/

/-- What has to hold when a block ends, before and after its last moment. -/
def Closed (l : Ledger γ) (inv : γ → Prop) (post : Except Failure Unit → γ → Prop)
    (s : Semaphore) (r : Except Failure Unit) (g : γ) : Prop :=
  inv (l.update g (.moment (.closed s r))) ∧ post r (l.update g (.moment (.closed s r)))

/-- A block ends when it is not entered, or else when its body and then its exit have ended. -/
theorem always_block {body : Course (Except Failure Unit)} (hi : inv g)
    (h : (perform s.enter).Always k.Admits l inv
      (fun r g => match r with
        | .error f => Closed l inv post s (.error f) g
        | .ok () => body.Always k.Admits l inv
          (fun result g => (perform s.exit).Always k.Admits l inv
            (fun exited g => Closed l inv post s (blockResult result exited) g)
            (l.update g (.moment (.left s result))))
          (l.update g (.moment (.entered s))))
      (l.update g (.moment (.opened s)))) :
    (Routine.block s body).Always k.Admits l inv post g := by
  refine always_moment hi (always_bind ?_)
  show (perform s.enter >>= _).Always k.Admits l inv _ _
  refine always_bind (h.mono fun r g hi hr => ?_)
  cases r with
  | error f => exact ⟨hi, hi, hr⟩
  | ok u =>
    refine always_bind (always_moment hi (always_bind (hr.mono fun result g hi hr => ?_)))
    -- The body has been left, whatever it ended with, and the exit begins.
    refine ⟨hi, hr.invariant, always_bind (hr.mono fun exited g hi hr => ?_)⟩
    exact ⟨hi, hi, hr⟩

end Permits.Semaphore
