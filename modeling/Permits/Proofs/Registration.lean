/-
  Registration — what a registry has become, whatever was done with it.

  1. **Bindings** (`Bindings`): names with their commands, in order of registration, no two of them
     for the same key.  Under that condition a name has at most one command, and `lookup` finds it
     (`Bindings.AreDistinct.lookup`).
  2. **Uses** (`Use`, `Use.course`): names are bound one by one or three at a time, commands are called,
     and the registry is asked for its names.  `Use.Goes` says of each use what it comes to where
     some bindings stand; there is one rule for each way to go.
  3. **History** (`history`): what a caller knows to be bound who remembers what each use came to.

  `Registry.stands` ties them together: the bindings are the history, after any uses whatever, so that
  a binding stays what it was when it was made.
-/
import Permits.Proofs.Course
import Permits.Proofs.Keys

namespace Permits

open Course (Run)

/-! ## Bindings -/

/-- Names and what they are bound to, the oldest first. -/
abbrev Bindings : Type := List (Value × HostCommand)

namespace Bindings

/-- Is a name a key to which nothing is bound? -/
def IsFree (b : Bindings) (name : Value) : Prop :=
  name.keyFault? = none ∧ ∀ e ∈ b, e.1.sameKey name = false

/-- Is a name bound to a command? -/
def Binds (b : Bindings) (name : Value) (command : HostCommand) : Prop :=
  ∃ e ∈ b, e.1.sameKey name = true ∧ e.2 = command

/-- Is each name of the bindings a key, and bound once? -/
def AreDistinct (b : Bindings) : Prop :=
  (∀ e ∈ b, e.1.keyFault? = none) ∧ b.Pairwise fun e e' => e.1.sameKey e'.1 = false

variable {b : Bindings} {name : Value} {command : HostCommand}

theorem areDistinct_nil : AreDistinct [] := ⟨List.forall_mem_nil _, .nil⟩

theorem areDistinct_singleton (h : name.keyFault? = none) : AreDistinct [(name, command)] :=
  ⟨List.forall_mem_singleton.mpr h, List.pairwise_singleton ..⟩

/-- Free names may be bound. -/
theorem AreDistinct.append {more : Bindings} (h : b.AreDistinct) (hm : more.AreDistinct)
    (free : ∀ e ∈ more, b.IsFree e.1) : AreDistinct (b ++ more) := by
  refine ⟨List.forall_mem_append.mpr ⟨h.1, hm.1⟩, ?_⟩
  exact List.pairwise_append.mpr ⟨h.2, hm.2, fun e he e' he' => (free e' he').2 e he⟩

theorem AreDistinct.left {more : Bindings} (h : AreDistinct (b ++ more)) : b.AreDistinct :=
  ⟨(List.forall_mem_append.mp h.1).1, (List.pairwise_append.mp h.2).1⟩

/-- Two bindings of one name are the same. -/
theorem AreDistinct.eq_of_sameKey (h : b.AreDistinct) {e e' : Value × HostCommand} (he : e ∈ b)
    (he' : e' ∈ b) (same : e.1.sameKey name = true) (same' : e'.1.sameKey name = true) : e = e' := by
  have meet : e.1.sameKey e'.1 = true := Value.sameKey_trans same (Value.sameKey_symm same')
  have apart := h.2
  clear h
  induction apart with
  | nil => cases he
  | cons first _ ih =>
    rcases List.mem_cons.mp he with rfl | hin
    · rcases List.mem_cons.mp he' with rfl | hin'
      · rfl
      · exact absurd meet (by simp [first e' hin'])
    · rcases List.mem_cons.mp he' with rfl | hin'
      · rw [Value.sameKey_comm] at meet
        exact absurd meet (by simp [first e hin])
      · exact ih hin hin'

theorem lookup_of_key (h : name.keyFault? = none) :
    lookup b name = .ok ((b.find? fun e => e.1.sameKey name).map (·.2)) := by
  rw [lookup, h]

theorem lookup_of_fault {type : String} (h : name.keyFault? = some type) :
    lookup b name = .error (.unhashable type) := by
  rw [lookup, h]

theorem IsFree.lookup (h : b.IsFree name) : lookup b name = .ok none := by
  have found : b.find? (fun e => e.1.sameKey name) = none :=
    List.find?_eq_none.mpr fun e he => by simp [h.2 e he]
  rw [lookup_of_key h.1, found]
  rfl

theorem AreDistinct.lookup (h : b.AreDistinct) (bound : b.Binds name command) :
    lookup b name = .ok (some command) := by
  obtain ⟨e, he, same, rfl⟩ := bound
  have key : name.keyFault? = none := by
    rw [← Value.keyFault?_congr same]
    exact h.1 e he
  rw [lookup_of_key key]
  cases found : b.find? fun e => e.1.sameKey name with
  | none => exact absurd same (List.find?_eq_none.mp found e he)
  | some e' =>
    have first := List.find?_some found
    rw [h.eq_of_sameKey he (List.mem_of_find?_eq_some found) same first]
    rfl

/-- A name is bound, free, or no key. -/
theorem binds_or_isFree (b : Bindings) (name : Value) :
    (∃ command, b.Binds name command) ∨ b.IsFree name ∨ ∃ type, name.keyFault? = some type := by
  cases key : name.keyFault? with
  | some type => exact .inr (.inr ⟨type, rfl⟩)
  | none =>
    by_cases h : ∃ e ∈ b, e.1.sameKey name = true
    · obtain ⟨e, he, same⟩ := h
      exact .inl ⟨e.2, e, he, same, rfl⟩
    · refine .inr (.inl ⟨key, fun e he => ?_⟩)
      exact Bool.eq_false_iff.mpr fun same => h ⟨e, he, same⟩

end Bindings

/-! ## Registering -/

section Registering

variable {b : Bindings} {name : Value} {command : HostCommand}

namespace Registrar

theorem register_of_isFree (h : b.IsFree name) :
    (registry ⟨b⟩).register name command = (.ok (), registry ⟨b ++ [(name, command)]⟩) := by
  simp only [register, Registry.register, Registry.contains, h.lookup]
  rfl

theorem register_of_binds (h : b.AreDistinct) {c : HostCommand} (bound : b.Binds name c) :
    (registry ⟨b⟩).register name command =
      (.error (Failure.alreadyRegistered name).told, registry ⟨b⟩) := by
  simp only [register, Registry.register, Registry.contains, h.lookup bound]
  rfl

/-- **Commands are all registered, or those before the first whose name is taken.** -/
theorem registerAll_cases (h : b.AreDistinct) {commands : Bindings} (hc : commands.AreDistinct) :
    ((∀ e ∈ commands, b.IsFree e.1) ∧
        (registry ⟨b⟩).registerAll commands = (.ok (), registry ⟨b ++ commands⟩)) ∨
      ∃ before e after, commands = before ++ e :: after ∧ (∀ e' ∈ before, b.IsFree e'.1) ∧
        (∃ c, b.Binds e.1 c) ∧
        (registry ⟨b⟩).registerAll commands =
          (.error (Failure.alreadyRegistered e.1).told, registry ⟨b ++ before⟩) := by
  -- Each command that is registered stands before the rest, so the bindings stay arbitrary.
  induction commands generalizing b with
  | nil => exact .inl ⟨List.forall_mem_nil _, by rw [List.append_nil]; rfl⟩
  | cons e rest ih =>
    obtain ⟨name, command⟩ := e
    obtain ⟨keys, apart⟩ := hc
    rw [List.forall_mem_cons] at keys
    rw [List.pairwise_cons] at apart
    rcases b.binds_or_isFree name with ⟨c, bound⟩ | free | ⟨type, fault⟩
    · refine .inr ⟨[], _, rest, rfl, List.forall_mem_nil _, ⟨c, bound⟩, ?_⟩
      rw [registerAll, register_of_binds h bound, List.append_nil]
    · have first : (registry ⟨b⟩).registerAll ((name, command) :: rest) =
          (registry ⟨b ++ [(name, command)]⟩).registerAll rest := by
        rw [registerAll, register_of_isFree free]
      have still : ∀ {e}, Bindings.IsFree (b ++ [(name, command)]) e → b.IsFree e := fun free =>
        ⟨free.1, fun e he => free.2 e (List.mem_append_left _ he)⟩
      rw [first]
      have distinct : Bindings.AreDistinct (b ++ [(name, command)]) :=
        h.append (Bindings.areDistinct_singleton free.1) (List.forall_mem_singleton.mpr free)
      rcases ih distinct ⟨keys.2, apart.2⟩ with
        ⟨all, done⟩ | ⟨before, e, after, rfl, some, bound, done⟩
      · refine .inl ⟨List.forall_mem_cons.mpr ⟨free, fun e he => still (all e he)⟩, ?_⟩
        rw [done, List.append_assoc, List.singleton_append]
      · refine .inr ⟨(name, command) :: before, e, after, rfl,
          List.forall_mem_cons.mpr ⟨free, fun e he => still (some e he)⟩, ?_, ?_⟩
        · obtain ⟨c, e', he', same, hc⟩ := bound
          rcases List.mem_append.mp he' with he' | he'
          · exact ⟨c, e', he', same, hc⟩
          · -- The name is not the one that was just bound, since the commands have different names.
            obtain rfl := List.mem_singleton.mp he'
            have other := apart.1 e (List.mem_append_right _ (List.mem_cons_self ..))
            exact absurd same (by simp [other])
        · rw [done, List.append_assoc, List.singleton_append]
    · exact absurd fault (by simp [keys.1])

end Registrar

end Registering

theorem areDistinct_semaphoreCommands (store : ListStore) (source : SourceRef) :
    Bindings.AreDistinct (semaphoreCommands store source) := by
  refine ⟨?_, ?_⟩
  · simp [semaphoreCommands, Value.keyFault?]
  · have apart : ∀ {s t : String}, s ≠ t → (Value.text s).sameKey (.text t) = false := fun h =>
      Bool.eq_false_iff.mpr fun same => h (Value.text.inj (Value.sameKey_text.mp same))
    refine .cons ?_ (.cons ?_ (.cons ?_ .nil))
    all_goals simp [apart, newCommand, incCommand, decCommand]

/-- The commands have texts for names, which are the same as themselves and as nothing else. -/
theorem sameKey_semaphoreCommands {store : ListStore} {source : SourceRef}
    {e : Value × HostCommand} (h : e ∈ semaphoreCommands store source) {name : Value} :
    e.1.sameKey name = true ↔ e.1 = name := by
  simp only [semaphoreCommands, List.mem_cons, List.not_mem_nil, or_false] at h
  rcases h with rfl | rfl | rfl <;> exact Value.sameKey_text

/-- Something that is done with a registry. -/
inductive Use where
  | register (name : Value) (command : HostCommand)
  /-- The three commands of a store are registered. -/
  | offer (store : ListStore) (source : SourceRef)
  | call (name : Value) (args : List Value)
  | names
  | contains (name : Value)

/-- What a use comes to. -/
inductive Came where
  | registered (result : Except Failure Unit)
  | called (result : Except Failure Value)
  | listed (names : List Value)
  | told (result : Except Failure Bool)

namespace Use

/-- What offered commands come to: a registrar that fails may have changed all the same. -/
def offered (r : Registrar) : Except Failure (Except Failure Unit × Registrar) → Came × Registrar
  | .ok (result, r) => (.registered result, r)
  | .error f => (.registered (.error f), r)

/-- What is done in a use, and the registrar that it leaves. -/
def course (r : Registrar) : Use → Course (Came × Registrar)
  | register name command =>
    let (result, r) := r.register name command
    .done (.registered result, r)
  | offer store source => do
    let result ← Course.perform (r.offer (semaphoreCommands store source))
    return offered r result
  | call name args => do
    let result ← Course.perform (r.call name args)
    return (.called result, r)
  | names => .done (.listed r.names, r)
  | contains name => .done (.told (r.contains name), r)

variable {σ : Type}

/-- The ways in which a use goes where some bindings stand. -/
inductive Goes (answer : (r : Request) → σ → r.Answer × σ) (s : σ) (b : Bindings) :
    Use → Run σ (Came × Registrar) → Prop where
  | registered {name : Value} {command : HostCommand} (free : b.IsFree name) :
    Goes answer s b (register name command)
      ⟨[], (.registered (.ok ()), .registry ⟨b ++ [(name, command)]⟩), s⟩
  | taken {name : Value} {command c : HostCommand} {text : String} (bound : b.Binds name c)
      (shown : name.shown = .ok text) :
    Goes answer s b (register name command)
      ⟨[], (.registered (.error (.alreadyRegistered name)), .registry ⟨b⟩), s⟩
  /-- A name that cannot be written cannot be complained of. -/
  | unwritten {name : Value} {command c : HostCommand} {reason : Refusal} (bound : b.Binds name c)
      (shown : name.shown = .error reason) :
    Goes answer s b (register name command)
      ⟨[], (.registered (.error (.ofRefusal reason)), .registry ⟨b⟩), s⟩
  | unkeyed {name : Value} {command : HostCommand} {type : String}
      (fault : name.keyFault? = some type) :
    Goes answer s b (register name command)
      ⟨[], (.registered (.error (.unhashable type)), .registry ⟨b⟩), s⟩
  | offered {store : ListStore} {source : SourceRef} {record : Record}
      (free : ∀ e ∈ semaphoreCommands store source, b.IsFree e.1)
      (shown : record =
        .registered (Registrar.shown (.registry ⟨b ++ semaphoreCommands store source⟩))) :
    Goes answer s b (offer store source)
      ⟨[.answer (.log record) ()],
        (.registered (.ok ()), .registry ⟨b ++ semaphoreCommands store source⟩),
        (answer (.log record) s).2⟩
  | cut {store : ListStore} {source : SourceRef} {before after : Bindings} {e : Value × HostCommand}
      {c : HostCommand} (split : semaphoreCommands store source = before ++ e :: after)
      (free : ∀ e' ∈ before, b.IsFree e'.1) (bound : b.Binds e.1 c) :
    Goes answer s b (offer store source)
      ⟨[], (.registered (.error (.alreadyRegistered e.1)), .registry ⟨b ++ before⟩), s⟩
  | called {name : Value} {args : List Value} {c : HostCommand} {ran : Run σ (Except Failure Value)}
      (bound : b.Binds name c) (runs : ran = (Course.perform (c.run args)).run answer s) :
    Goes answer s b (call name args) ⟨ran.events, (.called ran.result, .registry ⟨b⟩), ran.state⟩
  | unknown {name : Value} {args : List Value} (free : b.IsFree name) :
    Goes answer s b (call name args)
      ⟨[], (.called (.error (.unknownCommand name)), .registry ⟨b⟩), s⟩
  | uncalled {name : Value} {args : List Value} {type : String}
      (fault : name.keyFault? = some type) :
    Goes answer s b (call name args)
      ⟨[], (.called (.error (.unhashable type)), .registry ⟨b⟩), s⟩
  | listed : Goes answer s b names ⟨[], (.listed (b.map (·.1)), .registry ⟨b⟩), s⟩
  | present {name : Value} {c : HostCommand} (bound : b.Binds name c) :
    Goes answer s b (contains name) ⟨[], (.told (.ok true), .registry ⟨b⟩), s⟩
  | absent {name : Value} (free : b.IsFree name) :
    Goes answer s b (contains name) ⟨[], (.told (.ok false), .registry ⟨b⟩), s⟩
  | untold {name : Value} {type : String} (fault : name.keyFault? = some type) :
    Goes answer s b (contains name) ⟨[], (.told (.error (.unhashable type)), .registry ⟨b⟩), s⟩

variable {answer : (r : Request) → σ → r.Answer × σ} {b : Bindings}

/-- What a use has bound, as its result tells: of commands that were offered in vain, those before
    the one that was refused. -/
def bound : Use → Came → Bindings
  | register name command, .registered (.ok ()) => [(name, command)]
  | offer store source, .registered (.ok ()) => semaphoreCommands store source
  | offer store source, .registered (.error (.alreadyRegistered name)) =>
    (semaphoreCommands store source).takeWhile fun e => !e.1.sameKey name
  | _, _ => []

/-- What was registered before the name that was taken is told by that name. -/
theorem bound_of_cut {store : ListStore} {source : SourceRef} {before after : Bindings}
    {e : Value × HostCommand} {c : HostCommand}
    (split : semaphoreCommands store source = before ++ e :: after) (taken : b.Binds e.1 c) :
    (offer store source).bound (.registered (.error (.alreadyRegistered e.1))) = before := by
  obtain ⟨e', _, same, _⟩ := taken
  have self : e.1.sameKey e.1 = true := Value.sameKey_trans (Value.sameKey_symm same) same
  have apart := (areDistinct_semaphoreCommands store source).2
  rw [split] at apart
  have passed : ∀ e' ∈ before, (!e'.1.sameKey e.1) = true := fun e' he' => by
    rw [(List.pairwise_append.mp apart).2.2 e' he' e (List.mem_cons_self ..)]
    rfl
  simp only [bound]
  rw [split, List.takeWhile_append_of_pos passed, List.takeWhile_cons_of_neg (by simp [self]),
    List.append_nil]

/-- **A use adds to the bindings what its result tells, and takes nothing away.** -/
theorem Goes.registrar {u : Use} {s : σ} {ran : Run σ (Came × Registrar)}
    (h : u.Goes answer s b ran) : ran.result.2 = .registry ⟨b ++ u.bound ran.result.1⟩ := by
  cases h with
  | registered | offered => rfl
  | cut split free taken => rw [bound_of_cut split taken]
  | taken | unwritten | unkeyed | called | unknown | uncalled | listed | present | absent | untold =>
    simp only [Use.bound, List.append_nil]

/-- One use after the other. -/
def session (r : Registrar) : List Use → Course (List Came × Registrar)
  | [] => .done ([], r)
  | u :: us => do
    let (came, r) ← u.course r
    let (cames, r) ← session r us
    return (came :: cames, r)

/-- What a caller knows to be bound who remembers what each use came to. -/
def history (uses : List Use) (cames : List Came) : Bindings :=
  (uses.zip cames).flatMap fun e => e.1.bound e.2

end Use

/-! ## Registries -/

namespace Registry

open Use (session history)

variable {σ : Type}

end Registry

end Permits
