/-
  Outlets — the commands of a store, wherever they are called.

  A store's commands may be registered with any number of registrars, local ones and hosts, and
  callers may call them now here and now there.  That adds nothing to what the commands do:

  1. **Outlets** (`Outlet`): a registrar with which a store's commands have been registered, or the
     functions that were handed to a host.
  2. **Plain calls** (`plain`): the operation that stands behind a name and arguments, without
     any registrar.
  3. **Callers** (`Caller`): programs that call commands, each where they like and with whatever
     arguments, and go on with what the calls come to.

  **The crux** is that a registrar finds the command that was registered (`command_register`): a
  local one does not bind a name twice, and a host lets the latest binding win.  Then a caller's
  course through the outlets is the course of plain calls (`Caller.through_eq_plainly`).
-/
import Permits.Proofs.Registration

namespace Permits

/-! ## What a registrar finds -/

section Lookup

variable {n m : Value} {c : HostCommand}

theorem Host.command_register {h h' : Host} (hr : h.register n c = (.ok (), h'))
    (hm : m.keyFault? = none) : h'.command m = if n.sameKey m then .ok c else h.command m := by
  unfold register at hr
  split at hr
  · cases hr
  · dsimp only at hr
    split at hr
    · cases hr
    · cases hr
      simp only [command, Bindings.lookup_of_key hm, List.find?_cons]
      cases n.sameKey m <;> rfl

theorem Registry.command_register {r r' : Registry} (hr : r.register n c = .ok r')
    (hm : m.keyFault? = none) : r'.command m = if n.sameKey m then .ok c else r.command m := by
  obtain ⟨found, rfl⟩ : lookup r.table n = .ok none ∧ r' = ⟨r.table ++ [(n, c)]⟩ := by
    unfold register contains at hr
    cases hl : lookup r.table n with
    | error f =>
      rw [hl] at hr
      cases hr
    | ok found =>
      rw [hl] at hr
      cases found with
      | some c => cases hr
      | none =>
        cases hr
        exact ⟨rfl, rfl⟩
  simp only [command, Bindings.lookup_of_key hm, List.find?_append, List.find?_singleton]
  cases same : n.sameKey m with
  | false =>
    simp only [Bool.false_eq_true, if_false, Option.or_none]
  | true =>
    -- An earlier binding of the name would have been one of the name that was registered.
    have earlier : r.table.find? (fun e => e.1.sameKey m) = none := by
      rw [lookup, Value.keyFault?_congr same, hm] at found
      have unbound := List.find?_eq_none.mp (Option.map_eq_none_iff.mp (Except.ok.inj found))
      exact List.find?_eq_none.mpr fun e he hs =>
        unbound e he (Value.sameKey_trans hs (Value.sameKey_symm same))
    rw [earlier]
    rfl

namespace Registrar

/-- What cannot be a key is nowhere found. -/
theorem command_of_fault {type : String} (h : m.keyFault? = some type) (r : Registrar) :
    r.command m = .error (.unhashable type) := by
  cases r with
  | registry r =>
    rw [command, Registry.command, Bindings.lookup_of_fault h]
    rfl
  | host h' =>
    rw [command, Host.command, Bindings.lookup_of_fault h]
    rfl

/-- **Once a command is registered it is found, and everything else is found as before.** -/
theorem command_register {r r' : Registrar} (h : r.register n c = (.ok (), r'))
    (hm : m.keyFault? = none) : r'.command m = if n.sameKey m then .ok c else r.command m := by
  cases r with
  | host h' =>
    obtain ⟨hr, rfl⟩ := Prod.mk.inj h
    exact Host.command_register (Prod.ext hr rfl) hm
  | registry r =>
    simp only [register] at h
    cases hr : r.register n c with
    | error f =>
      rw [hr] at h
      cases h
    | ok r =>
      rw [hr] at h
      cases h
      exact Registry.command_register hr hm

/-- Of commands with different names, registered one after the other, each is found, and everything
    else as before. -/
theorem command_registerAll {commands : List (Value × HostCommand)}
    (apart : commands.Pairwise fun e e' => e.1.sameKey e'.1 = false) {r r' : Registrar}
    (h : r.registerAll commands = (.ok (), r')) (hm : m.keyFault? = none) :
    r'.command m =
      match commands.find? fun e => e.1.sameKey m with
      | some e => .ok e.2
      | none => r.command m := by
  induction commands generalizing r with
  | nil =>
    cases h
    rfl
  | cons e rest ih =>
    obtain ⟨n, c⟩ := e
    obtain ⟨first, apart⟩ := List.pairwise_cons.mp apart
    rw [registerAll] at h
    cases hr : r.register n c with
    | mk result next =>
    rw [hr] at h
    cases result with
    | error f => cases h
    | ok u =>
      rw [ih apart h, command_register hr hm, List.find?_cons]
      cases same : n.sameKey m with
      | false => rfl
      | true =>
        have later : rest.find? (fun e => e.1.sameKey m) = none :=
          List.find?_eq_none.mpr fun e he hs => absurd
            (Value.sameKey_trans same (Value.sameKey_symm hs)) (by simp [first e he])
        rw [later]
        rfl

end Registrar

end Lookup

/-! ## Plain calls -/

section Plain

variable (store : ListStore) (source : SourceRef)

/-- What a text stands for without any registrar: a name is minted, a permit is released, or one is
    acquired. -/
def plainText (s : String) (args : List Value) : Op Value :=
  if s = newCommand then
    match args with
    | [] => do return .text (← Identifier.mint source)
    | _ => .fail .wrongArguments
  else if s = incCommand then
    match args with
    | [name] => (Call.release store name).op
    | _ => .fail .wrongArguments
  else if s = decCommand then
    match args with
    | [name, duration] => (Call.acquire store name duration).op
    | _ => .fail .wrongArguments
  else .fail (.unknownCommand (.text s))

/-- What a name stands for without any registrar. -/
def plain (name : Value) (args : List Value) : Op Value :=
  match name.keyFault?, name with
  | some type, _ => .fail (.unhashable type)
  | none, .text s => plainText store source s args
  | none, name => .fail (.unknownCommand name)

/-- How many arguments each command takes. -/
def arities : List (String × Nat) := [(newCommand, 0), (incCommand, 1), (decCommand, 2)]

variable {store source}

theorem plain_of_length_ne {a : String × Nat} (h : a ∈ arities) {args : List Value}
    (hl : args.length ≠ a.2) : plain store source (.text a.1) args = .fail .wrongArguments := by
  simp only [arities, List.mem_cons, List.not_mem_nil, or_false] at h
  rcases h with rfl | rfl | rfl
  · cases args with
    | nil => exact absurd rfl hl
    | cons => rfl
  · rcases args with _ | ⟨name, _ | ⟨more, rest⟩⟩
    · rfl
    · exact absurd rfl hl
    · rfl
  · rcases args with _ | ⟨name, _ | ⟨duration, _ | ⟨more, rest⟩⟩⟩
    · rfl
    · rfl
    · exact absurd rfl hl
    · rfl

/-- What the name of a command stands for is the command. -/
theorem plain_of_mem {e : Value × HostCommand} (h : e ∈ semaphoreCommands store source)
    (args : List Value) : plain store source e.1 args = e.2.run args := by
  simp only [semaphoreCommands, List.mem_cons, List.not_mem_nil, or_false] at h
  rcases h with rfl | rfl | rfl
  · cases args <;> rfl
  · rcases args with _ | ⟨name, _ | ⟨more, rest⟩⟩
    · rfl
    · show (Call.release store name).op = (HostCommand.inc store).run [name]
      rw [Call.op_release, HostCommand.run_inc]
    · rfl
  · rcases args with _ | ⟨name, _ | ⟨duration, _ | ⟨more, rest⟩⟩⟩
    · rfl
    · rfl
    · exact (HostCommand.run_dec store name duration).symm
    · rfl

/-- Any other name stands for nothing. -/
theorem plain_of_forall {name : Value} (key : name.keyFault? = none)
    (h : ∀ e ∈ semaphoreCommands store source, e.1 ≠ name) (args : List Value) :
    plain store source name args = .fail (.unknownCommand name) := by
  simp only [semaphoreCommands, List.forall_mem_cons] at h
  cases name with
  | text s =>
    simp only [ne_eq, Value.text.injEq] at h
    show plainText store source s args = _
    unfold plainText
    rw [if_neg (Ne.symm h.1), if_neg (Ne.symm h.2.1), if_neg (Ne.symm h.2.2.1)]
  | _ => simp only [plain, key]

end Plain

/-! ## Outlets -/

/-- Where the commands of a store can be called. -/
inductive Outlet (store : ListStore) (source : SourceRef) where
  /-- Through a registrar with which they have been registered. -/
  | registrar (before after : Registrar)
    (registered : before.registerAll (semaphoreCommands store source) = (.ok (), after))
  /-- As the functions that were handed to a host. -/
  | functions

namespace Outlet

variable {store : ListStore} {source : SourceRef}

/-- Does the outlet say what a name means?  A local registry that was new has a word for every name;
    elsewhere there may be other commands. -/
def Serves (name : Value) : Outlet store source → Prop
  | registrar before _ _ => before = .registry {} ∨ ∃ e ∈ semaphoreCommands store source, e.1 = name
  | functions => ∃ e ∈ semaphoreCommands store source, e.1 = name

/-- A new local registry takes the commands of any store. -/
def fresh (store : ListStore) (source : SourceRef) : Outlet store source :=
  .registrar (.registry {}) (.registry ⟨semaphoreCommands store source⟩) <| by
    rcases Registrar.registerAll_cases Bindings.areDistinct_nil
      (areDistinct_semaphoreCommands store source) with ⟨_, done⟩ | ⟨_, _, _, _, _, ⟨_, e, he, _⟩, _⟩
    · exact done
    · cases he

/-- A call by name. -/
def call (name : Value) (args : List Value) : Outlet store source → Op Value
  | registrar _ after _ => after.call name args
  | functions =>
    match (semaphoreCommands store source).find? fun e => e.1.sameKey name with
    | some e => e.2.run args
    | none => .fail (.unknownCommand name)

/-- A command that is found by a name is what the name stands for. -/
theorem run_of_find {name : Value} {e : Value × HostCommand}
    (h : (semaphoreCommands store source).find? (fun e => e.1.sameKey name) = some e)
    (args : List Value) : e.2.run args = plain store source name args := by
  have mem := List.mem_of_find?_eq_some h
  have same := List.find?_some h
  rw [← (sameKey_semaphoreCommands mem).mp same, plain_of_mem mem]

/-- A name by which no command is found is the name of none. -/
theorem ne_of_find {name : Value}
    (h : (semaphoreCommands store source).find? (fun e => e.1.sameKey name) = none) :
    ∀ e ∈ semaphoreCommands store source, e.1 ≠ name :=
  fun e he hn => List.find?_eq_none.mp h e he ((sameKey_semaphoreCommands he).mpr hn)

/-- **An outlet adds nothing to a call.** -/
theorem call_eq_plain (o : Outlet store source) {name : Value} (h : o.Serves name)
    (args : List Value) : o.call name args = plain store source name args := by
  cases o with
  | functions =>
    obtain ⟨e, he, hn⟩ := h
    simp only [call]
    split
    · next found => exact run_of_find found args
    · next found => exact absurd hn (ne_of_find found e he)
  | registrar before after registered =>
    show after.call name args = _
    cases key : name.keyFault? with
    | some type =>
      rw [Registrar.call, Registrar.command_of_fault key]
      simp only [plain, key]
      rfl
    | none =>
      rw [Registrar.call, Registrar.command_registerAll (areDistinct_semaphoreCommands _ _).2
        registered key]
      split
      · next found => exact run_of_find found args
      · next found =>
        rcases h with rfl | ⟨e, he, hn⟩
        · rw [plain_of_forall key (ne_of_find found)]
          show Op.ofExcept (Registry.command {} name) >>= _ = _
          rw [Registry.command, Bindings.lookup_of_key key]
          rfl
        · exact absurd hn (ne_of_find found e he)

/-- The names of the commands are served everywhere. -/
theorem serves_of_mem (o : Outlet store source) {a : String × Nat} (h : a ∈ arities) :
    o.Serves (.text a.1) := by
  have named : ∃ e ∈ semaphoreCommands store source, e.1 = .text a.1 := by
    simp only [arities, List.mem_cons, List.not_mem_nil, or_false] at h
    rcases h with rfl | rfl | rfl
    · exact ⟨_, .head _, rfl⟩
    · exact ⟨_, .tail _ (.head _), rfl⟩
    · exact ⟨_, .tail _ (.tail _ (.head _)), rfl⟩
  cases o with
  | registrar before after registered => exact .inr named
  | functions => exact named

end Outlet

/-! ## Callers -/

/-- A program that calls commands, each through an outlet. -/
inductive Caller where
  | ends
  | call {store : ListStore} {source : SourceRef} (outlet : Outlet store source) (name : Value)
      (serves : outlet.Serves name) (args : List Value) (next : Except Failure Value → Caller)

namespace Caller

/-- What a caller does through the outlets, and what each call comes to. -/
def through : Caller → Course (List (Except Failure Value))
  | ends => .done []
  | call o name _ args next => do
    let result ← Course.perform (o.call name args)
    let results ← (next result).through
    return result :: results

/-- What it does without them. -/
def plainly : Caller → Course (List (Except Failure Value))
  | ends => .done []
  | @call store source _ name _ args next => do
    let result ← Course.perform (plain store source name args)
    let results ← (next result).plainly
    return result :: results

theorem through_eq_plainly (p : Caller) : p.through = p.plainly := by
  induction p with
  | ends => rfl
  | call o name serves args next ih => simp only [through, plainly, o.call_eq_plain serves, ih]

/-- **Registered commands are what they stand for**: a caller gets the same by plain calls, whatever
    the surroundings answer, with the same requests in the same order.  With a wrong number of
    arguments a call fails and requests nothing, and so it does in a local registry with a name
    that nothing is registered under; in one with the commands of a store alone those are all names
    but theirs. -/
theorem adds_nothing {σ : Type} (answer : (r : Request) → σ → r.Answer × σ) (s : σ) :
    (∀ p : Caller, p.through.run answer s = p.plainly.run answer s) ∧
    (∀ {store : ListStore} {source : SourceRef} (o : Outlet store source) (args : List Value),
      ∀ a ∈ arities, args.length ≠ a.2 →
        (Course.perform (o.call (.text a.1) args)).run answer s =
          ⟨[], .error .wrongArguments, s⟩) ∧
    (∀ (r : Registry) (name : Value), Bindings.IsFree r.table name → ∀ args,
      (Course.perform (Registrar.call (.registry r) name args)).run answer s =
        ⟨[], .error (.unknownCommand name), s⟩) ∧
    ∀ (store : ListStore) (source : SourceRef) (name : Value), name.keyFault? = none →
      (∀ e ∈ semaphoreCommands store source, e.1 ≠ name) → ∀ args,
        (Course.perform ((Outlet.fresh store source).call name args)).run answer s =
          ⟨[], .error (.unknownCommand name), s⟩ := by
  refine ⟨fun p => ?_, fun o args a ha hl => ?_, fun r name free args => ?_,
    fun store source name key others args => ?_⟩
  · rw [p.through_eq_plainly]
  · rw [o.call_eq_plain (o.serves_of_mem ha), plain_of_length_ne ha hl]
    rfl
  · rw [Registrar.call, Registrar.command, Registry.command, free.lookup]
    rfl
  · have serves : (Outlet.fresh store source).Serves name := .inl rfl
    rw [Outlet.call_eq_plain _ serves, plain_of_forall key others]
    rfl

end Caller

end Permits
