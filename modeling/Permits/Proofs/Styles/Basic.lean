/-
  Styles of waiting — the same things for callers that wait on the spot and for those that await.

  Everything a caller holds comes in two styles: an executor, a store, a semaphore, the commands of a
  host.  `inStyle` turns each of them into the one of a given style, and so whole routines
  (`Routine.inStyle`).  What is named after a class changes its name as the class does
  (`Style.relabel`); names that callers made up stay.

  A thing in two styles is one thing: to bring it into a style undoes any style before
  (`inStyle_inStyle`, for each kind of thing).
-/
import Permits.Proofs.Routine

namespace Permits

/-- A class name in some style, where `names` are the names of the class in both; any other name stays
    as it is. -/
def Style.relabel (names : Style → String) (st : Style) (s : String) : String :=
  if s = names .direct ∨ s = names .awaited then names st else s

theorem Style.relabel_relabel (names : Style → String) (a b : Style) (s : String) :
    relabel names a (relabel names b s) = relabel names a s := by
  by_cases h : s = names .direct ∨ s = names .awaited
  · have again : names b = names .direct ∨ names b = names .awaited := by cases b <;> simp
    rw [relabel, relabel, if_pos h, if_pos again, relabel, if_pos h]
  · have same : relabel names b s = s := if_neg h
    rw [same]

/-! ## What callers hold -/

/-- The names of the clients' classes. -/
def Connection.classOf (st : Style) : String := (Connection.mk st none []).className

def Connection.inStyle (st : Style) (c : Connection) : Connection := { c with style := st }

def Executor.inStyle (st : Style) (e : Executor) : Executor :=
  ⟨st.relabel Connection.classOf e.label, st⟩

def ListStore.inStyle (st : Style) (s : ListStore) : ListStore := ⟨s.executor.inStyle st⟩

def Semaphore.inStyle (st : Style) (s : Semaphore) : Semaphore :=
  { s with store := s.store.inStyle st, className := st.relabel classOf s.className }

def Semaphore.Options.inStyle (st : Style) (o : Options) : Options where
  style := st
  store := o.store.map (·.inStyle st)
  client := o.client.map (·.inStyle st)
  timeout := o.timeout
  className := o.className.map (st.relabel classOf)

/-- A host's own functions are what they are. -/
def HostCommand.inStyle (st : Style) : HostCommand → HostCommand
  | new source => .new source
  | inc store => .inc (store.inStyle st)
  | dec store => .dec (store.inStyle st)
  | custom run => .custom run

/-- A table of commands in some style. -/
def HostCommand.tableInStyle (st : Style) (table : List (Value × HostCommand)) :
    List (Value × HostCommand) :=
  table.map fun e => (e.1, e.2.inStyle st)

def Registrar.inStyle (st : Style) : Registrar → Registrar
  | registry r => .registry ⟨HostCommand.tableInStyle st r.table⟩
  | host h => .host { h with table := HostCommand.tableInStyle st h.table }

/-! ## Calls and routines -/

namespace Call

def inStyle (st : Style) : Call → Call
  | push store name entry => .push (store.inStyle st) name entry
  | blockingPop store name timeout => .blockingPop (store.inStyle st) name timeout
  | length store name => .length (store.inStyle st) name
  | release store name => .release (store.inStyle st) name
  | acquire store name duration => .acquire (store.inStyle st) name duration
  | create options name => .create (options.inStyle st) name
  | mint options source count => .mint (options.inStyle st) source count
  | value s => .value (s.inStyle st)
  | locked s => .locked (s.inStyle st)
  | acquirePermit s blocking timeout => .acquirePermit (s.inStyle st) blocking timeout
  | releasePermits s count => .releasePermits (s.inStyle st) count
  | enter s => .enter (s.inStyle st)
  | exit s => .exit (s.inStyle st)
  | register r store source => .register (r.inStyle st) (store.inStyle st) source
  | command r name args => .command (r.inStyle st) name args

/-- The result of a call in some style, in the direct style. -/
def plain (st : Style) : (c : Call) → (c.inStyle st).Result → c.Result
  | create .., s | mint .., s => s.inStyle .direct
  | register .., (result, r) => (result, r.inStyle .direct)
  | push .., r | blockingPop .., r | length .., r | release .., r | acquire .., r | value _, r
  | locked _, r | acquirePermit .., r | releasePermits .., r | enter _, r | exit _, r
  | command .., r => r

/-- The result of a call as that of the call in some style. -/
def restyle (st : Style) : (c : Call) → c.Result → (c.inStyle st).Result
  | create .., s | mint .., s => s.inStyle st
  | register .., (result, r) => (result, r.inStyle st)
  | push .., r | blockingPop .., r | length .., r | release .., r | acquire .., r | value _, r
  | locked _, r | acquirePermit .., r | releasePermits .., r | enter _, r | exit _, r
  | command .., r => r

end Call

/-- The same program in some style.  What it decides on is the direct form of each result. -/
def Routine.inStyle (st : Style) : Routine → Routine
  | ends result => ends result
  | call c next => call (c.inStyle st) fun r => (next (r.map (c.plain st))).inStyle st
  | within s body next => within (s.inStyle st) (body.inStyle st) fun r => (next r).inStyle st

/-! ## Events -/

def Record.inStyle (st : Style) : Record → Record
  | pushed _ name reply => .pushed st name reply
  | r => r

def Moment.inStyle (st : Style) : Moment → Moment
  | opened s => .opened (s.inStyle st)
  | entered s => .entered (s.inStyle st)
  | left s r => .left (s.inStyle st) r
  | closed s r => .closed (s.inStyle st) r
  | returned c r => .returned (c.inStyle st) (r.map (c.restyle st))

def Course.Event.inStyle (st : Style) : Course.Event → Course.Event
  | .answer (.command e c) a => .answer (.command (e.inStyle st) c) a
  | .answer (.connect c) a => .answer (.connect (c.inStyle st)) a
  | .answer (.log r) a => .answer (.log (r.inStyle st)) a
  | .answer r a => .answer r a
  | .moment m => .moment (m.inStyle st)

/-! ## One thing in two styles -/

theorem Executor.inStyle_inStyle (a b : Style) (e : Executor) :
    (e.inStyle a).inStyle b = e.inStyle b :=
  congrArg (Executor.mk · b) (Style.relabel_relabel ..)

theorem ListStore.inStyle_inStyle (a b : Style) (s : ListStore) :
    (s.inStyle a).inStyle b = s.inStyle b :=
  congrArg ListStore.mk (Executor.inStyle_inStyle ..)

theorem Semaphore.inStyle_inStyle (a b : Style) (s : Semaphore) :
    (s.inStyle a).inStyle b = s.inStyle b := by
  unfold inStyle
  simp only [ListStore.inStyle_inStyle, Style.relabel_relabel]

theorem Semaphore.Options.inStyle_inStyle (a b : Style) (o : Options) :
    (o.inStyle a).inStyle b = o.inStyle b := by
  unfold inStyle
  simp [Function.comp_def, ListStore.inStyle_inStyle, Executor.inStyle_inStyle,
    Style.relabel_relabel]

theorem HostCommand.inStyle_inStyle (a b : Style) (c : HostCommand) :
    (c.inStyle a).inStyle b = c.inStyle b := by
  cases c with
  | new | custom => rfl
  | inc store => exact congrArg HostCommand.inc (ListStore.inStyle_inStyle ..)
  | dec store => exact congrArg HostCommand.dec (ListStore.inStyle_inStyle ..)

theorem HostCommand.tableInStyle_tableInStyle (a b : Style) (table : List (Value × HostCommand)) :
    tableInStyle b (tableInStyle a table) = tableInStyle b table := by
  simp [tableInStyle, HostCommand.inStyle_inStyle]

theorem Registrar.inStyle_inStyle (a b : Style) (r : Registrar) :
    (r.inStyle a).inStyle b = r.inStyle b := by
  cases r with
  | registry r => simp [inStyle, HostCommand.tableInStyle_tableInStyle]
  | host h => simp [inStyle, HostCommand.tableInStyle_tableInStyle]

theorem Call.inStyle_inStyle (a b : Style) (c : Call) : (c.inStyle a).inStyle b = c.inStyle b := by
  cases c <;> simp [inStyle, ListStore.inStyle_inStyle, Semaphore.inStyle_inStyle,
    Semaphore.Options.inStyle_inStyle, Registrar.inStyle_inStyle]

/-- Two stores that are one and the same in the direct style, each in a style of its own. -/
structure ListStore.Twins (a b : Style) (s s' : ListStore) : Prop where
  same : s.inStyle .direct = s'.inStyle .direct
  left : s.style = a
  right : s'.style = b

/-- Two semaphores likewise. -/
structure Semaphore.Twins (a b : Style) (s s' : Semaphore) : Prop where
  same : s.inStyle .direct = s'.inStyle .direct
  left : s.store.style = a
  right : s'.store.style = b

/-- A store in two styles. -/
theorem ListStore.twins (a b : Style) (s : ListStore) : Twins a b (s.inStyle a) (s.inStyle b) :=
  ⟨(s.inStyle_inStyle ..).trans (s.inStyle_inStyle ..).symm, rfl, rfl⟩

/-! ## Registrars in some style -/

/-- A name is bound to the same command in another style. -/
theorem lookup_tableInStyle (st : Style) (table : List (Value × HostCommand)) (name : Value) :
    lookup (HostCommand.tableInStyle st table) name =
      (lookup table name).map (·.map (·.inStyle st)) := by
  unfold lookup
  cases name.keyFault? with
  | some type => rfl
  | none => simp [HostCommand.tableInStyle, List.find?_map, Function.comp_def, Except.map]

theorem Registry.register_inStyle (st : Style) (r : Registry) (name : Value) (c : HostCommand) :
    Registry.register ⟨HostCommand.tableInStyle st r.table⟩ name (c.inStyle st) =
      (r.register name c).map fun r => ⟨HostCommand.tableInStyle st r.table⟩ := by
  unfold Registry.register Registry.contains
  rw [lookup_tableInStyle]
  cases lookup r.table name with
  | error f => rfl
  | ok found =>
    cases found with
    | some c => rfl
    | none =>
      show Except.ok (Registry.mk (HostCommand.tableInStyle st r.table ++ [(name, c.inStyle st)])) =
        Except.ok (Registry.mk (HostCommand.tableInStyle st (r.table ++ [(name, c)])))
      simp [HostCommand.tableInStyle]

theorem Host.register_inStyle (st : Style) (h : Host) (name : Value) (c : HostCommand) :
    Host.register { h with table := HostCommand.tableInStyle st h.table } name (c.inStyle st) =
      ((h.register name c).1,
        { (h.register name c).2 with
          table := HostCommand.tableInStyle st (h.register name c).2.table }) := by
  unfold Host.register
  have refuses : Host.refuses { h with table := HostCommand.tableInStyle st h.table } = h.refuses := rfl
  rw [refuses]
  cases h.refuses with
  | some f => rfl
  | none =>
    simp only [lookup_tableInStyle]
    cases lookup h.table name with
    | error f => rfl
    | ok found => rfl

namespace Registrar

variable (st : Style) (r : Registrar)

theorem command_inStyle (name : Value) :
    (r.inStyle st).command name = (r.command name).map (·.inStyle st) := by
  cases r with
  | registry r =>
    show Registry.command ⟨HostCommand.tableInStyle st r.table⟩ name = (r.command name).map _
    unfold Registry.command
    rw [lookup_tableInStyle]
    cases lookup r.table name with
    | error f => rfl
    | ok found => cases found <;> rfl
  | host h =>
    show Host.command { h with table := HostCommand.tableInStyle st h.table } name =
      (h.command name).map _
    unfold Host.command
    rw [lookup_tableInStyle]
    cases lookup h.table name with
    | error f => rfl
    | ok found => cases found <;> rfl

theorem register_inStyle (name : Value) (c : HostCommand) :
    (r.inStyle st).register name (c.inStyle st) =
      ((r.register name c).1, (r.register name c).2.inStyle st) := by
  cases r with
  | registry r =>
    unfold register inStyle
    simp only [Registry.register_inStyle]
    cases r.register name c <;> rfl
  | host h =>
    unfold register inStyle
    simp only [Host.register_inStyle]

theorem registerAll_inStyle (commands : List (Value × HostCommand)) :
    (r.inStyle st).registerAll (HostCommand.tableInStyle st commands) =
      ((r.registerAll commands).1, (r.registerAll commands).2.inStyle st) := by
  induction commands generalizing r with
  | nil => rfl
  | cons e rest ih =>
    obtain ⟨name, c⟩ := e
    show (r.inStyle st).registerAll ((name, c.inStyle st) :: HostCommand.tableInStyle st rest) = _
    rw [registerAll, registerAll, register_inStyle]
    cases h : r.register name c with
    | mk result r' =>
      cases result with
      | ok u => exact ih r'
      | error f => rfl

theorem shown_inStyle : (r.inStyle st).shown = r.shown := by
  cases r with
  | host h => rfl
  | registry r =>
    have names : Registry.names ⟨HostCommand.tableInStyle st r.table⟩ = r.names := by
      simp [Registry.names, HostCommand.tableInStyle]
    show Registry.shown ⟨HostCommand.tableInStyle st r.table⟩ = r.shown
    unfold Registry.shown
    rw [names]

end Registrar

end Permits
