/-
  Conduct — a run of a routine, call by call.

  A run is one row of events, and each call of the routine contributed a stretch of it; so did the
  entering and the leaving of each block.  What is true of every single call, whatever it is answered,
  is therefore true of each stretch of every run, however long.

  1. **Commands** (`commands`): what a row of events sent, and the account of it.
  2. **Own calls** (`Call.IsOwn`): a host may have registered functions of its own, of which nothing
     is known.  Every other command comes down to one of four operations (`Registrar.call_cases`).
  3. **Results** (`Op.Returns`): what every result is like that an operation can end well with.
  4. **Rules** (`Rule`, `Routine.Obeys`): the events of a run, cut into stretches that belong to the
     routine's calls in the order in which it makes them, each as the rule says.
  5. **Runs** (`Routine.run_obeys`): if every call goes by the rule, every run obeys it.
-/
import Permits.Proofs.Account.Commands

namespace Permits

open Course (Event)

/-! ## Commands -/

/-- Is a request a command? -/
def Request.isCommand : Request → Bool
  | command .. => true
  | clock | log _ | draw .. | connect _ => false

/-- The command that an event answers. -/
def Course.Event.command? : Event → Option Command
  | .answer (.command _ c) _ => some c
  | _ => none

/-- The commands that were sent, in order. -/
def commands (events : List Event) : List Command := events.filterMap Event.command?

theorem commands_append (events later : List Event) :
    commands (events ++ later) = commands events ++ commands later :=
  List.filterMap_append

/-- The account of the commands that were sent. -/
def Ledger.commands : Ledger (List Command) where
  update g e := g ++ e.command?.toList
  quiet g r a h := by
    cases r with
    | command | log => cases h
    | clock | draw | connect => exact List.append_nil g

theorem Ledger.read_commands (g : List Command) (events : List Event) :
    Ledger.commands.read g events = g ++ Permits.commands events := by
  induction events generalizing g with
  | nil => exact (List.append_nil g).symm
  | cons e events ih =>
    rw [read, List.foldl_cons, ← read, ih]
    show g ++ e.command?.toList ++ _ = _
    rw [List.append_assoc, Permits.commands, Permits.commands]
    cases he : e.command? with
    | none => rw [List.filterMap_cons_none he, Option.toList_none, List.nil_append]
    | some c => rw [List.filterMap_cons_some he, Option.toList_some, List.singleton_append]

/-- What sends nothing leaves the account of commands as it is. -/
theorem Op.Sends.always_commands {α : Type} {admits : (r : Request) → r.Answer → Prop}
    {inv : List Command → Prop} {op : Op α} (h : op.Sends fun _ => False) {g : List Command}
    (hg : inv g) :
    (Course.perform op).Always admits .commands inv (fun _ g' => g' = g) g := by
  refine Course.always_of_all (I := (· = g)) h (fun g' r a hr _ hg' => ?_) ?_ rfl
  · rw [← hg']
    cases r with
    | command x c => exact hr.elim
    | clock | draw | connect | log => exact List.append_nil g'
  · rintro _ rfl
    exact hg

/-- What sends such commands only leaves an account of such commands. -/
theorem Op.Sends.always_forall {α : Type} {admits : (r : Request) → r.Answer → Prop}
    {inv : List Command → Prop} {Q : Command → Prop} {op : Op α} (h : op.Sends Q)
    (hi : ∀ g, (∀ c ∈ g, Q c) → inv g) {g : List Command} (hg : ∀ c ∈ g, Q c) :
    (Course.perform op).Always admits .commands inv (fun _ g' => ∀ c ∈ g', Q c) g := by
  refine Course.always_of_all h (fun g' r a hr _ hg' => ?_) hi hg
  cases r with
  | command x c =>
    intro c' hc'
    rcases List.mem_append.mp hc' with hm | hm
    · exact hg' c' hm
    · obtain rfl := List.mem_singleton.mp hm
      exact hr
  | clock | draw | connect | log =>
    show ∀ c ∈ g' ++ [], Q c
    rw [List.append_nil]
    exact hg'

/-! ## Own calls -/

/-- Is a call an operation of this library, and not a function that a host has of its own? -/
def Call.IsOwn : Call → Prop
  | command r name _ => ∀ run, r.command name ≠ .ok (.custom run)
  | _ => True

/-- What a command comes down to that is not a host's own: a failure, a new name, a release, or an
    acquire. -/
theorem Registrar.call_cases {motive : Op Value → Prop} {r : Registrar} {name : Value}
    {args : List Value} (own : (Call.command r name args).IsOwn)
    (failed : ∀ f, motive (.fail f))
    (new : ∀ source, r.command name = .ok (.new source) →
      motive (do return .text (← Identifier.mint source)))
    (inc : ∀ store n, r.command name = .ok (.inc store) → args = [n] →
      motive (.named n (release store)))
    (dec : ∀ store n d, r.command name = .ok (.dec store) → args = [n, d] →
      motive (acquireNamed store n d)) :
    motive (r.call name args) := by
  unfold Registrar.call
  cases hc : r.command name with
  | error f => exact failed f
  | ok c =>
    show motive (c.run args)
    cases c with
    | custom run => exact absurd hc (own run)
    | new source =>
      cases args with
      | nil => exact new source hc
      | cons => exact failed _
    | inc store =>
      match args with
      | [] | _ :: _ :: _ => exact failed _
      | [n] =>
        rw [HostCommand.run_inc]
        exact inc store n hc rfl
    | dec store =>
      match args with
      | [] | [_] | _ :: _ :: _ :: _ => exact failed _
      | [n, d] =>
        rw [HostCommand.run_dec]
        exact dec store n d hc rfl

/-! ## Results -/

namespace Op

variable {α β : Type} {P P' : α → Prop} {Q : β → Prop}

/-- Is an operation's result of some kind whenever it ends well? -/
def Returns (P : α → Prop) : Op α → Prop
  | done (.ok a) => P a
  | done (.error _) => True
  | ask _ next => ∀ a, (next a).Returns P

theorem Returns.ends {op : Op α} (h : op.Returns P) {a : α} (ha : op.Ends (.ok a)) : P a := by
  induction op with
  | done result =>
    cases ha
    exact h
  | ask r next ih =>
    obtain ⟨b, hb⟩ := ha
    exact ih b (h b) hb

theorem Returns.mono {op : Op α} (h : op.Returns P) (hp : ∀ a, P a → P' a) : op.Returns P' := by
  induction op with
  | done result =>
    cases result with
    | ok a => exact hp a h
    | error e => trivial
  | ask r next ih => exact fun a => ih a (h a)

theorem Returns.bind {op : Op α} {f : α → Op β} (h : op.Returns P)
    (hf : ∀ a, P a → (f a).Returns Q) : (op >>= f).Returns Q := by
  induction op with
  | done result =>
    cases result with
    | ok a => exact hf a h
    | error e => trivial
  | ask r next ih => exact fun a => ih a (h a)

theorem Returns.attempt {op : Op α} (h : op.Returns P) :
    op.attempt.Returns fun r => ∀ a, r = .ok a → P a := by
  induction op with
  | done result =>
    rintro a rfl
    exact h
  | ask r next ih => exact fun a => ih a (h a)

/-- Whoever waits for a result gets it as it is. -/
theorem Returns.waitedFor {op : Op α} (h : op.Returns P) (style : Style) :
    (op.waitedFor style).Returns P := by
  cases style with
  | direct => exact h
  | awaited =>
    refine h.attempt.bind fun result hr => ?_
    cases result with
    | ok a => exact hr a rfl
    | error f => trivial

theorem Returns.check {result : Except Failure α} {f : α → Op β}
    (h : ∀ a, result = .ok a → (f a).Returns Q) : (ofExcept result >>= f).Returns Q := by
  cases result with
  | ok a => exact h a rfl
  | error e => trivial

theorem returns_of (h : ∀ a, P a) (op : Op α) : op.Returns P := by
  induction op with
  | done result =>
    cases result with
    | ok a => exact h a
    | error e => trivial
  | ask r next ih => exact ih

theorem returns_any (op : Op α) : op.Returns fun _ => True := returns_of (fun _ => trivial) op

end Op

/-! ## Rules -/

/-- What is said of a call, of the events that it brought about, and of its result. -/
abbrev Rule : Type := (c : Call) → List Event → Except Failure c.Result → Prop

/-- How a block goes whose entering and leaving go by a rule and whose body goes as `inner` says. -/
inductive Bracketed (rule : Rule) (s : Semaphore)
    (inner : List Event → Except Failure Unit → Prop) :
    List Event → Except Failure Unit → Prop where
  | missed {entry : List Event} {f : Failure} (enters : rule (.enter s) entry (.error f)) :
      Bracketed rule s inner
        ([.moment (.opened s)] ++ entry ++ [.moment (.closed s (.error f))]) (.error f)
  | ran {entry body exit : List Event} {result exited : Except Failure Unit}
      (enters : rule (.enter s) entry (.ok ())) (runs : inner body result)
      (leaves : rule (.exit s) exit exited) :
      Bracketed rule s inner
        ([.moment (.opened s)] ++ entry ++ [.moment (.entered s)] ++ body ++
          [.moment (.left s result)] ++ exit ++
          [.moment (.closed s (Semaphore.blockResult result exited))])
        (Semaphore.blockResult result exited)

/-- Do the events of a routine fall into stretches, one for each of its calls in order, that go by a
    rule? -/
def Routine.Obeys (rule : Rule) : Routine → List Event → Except Failure Unit → Prop
  | ends result, events, final => events = [] ∧ final = result
  | call c next, events, final => ∃ own rest result,
      events = own ++ [.moment (.returned c result)] ++ rest ∧ rule c own result ∧
        (next result).Obeys rule rest final
  | within s body next, events, final => ∃ own rest result,
      events = own ++ rest ∧ Bracketed rule s (body.Obeys rule) own result ∧
        (next result).Obeys rule rest final

section Members

variable {rule : Rule} {P : Event → Prop}

/-- What is true of the moments of a block and of all events around and inside it is true of all of
    its events. -/
theorem Bracketed.forall_mem {s : Semaphore} {inner : List Event → Except Failure Unit → Prop}
    {events : List Event} {result : Except Failure Unit} (h : Bracketed rule s inner events result)
    (moments : ∀ m, P (.moment m)) (calls : ∀ c own r, rule c own r → ∀ e ∈ own, P e)
    (body : ∀ es r, inner es r → ∀ e ∈ es, P e) : ∀ e ∈ events, P e := by
  have single : ∀ {m : Moment}, ∀ e ∈ [Course.Event.moment m], P e := by
    rintro m e he
    obtain rfl := List.mem_singleton.mp he
    exact moments m
  cases h with
  | missed enters =>
    rw [List.forall_mem_append, List.forall_mem_append]
    exact ⟨⟨single, calls _ _ _ enters⟩, single⟩
  | ran enters runs leaves =>
    simp only [List.forall_mem_append]
    exact ⟨⟨⟨⟨⟨⟨single, calls _ _ _ enters⟩, single⟩, body _ _ runs⟩, single⟩,
      calls _ _ _ leaves⟩, single⟩

/-- What is true of moments and, by the rule, of all events of a call is true of all events. -/
theorem Routine.Obeys.forall_mem {p : Routine} {events : List Event}
    {final : Except Failure Unit} (h : p.Obeys rule events final)
    (moments : ∀ m, P (.moment m)) (calls : ∀ c own r, rule c own r → ∀ e ∈ own, P e) :
    ∀ e ∈ events, P e := by
  induction p generalizing events final with
  | ends result =>
    rw [h.1]
    exact fun e he => nomatch he
  | call c next ih =>
    obtain ⟨own, rest, result, rfl, hown, hrest⟩ := h
    simp only [List.forall_mem_append, List.forall_mem_singleton]
    exact ⟨⟨calls c own result hown, moments _⟩, ih result hrest⟩
  | within s body next ihb ihn =>
    obtain ⟨own, rest, result, rfl, hown, hrest⟩ := h
    rw [List.forall_mem_append]
    exact ⟨hown.forall_mem moments calls fun es r hb => ihb hb, ihn result hrest⟩

end Members

/-! ## Runs -/

section Runs

variable {σ : Type} {answer : (r : Request) → σ → r.Answer × σ}

/-- What a run ends with is one of the ways in which the operation can end. -/
theorem Course.ends_run {α : Type} (answer : (r : Request) → σ → r.Answer × σ) (op : Op α) (s : σ) :
    op.Ends ((perform op).run answer s).result := by
  induction op generalizing s with
  | done result => rfl
  | ask r next ih => exact ⟨_, ih (answer r s).1 (answer r s).2⟩

/-- What an operation may send is all that a run of it sends. -/
theorem Op.Sends.commands_run {α : Type} {Q : Command → Prop} {op : Op α} (h : op.Sends Q)
    (answer : (r : Request) → σ → r.Answer × σ) (s : σ) :
    ∀ c ∈ commands ((Course.perform op).run answer s).events, Q c := by
  have always : (Course.perform op).Always (fun _ _ => True) .commands (fun _ => True)
      (fun _ g => ∀ c ∈ g, Q c) [] :=
    h.always_forall (fun _ _ => trivial) (List.forall_mem_nil _)
  have sent := always.run answer (fun _ _ => trivial) s
  rw [Ledger.read_commands, List.nil_append] at sent
  exact sent

/-- Does every call of some kind go by a rule, from whatever state it is made? -/
def Rule.Covers (rule : Rule) (answer : (r : Request) → σ → r.Answer × σ) (P : Call → Prop) :
    Prop :=
  ∀ c, P c → ∀ s, rule c ((Course.perform c.op).run answer s).events
    ((Course.perform c.op).run answer s).result

variable {rule : Rule}

/-- The run of a block: its entering, and then, if that went well, its body and its leaving. -/
theorem Course.run_block (s : Semaphore) (body : Course (Except Failure Unit)) (t : σ) :
    (Routine.block s body).run answer t =
      ((perform s.enter >>= fun entered => match entered with
        | .error f => mark (.closed s (.error f)) (done (.error f))
        | .ok () => mark (.entered s) (body >>= fun result => mark (.left s result)
            (perform s.exit >>= fun exited =>
              mark (.closed s (Semaphore.blockResult result exited))
                (done (Semaphore.blockResult result exited))))).run answer t).after
        (.moment (.opened s)) := by
  show Run.after _ (((perform s.enter >>= _) >>= _).run answer t) = _
  rw [bind_assoc]
  refine congrArg (fun f => Run.after _ ((perform s.enter >>= f).run answer t)) (funext fun r => ?_)
  cases r with
  | error f => rfl
  | ok u =>
    show mark (.entered s) (((body >>= _) >>= _) >>= _) = _
    simp only [bind_assoc]
    rfl

/-- A block goes by a rule if its entering, its leaving and its body do. -/
theorem Rule.Covers.bracketed (h : rule.Covers answer Call.IsOwn) (s : Semaphore)
    {inner : List Event → Except Failure Unit → Prop} {body : Course (Except Failure Unit)}
    (hb : ∀ t, inner (body.run answer t).events (body.run answer t).result) (t : σ) :
    Bracketed rule s inner ((Routine.block s body).run answer t).events
      ((Routine.block s body).run answer t).result := by
  have enters := h (.enter s) trivial t
  rw [Course.run_block, Course.run_bind]
  change rule (.enter s) ((Course.perform s.enter).run answer t).events
    ((Course.perform s.enter).run answer t).result at enters
  generalize (Course.perform s.enter).run answer t = entry at enters ⊢
  obtain ⟨events, result, state⟩ := entry
  cases result with
  | error f => exact .missed enters
  | ok u =>
    -- The body runs from the state that the entering leaves, and the exit from that of the body.
    have runs := hb state
    have leaves := h (.exit s) trivial (body.run answer state).state
    show Bracketed rule s inner
      (.moment (.opened s) :: (events ++ .moment (.entered s) :: ((body >>= _).run answer state).events))
      ((body >>= _).run answer state).result
    rw [Course.run_bind]
    generalize body.run answer state = ran at runs leaves ⊢
    show Bracketed rule s inner
      (.moment (.opened s) :: (events ++ .moment (.entered s) :: (ran.events ++
        .moment (.left s ran.result) :: ((Course.perform s.exit >>= _).run answer ran.state).events)))
      ((Course.perform s.exit >>= _).run answer ran.state).result
    rw [Course.run_bind]
    have cut := Bracketed.ran enters runs leaves
    simp only [List.append_assoc, List.singleton_append] at cut
    exact cut

/-- **If every call goes by a rule, every run obeys it.** -/
theorem Routine.run_obeys (h : rule.Covers answer Call.IsOwn) {p : Routine}
    (hp : p.Only Call.IsOwn) (s : σ) :
    p.Obeys rule (p.course.run answer s).events (p.course.run answer s).result := by
  induction p generalizing s with
  | ends result => exact ⟨rfl, rfl⟩
  | call c next ih =>
    have own := h c hp.1 s
    have ends := Course.ends_run answer c.op s
    show Routine.Obeys rule (.call c next) ((Course.perform c.op >>= _).run answer s).events
      ((Course.perform c.op >>= _).run answer s).result
    rw [Course.run_bind]
    generalize (Course.perform c.op).run answer s = first at own ends ⊢
    exact ⟨first.events, _, first.result, by rw [List.append_assoc]; rfl, own,
      ih _ (hp.2 _ ends) first.state⟩
  | within s' body next ihb ihn =>
    have own := h.bracketed s' (fun t => ihb hp.1 t) s
    show Routine.Obeys rule (.within s' body next)
      ((Routine.block s' body.course >>= _).run answer s).events
      ((Routine.block s' body.course >>= _).run answer s).result
    rw [Course.run_bind]
    generalize (Routine.block s' body.course).run answer s = first at own ⊢
    exact ⟨first.events, _, first.result, rfl, own, ihn _ (hp.2 _) first.state⟩

end Runs

end Permits
