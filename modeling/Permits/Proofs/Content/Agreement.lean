/-
  Content never matters — lists of one length are as good as each other.

  Two lone callers are in the same setting, but the entries of their lists differ.  Whatever they do, as
  long as they do the same but for payloads (`Routine.Alike`), they go the same way but for content
  (`Routine.content_ignored`): the same requests, the same records, the same results and failures,
  and lists of the same lengths at every step.

  1. **What pops nothing** agrees with itself without more ado (`agrees_of_sends`), since no reply to
     it has any content.
  2. **Pops** (`agrees_blockingPop`): an entry stands against an entry and nothing against nothing, on
     either way of popping.  What is made of the entry only ever asks which of the two it is.
  3. **Calls, blocks and routines** follow, one case for each.

  So an entry is a permit also if it is empty (`acquired_of_entries`).
-/
import Permits.Proofs.Acquiring
import Permits.Proofs.Content.Basic

namespace Permits

open Text Course

/-! ## Requests -/

namespace Setting

variable {x : Setting} {s t : Solo}

/-- A command gets the same reply but for content. -/
theorem call_alike (x : Setting) (h : s.Alike t) {c c' : Command} (hc : c.blank = c'.blank) :
    (x.call c s).1.map c.blankReply = (x.call c' t).1.map c'.blankReply ∧
      (x.call c s).2.Alike (x.call c' t).2 := by
  obtain ⟨lists, looks, drawn, calls⟩ := h
  have counted : s.calls + 1 = t.calls + 1 := congrArg (· + 1) calls
  unfold call
  rw [calls]
  cases x.fails t.calls with
  | some f => exact ⟨rfl, lists, looks, drawn, rfl⟩
  | none =>
    obtain ⟨reply, left⟩ := lists.execute hc
    have given : ∀ (d : Command) (o : Option Value),
        d.blankReply (o.getD .none) = (o.map d.blankReply).getD .none := by
      intro d o
      cases o with
      | none => exact d.blankReply_none
      | some v => rfl
    refine ⟨congrArg Except.ok ?_, left, looks, drawn, rfl⟩
    rw [given, given, reply]

/-- Whatever is no command gets the same answer. -/
theorem answer_alike (x : Setting) (h : s.Alike t) {r : Request} (hr : r.isCommand = false) :
    (x.answer r s).1 = (x.answer r t).1 ∧ (x.answer r s).2.Alike (x.answer r t).2 := by
  obtain ⟨lists, looks, drawn, calls⟩ := h
  cases r with
  | command => cases hr
  | clock => exact ⟨congrArg x.clock looks, lists, congrArg (· + 1) looks, drawn, calls⟩
  | draw => exact ⟨congrArg x.draws drawn, lists, looks, congrArg (· + 1) drawn, calls⟩
  | log | connect => exact ⟨rfl, lists, looks, drawn, calls⟩

end Setting

namespace Content

variable {x : Setting} {α β : Type}

/-- Lists that are alike are noted as the same lengths. -/
theorem noted_congr {seen seen' : List Lists} {l l' : Lists}
    (hs : seen.map Lists.length = seen'.map Lists.length) (hl : l.Alike l') :
    (seen ++ [l]).map Lists.length = (seen' ++ [l']).map Lists.length := by
  have last : Lists.length l = Lists.length l' := funext hl.length
  rw [List.map_append, List.map_append, hs, List.map_singleton, List.map_singleton, last]

theorem agrees_command {R : α → β → Prop} {y : Executor} {c c' : Command}
    (hc : c.blank = c'.blank) {next : Except Failure Value → Course α}
    {next' : Except Failure Value → Course β}
    (h : ∀ a a', a.map c.blankReply = a'.map c'.blankReply →
      (next a).Agrees (contents x) R (next' a')) :
    (ask (.command y c) next).Agrees (contents x) R (ask (.command y c') next') := by
  refine agrees_ask fun s t hs => ?_
  obtain ⟨reply, state⟩ := x.call_alike hs.1 hc
  refine ⟨?_, ⟨state, noted_congr hs.2 state.lists⟩, h _ _ reply⟩
  show Event.answer (.command y c.blank) ((x.call c s.1).1.map c.blankReply) =
    Event.answer (.command y c'.blank) ((x.call c' t.1).1.map c'.blankReply)
  rw [reply, hc]

theorem agrees_other {R : α → β → Prop} {r : Request} (hr : r.isCommand = false)
    {next : r.Answer → Course α} {next' : r.Answer → Course β}
    (h : ∀ a, (next a).Agrees (contents x) R (next' a)) :
    (ask r next).Agrees (contents x) R (ask r next') := by
  refine agrees_ask fun s t hs => ?_
  obtain ⟨same, state⟩ := x.answer_alike hs.1 hr
  have watched : ((contents x).left r s).1 = ((contents x).right r t).1 := same
  refine ⟨by rw [watched], ⟨state, noted_congr hs.2 state.lists⟩, ?_⟩
  rw [watched]
  exact h _

/-- **What pops nothing agrees with itself.** -/
theorem agrees_of_sends {op : Op α} (h : op.Sends fun c => c.isPop = false) :
    (perform op).Agrees (contents x) (Both Eq) (perform op) := by
  induction op with
  | done result => exact agrees_done (Both.refl (fun _ => rfl) result)
  | ask r next ih =>
    cases r with
    | clock | log | draw | connect => exact agrees_other rfl fun a => ih a (h.2 a)
    | command y c =>
      refine agrees_command rfl fun a a' ha => ?_
      -- The reply to anything but a pop has no content.
      have plain : ∀ b : Except Failure Value, b.map c.blankReply = b := by
        intro b
        cases b with
        | error f => rfl
        | ok v => exact congrArg Except.ok (c.blankReply_of_not_isPop h.1 v)
      rw [plain, plain] at ha
      subst ha
      exact ih a (h.2 a)

theorem agrees_log (record : Record) :
    (perform (.log record)).Agrees (contents x) (Both Eq) (perform (.log record)) :=
  agrees_of_sends (Op.sends_log record)

/-! ## Stores -/

section Stores

variable {s : ListStore}

/-- A failure reaches two callers of one style alike. -/
theorem both_received {c c' : Command} {a a' : Except Failure Value}
    (h : a.map c.blankReply = a'.map c'.blankReply) (style : Style) :
    Both (fun v w => c.blankReply v = c'.blankReply w) (style.received a) (style.received a') := by
  match a, a', h with
  | .ok v, .ok w, h => exact Except.ok.inj h
  | .error f, .error _, rfl => rfl

theorem agrees_send {c c' : Command} (hc : c.blank = c'.blank) :
    (perform (s.send c)).Agrees (contents x)
      (Both fun v w => c.blankReply v = c'.blankReply w) (perform (s.send c')) :=
  agrees_command hc fun _ _ ha => agrees_done (both_received ha s.style)

/-- Two pushes differ in their payloads and in nothing else. -/
theorem agrees_push (name : Name) (entry entry' : Value) :
    (perform (s.push name entry)).Agrees (contents x) (Both Eq) (perform (s.push name entry')) := by
  rw [s.push_eq, s.push_eq]
  have blank : (Command.push name entry).blank = (Command.push name entry').blank := rfl
  refine agrees_perform_bind (agrees_send blank) fun v w (hv : v = w) => ?_
  subst hv
  exact agrees_perform_bind (agrees_log _) fun _ _ _ => agrees_done rfl

/-- What is popped is alike, whether the pop waits for it or not. -/
theorem agrees_blockingPop (name : Name) (duration : Value) :
    (perform (s.blockingPop name duration)).Agrees (contents x) (Both Value.Alike)
      (perform (s.blockingPop name duration)) := by
  rw [s.blockingPop_eq]
  refine agrees_check fun seconds _ => ?_
  by_cases hs : seconds.le .zero = true
  · rw [if_pos hs]
    exact agrees_send (c := .pop name) rfl
  · rw [if_neg hs]
    exact agrees_perform_bind (agrees_send rfl) fun v w hv => agrees_done (Reply.both_popped hv)

/-- A timer that fails does so for both, and one that does not leaves both as they are. -/
theorem both_stopped {R : α → β → Prop} (start : Number.Double) {r : Except Failure α}
    {r' : Except Failure β} (h : Both R r r') : Both R (stopped start r) (stopped start r') := by
  unfold stopped
  split
  · match r, r', h with
    | .ok _, .ok _, _ => exact rfl
    | .error f, .error _, rfl => exact rfl
  · exact h

/-- Of an entry the log is told that there was one. -/
theorem outcome_congr (name : Name) {v w : Value} (h : v.Alike w) (ms : Int) :
    outcome name v ms = outcome name w ms := by
  have told : ∀ u, outcome name u ms =
      if Semaphore.isEntry u = true then .acquired name ms else .timedOut name ms := by
    intro u
    cases u <;> rfl
  rw [told, told, h.isEntry]

theorem agrees_timed {pop : Op (Name × Value)}
    (h : (perform pop).Agrees (contents x) (Both fun p q => p.1 = q.1 ∧ p.2.Alike q.2)
      (perform pop)) :
    (perform (timed pop)).Agrees (contents x) (Both Value.Alike) (perform (timed pop)) := by
  refine agrees_other rfl fun start => ?_
  show (perform (pop.attempt >>= _)).Agrees _ _ (perform (pop.attempt >>= _))
  refine agrees_perform_bind (agrees_attempt h) fun r r' hr => agrees_other rfl fun stop => ?_
  show (perform (.ofExcept (stopped start r) >>= _)).Agrees _ _
    (perform (.ofExcept (stopped start r') >>= _))
  refine agrees_perform_bind (agrees_done (both_stopped start hr)) ?_
  rintro ⟨name, v⟩ ⟨name', w⟩ ⟨rfl, hv⟩
  refine agrees_check fun ms _ => ?_
  show (perform (.log (outcome name v ms) >>= _)).Agrees _ _
    (perform (.log (outcome name w ms) >>= _))
  rw [outcome_congr name hv]
  exact agrees_perform_bind (agrees_log _) fun _ _ _ => agrees_done hv

theorem agrees_acquireFrom (name : Except Failure Name) (duration : Value) :
    (perform (acquireFrom s name duration)).Agrees (contents x) (Both Value.Alike)
      (perform (acquireFrom s name duration)) := by
  rw [acquireFrom_eq]
  refine agrees_timed (agrees_check fun n _ => ?_)
  exact agrees_perform_bind (agrees_blockingPop n duration) fun v w hv => agrees_done ⟨rfl, hv⟩

end Stores

/-! ## Semaphores -/

section Semaphores

variable {s : Semaphore}

/-- Whether there was a permit does not depend on what it was. -/
theorem agrees_acquirePermit (blocking timeout : Value) :
    (perform (s.acquire blocking timeout)).Agrees (contents x) (Both Eq)
      (perform (s.acquire blocking timeout)) := by
  rw [s.acquire_eq]
  exact agrees_perform_bind (agrees_acquireFrom _ _) fun _ _ hv => agrees_done hv.isEntry

theorem agrees_enter :
    (perform s.enter).Agrees (contents x) (Both Eq) (perform s.enter) := by
  rw [s.enter_eq]
  refine agrees_perform_bind (agrees_acquirePermit _ _) ?_
  rintro acquired _ rfl
  refine agrees_of_sends ?_
  split <;> trivial

end Semaphores

end Content

/-! ## Calls and routines -/

/-- Are two results of a call the same but for the content of an entry? -/
def Call.LikeResults : (c : Call) → c.Result → c.Result → Prop
  | blockingPop .., v, w | acquire .., v, w | command .., v, w => Value.Alike v w
  | push .., v, w | release .., v, w | releasePermits .., v, w => v = w
  | length .., n, m | value _, n, m => n = m
  | locked _, b, b' | acquirePermit .., b, b' => b = b'
  | enter _, u, u' | exit _, u, u' => u = u'
  | create .., s, s' | mint .., s, s' => s = s'
  | register .., r, r' => r = r'

theorem Call.LikeResults.refl {c : Call} (r : c.Result) : c.LikeResults r r := by
  cases c <;> rfl

/-- Two programs that do the same, but for the payloads of their pushes; for all they know of entries
    is that they are there. -/
inductive Routine.Alike : Routine → Routine → Prop where
  | ends (result : Except Failure Unit) : Alike (ends result) (ends result)
  | push (store : ListStore) (name entry entry' : Value) {next next' : Except Failure Value → Routine}
      (h : ∀ r, Alike (next r) (next' r)) :
      Alike (call (.push store name entry) next) (call (.push store name entry') next')
  | call {c : Call} (own : c.IsOwn) {next next' : Except Failure c.Result → Routine}
      (h : ∀ r r', Both c.LikeResults r r' → Alike (next r) (next' r')) :
      Alike (call c next) (call c next')
  | within (s : Semaphore) {body body' : Routine} {next next' : Except Failure Unit → Routine}
      (hb : Alike body body') (h : ∀ r, Alike (next r) (next' r)) :
      Alike (within s body next) (within s body' next')

namespace Content

variable {x : Setting}

theorem agrees_call {c : Call} (own : c.IsOwn) :
    (perform c.op).Agrees (contents x) (Both c.LikeResults) (perform c.op) := by
  cases hd : c.demand? with
  | none =>
    -- What pops nothing has the same result, and so it is alike.
    refine (agrees_of_sends (c.sends_of_demand_eq_none own hd)).mono fun _ _ hr => hr.mono ?_
    rintro r _ rfl
    exact Call.LikeResults.refl r
  | some d =>
    cases c with
    | blockingPop s name duration =>
      rw [Call.op_blockingPop]
      exact agrees_check fun n _ => agrees_blockingPop n duration
    | acquire s name duration => exact agrees_acquireFrom _ duration
    | acquirePermit s blocking timeout => exact agrees_acquirePermit blocking timeout
    | enter s => exact agrees_enter
    | command r name args =>
      obtain ⟨store, call⟩ := Registrar.call_of_demand hd
      show (perform (r.call name args)).Agrees (contents x) (Both Value.Alike)
        (perform (r.call name args))
      rw [call]
      exact agrees_acquireFrom _ _
    | _ => cases hd

/-- A call has returned alike if its results are alike. -/
theorem blank_returned {c : Call} {r r' : Except Failure c.Result} (h : Both c.LikeResults r r') :
    (Moment.returned c r).blank = (Moment.returned c r').blank := by
  match r, r', h with
  | .error f, .error _, rfl => rfl
  | .ok v, .ok w, h =>
    cases c with
    | blockingPop s name d => exact congrArg (fun u => Moment.returned _ (.ok u)) h
    | acquire s name d => exact congrArg (fun u => Moment.returned _ (.ok u)) h
    | command s name args => exact congrArg (fun u => Moment.returned _ (.ok u)) h
    | _ =>
      cases h
      rfl

theorem agrees_routine {p q : Routine} (h : p.Alike q) :
    p.course.Agrees (contents x) Eq q.course := by
  induction h with
  | ends result => exact agrees_done rfl
  | push store name entry entry' h ih =>
    have pushes : (perform (Call.push store name entry).op).Agrees (contents x) (Both Eq)
        (perform (Call.push store name entry').op) := by
      rw [Call.op_push, Call.op_push]
      exact agrees_check fun n _ => agrees_push n entry entry'
    refine agrees_bind pushes fun r r' hr => ?_
    obtain rfl := both_eq hr
    exact agrees_moment rfl (ih r)
  | call own h ih =>
    refine agrees_bind (agrees_call own) fun r r' hr => ?_
    exact agrees_moment (congrArg Event.moment (blank_returned hr)) (ih r r' hr)
  | within s hb h ihb ih =>
    have left : (perform s.exit).Agrees (contents x) (Both Eq) (perform s.exit) :=
      agrees_of_sends (Semaphore.sends_exit rfl)
    refine agrees_bind (R := Eq) (agrees_block_of rfl rfl (fun _ => rfl) (fun _ => rfl) agrees_enter
      ihb left) ?_
    rintro r _ rfl
    exact ih r

end Content

/-! ## Any entry is a permit -/

/-- **An entry is a permit, whatever is in it**, and also if nothing is. -/
theorem Setting.acquired_of_entries {x : Setting} {s : Solo} {seconds : Number.Double} {e : Bytes}
    {es : List Bytes} {t : Timer} (ht : ∀ n, t.reads (x.clock n)) (hf : x.fails s.calls = none)
    (m : Semaphore) (blocking timeout : Value)
    (hd : Duration.seconds (m.waitFor blocking timeout) = .ok seconds)
    (he : s.lists.entries m.name.key = e :: es) :
    ((Course.perform (m.acquire blocking timeout)).run x.answer s).result = .ok true := by
  have popped : s.lists.pop m.name.key = some (e, s.lists.put m.name.key es) := by
    unfold Lists.pop
    rw [he]
  have handed : x.answer (.command m.store.executor (.popFor m.name seconds))
      (x.answer .clock s).2 = (.ok ((Command.popFor m.name seconds).handing e),
        ⟨s.lists.put m.name.key es, s.looks + 1, s.drawn, s.calls + 1⟩) := by
    show x.call _ { s with looks := s.looks + 1 } = _
    unfold Setting.call
    rw [hf]
    -- The entry is handed over by a poll as by a pop that waits.
    by_cases polls : seconds.le .zero = true
    · rw [Command.popFor, if_pos polls]
      simp only [Lists.execute, popped]
      rfl
    · rw [Command.popFor, if_neg polls]
      simp only [Lists.execute, popped]
      rfl
  obtain ⟨ms, acquired⟩ := run_acquire (k := .still) (fun s => ht s.looks) hd (.entry e) handed
  rw [m.acquire_eq, Course.run_perform_bind, acquired]
  rfl

/-! ## Runs -/

/-- **Content never matters.**  Two lone callers do the same but for payloads, in one setting, and their
    lists differ in nothing but content.

    - Both have the same result.
    - Both have the same events but for content: the same commands, records and draws in the same
      order, and every call returns the same but for the content of an entry.
    - After each answer, all lists of the one are as long as those of the other.
    - In particular, whatever entry there is to pop, an acquire that pops it has acquired a permit. -/
theorem Routine.content_ignored {x : Setting} {p q : Routine} (h : p.Alike q) {s t : Solo}
    (hs : s.Alike t) :
    (p.course.run x.answer s).result = (q.course.run x.answer t).result ∧
    (p.course.run x.answer s).events.map Event.blank =
      (q.course.run x.answer t).events.map Event.blank ∧
    (p.course.run x.watched (s, [])).state.2.map Lists.length =
      (q.course.run x.watched (t, [])).state.2.map Lists.length ∧
    ∀ (timer : Timer) (m : Semaphore) (blocking timeout : Value) (seconds : Number.Double)
      (e : Bytes) (es : List Bytes), (∀ n, timer.reads (x.clock n)) → x.fails s.calls = none →
      Duration.seconds (m.waitFor blocking timeout) = .ok seconds →
      s.lists.entries m.name.key = e :: es →
      ((Course.perform (m.acquire blocking timeout)).run x.answer s).result = .ok true := by
  obtain ⟨result, state, events⟩ :=
    Content.agrees_routine (x := x) h (s, []) (t, []) ⟨hs, rfl⟩
  obtain ⟨events₁, result₁, -⟩ := x.run_watched p.course s []
  obtain ⟨events₂, result₂, -⟩ := x.run_watched q.course t []
  refine ⟨?_, ?_, state.2, ?_⟩
  · rw [← result₁, ← result₂]
    exact result
  · rw [← events₁, ← events₂]
    exact events
  · intro timer m blocking timeout seconds e es ht hf hd he
    exact Setting.acquired_of_entries ht hf m blocking timeout hd he

/-- A caller of one list pushes some payload, enters a block, and takes one entry more. -/
def paying (payload : String) : Routine :=
  .call (.push ⟨⟨"lists", .direct⟩⟩ (.text "k") (.text payload)) fun _ =>
    .within (.brief (.text "k") ⟨⟨"lists", .direct⟩⟩) (.ends (.ok ())) fun _ =>
      .call (.acquire ⟨⟨"lists", .awaited⟩⟩ (.text "k") (.int 0)) fun r => .ends (r.map fun _ => ())

/-- One list, with one entry. -/
def single (entry : Bytes) : Solo := { lists := { table := [([0x6b], [entry])] } }

theorem paying_alike (payload payload' : String) : (paying payload).Alike (paying payload') := by
  refine .push _ _ _ _ fun _ => .within _ (.ends _) fun _ => ?_
  refine .call (c := .acquire ⟨⟨"lists", .awaited⟩⟩ (.text "k") (.int 0)) trivial fun r r' hr => ?_
  match r, r', hr with
  | .ok _, .ok _, _ => exact .ends _
  | .error f, .error _, rfl => exact .ends _

theorem single_alike (entry entry' : Bytes) : (single entry).Alike (single entry') := by
  refine ⟨⟨fun key => ?_, rfl⟩, rfl, rfl, rfl⟩
  show (if [0x6b] = key then [entry] else []).length = (if [0x6b] = key then [entry'] else []).length
  split <;> rfl

/-- A list with an empty entry and a list with a full one are paid into and taken from alike, and a
    block is entered with the empty entry as its permit, whether it is waited for or not. -/
theorem empty_content_ignored :
    ((paying "").course.run Setting.sevens.answer (single [])).events.map Event.blank =
        ((paying "full").course.run Setting.sevens.answer (single [1, 2, 3])).events.map Event.blank ∧
      ((paying "full").course.run Setting.sevens.watched (single [1, 2, 3], [])).state.2.map
        (·.length [0x6b]) = [2, 2, 2, 1, 1, 1, 2, 2, 2, 1, 1, 1] ∧
      ∀ blocking, (blocking = .bool true ∨ blocking = .bool false) →
        ((Course.perform (Semaphore.acquire (.brief (.text "k") ⟨⟨"lists", .direct⟩⟩) blocking
          .none)).run Setting.sevens.answer (single [])).result = .ok true := by
  obtain ⟨-, events, lengths, acquired⟩ :=
    Routine.content_ignored (x := .sevens) (paying_alike "" "full") (single_alike [] [1, 2, 3])
  have noted : ((paying "").course.run Setting.sevens.watched (single [], [])).state.2.map
      (·.length [0x6b]) = [2, 2, 2, 1, 1, 1, 2, 2, 2, 1, 1, 1] := by decide +kernel
  have same := congrArg (List.map fun length => length [0x6b]) lengths
  rw [List.map_map, List.map_map] at same
  refine ⟨events, same.symm.trans noted, ?_⟩
  rintro blocking (rfl | rfl)
  · exact acquired .still _ _ _ _ [] [] (fun _ => rfl) rfl
      (Duration.seconds_float (x := .finite false 1) rfl) rfl
  · exact acquired .still _ _ _ _ [] [] (fun _ => rfl) rfl Duration.seconds_zero rfl

end Permits
