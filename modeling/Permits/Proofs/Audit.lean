/-
  Audit — the log tells what became of the permits.

  Callers use a store, each by a routine of its own and in any order, and calls may fail.  Each of them
  keeps its journal.  A record is written after the answer that it tells of, and by then other callers
  may have gone on; so the log runs behind the lists, but never by more than what was just
  answered.

  1. **Dues** (`Course.Event.due`): an event that pushes onto a list owes a record of the push, and an
     event that takes an entry of it owes the record of an acquire.  A row of exchanges owes nothing
     (`Exchange.Row.settles`).
  2. **Events** (`Journal.read_events`): a journal is what happened to its caller, cut at the moments.
     So a caller owes just the record of what happened to it last (`Journal.Sound.total_due`).
  3. **The balance** (`World.Reaches.balance`): what all callers owe is what the lists and the log
     differ by.
  4. **The whole** (`World.audited`): a caller that rests, which is about to send its next command or is
     through, owes nothing.  So where every caller rests the log tells the lengths of the lists.
-/
import Permits.Proofs.Delivery
import Permits.Proofs.Journal

namespace Permits

open Text
open Course (Event)

/-! ## Dues -/

namespace Course.Event

/-- Is an event a pop that got an entry of a list? -/
def isTake (key : Bytes) (e : Event) : Bool := e.taken.any (·.1 = key)

/-- Is an event the record of a push onto a list? -/
def notesPush (key : Bytes) : Event → Bool
  | .answer (.log (.pushed _ name _)) _ => name.key = key
  | _ => false

/-- Is an event the record of an acquire that got an entry of a list? -/
def notesAcquire (key : Bytes) : Event → Bool
  | .answer (.log (.acquired name _)) _ => name.key = key
  | _ => false

/-- The records that an event calls for: those of pushes less those of acquires. -/
def owes (key : Bytes) (e : Event) : Int :=
  (if e.isPush key then 1 else 0) - if e.isTake key then 1 else 0

/-- The records that an event calls for, less those that it is. -/
def due (key : Bytes) (e : Event) : Int :=
  e.owes key - ((if e.notesPush key then 1 else 0) - if e.notesAcquire key then 1 else 0)

variable {key : Bytes}

theorem length_under_taken (key : Bytes) (e : Event) :
    (under key e.taken).length = if e.isTake key then 1 else 0 := by
  have single : e.taken = [] ∨ ∃ p, e.taken = [p] := by
    unfold taken Command.takes
    split
    · split <;> simp
    · exact .inl rfl
  unfold isTake
  obtain h | ⟨p, h⟩ := single
  · rw [h]
    rfl
  · rw [h, under_cons, List.any_cons, List.any_nil, Bool.or_false]
    by_cases hk : p.1 = key <;> simp [hk]

theorem total_owes (es : List Event) :
    total (owes key) es = (es.countP (isPush key) : Int) - es.countP (isTake key) := by
  rw [← total_one, ← total_one, ← total_sub]
  rfl

theorem total_due (es : List Event) :
    total (due key) es = (es.countP (isPush key) : Int) - es.countP (isTake key) -
      ((es.countP (notesPush key) : Int) - es.countP (notesAcquire key)) := by
  rw [← total_owes, ← total_one (notesPush key), ← total_one (notesAcquire key), ← total_sub,
    ← total_sub]
  rfl

theorem due_pushed (style : Style) (n : Name) (reply : Value) :
    (Event.noted (.pushed style n reply)).due key = -if n.key = key then 1 else 0 := by
  by_cases hk : n.key = key <;> simp [due, owes, isPush, isTake, notesPush, notesAcquire, taken, hk]

theorem due_acquired (n : Name) (ms : Int) :
    (Event.noted (.acquired n ms)).due key = if n.key = key then 1 else 0 := by
  by_cases hk : n.key = key <;> simp [due, owes, isPush, isTake, notesPush, notesAcquire, taken, hk]

/-- An answer to a command is no record. -/
theorem due_sent (s : ListStore) (c : Command) (a : Except Failure Value) :
    (Event.sent s c a).due key = (Event.sent s c a).owes key := Int.sub_zero _

theorem due_of_quiet {e : Event} (h : e.isQuiet = true) : e.due key = 0 := by
  cases e with
  | moment m => cases h
  | answer r a =>
    cases r with
    | clock | draw | connect => rfl
    | command | log => cases h

theorem owes_push (s : ListStore) (n : Name) (entry reply : Value) :
    (Event.sent s (.push n entry) (.ok reply)).owes key = if n.key = key then 1 else 0 := by
  by_cases hk : n.key = key <;> simp [owes, isPush, isTake, taken, Command.takes, hk]

theorem owes_handing (s : ListStore) (n : Name) (x : Number.Double) (e : Bytes) :
    (Event.sent s (.popFor n x) (.ok ((Command.popFor n x).handing e))).owes key =
      -if n.key = key then 1 else 0 := by
  unfold Command.popFor
  split <;> simp [owes, isPush, isTake, taken, Command.handing, Command.takes, Lists.pair]

theorem owes_none (s : ListStore) (n : Name) (x : Number.Double) :
    (Event.sent s (.popFor n x) (.ok .none)).owes key = 0 := by
  unfold Command.popFor
  split <;> rfl

theorem owes_error (s : ListStore) (c : Command) (f : Failure) :
    (Event.sent s c (.error f)).owes key = 0 := by
  cases c <;> rfl

end Course.Event

open Course.Event (owes due due_sent due_pushed due_acquired owes_push owes_handing owes_none owes_error)

/-- Is nothing owed of a row of events?  Whatever calls for a record has one, and the last event calls
    for none. -/
structure Settled (key : Bytes) (es : List Event) : Prop where
  none_due : total (due key) es = 0
  last : ∀ e ∈ es.getLast?, e.owes key = 0

variable {key : Bytes} {es later : List Event}

theorem settled_nil : Settled key [] := ⟨rfl, fun _ he => nomatch he⟩

theorem Settled.append (h : Settled key es) (hl : Settled key later) : Settled key (es ++ later) where
  none_due := by rw [total_append, h.none_due, hl.none_due, Int.zero_add]
  last e he := by
    rw [List.getLast?_append] at he
    cases hlast : later.getLast? with
    | none => exact h.last e (by rwa [hlast] at he)
    | some e' => exact hl.last e (by rwa [hlast] at he ⊢)

/-- What owes its last record only does so behind what is settled as well. -/
theorem Settled.total_due (h : Settled key es)
    (hl : total (due key) later = total (owes key) later.getLast?.toList) :
    total (due key) (es ++ later) = total (owes key) (es ++ later).getLast?.toList := by
  rw [total_append, h.none_due, hl, Int.zero_add, List.getLast?_append]
  cases later.getLast? with
  | some e => rfl
  | none =>
    cases hlast : es.getLast? with
    | none => rfl
    | some e => exact (congrArg (· + 0) (h.last e hlast)).symm

/-! ## Exchanges -/

namespace Exchange

/-- An answer that owes just the record behind it. -/
theorem settled_pair {e : Event} {r : Record} (h : e.due key + (Event.noted r).due key = 0) :
    Settled key [e, .noted r] where
  none_due := by rw [total_cons, total_cons, total_nil, Int.add_zero, h]
  last e' he := by
    cases he
    rfl

/-- An answer that owes no record. -/
theorem settled_single {s : ListStore} {c : Command} {a : Except Failure Value}
    (h : (Event.sent s c a).owes key = 0) : Settled key [.sent s c a] where
  none_due := by rw [total_cons, total_nil, Int.add_zero, due_sent, h]
  last e he := by
    cases he
    exact h

/-- Every answer of an exchange has its record. -/
theorem settles {x : List Event} (h : Exchange x) : Settled key x := by
  cases h with
  | pushed s n entry reply =>
    refine settled_pair ?_
    rw [due_sent, owes_push, due_pushed, Int.add_right_neg]
  | acquired s n x e ms =>
    refine settled_pair ?_
    rw [due_sent, owes_handing, due_acquired, Int.add_left_neg]
  | timedOut s n x ms =>
    refine settled_pair ?_
    rw [due_sent, owes_none]
    rfl
  | counted s n reply => exact settled_single rfl
  | failed s c f => exact settled_single (owes_error s c f)
  | offered registrar => exact ⟨rfl, fun e he => by cases he; rfl⟩

theorem Row.settles (h : Row es) : Settled key es := by
  induction h with
  | nil => exact settled_nil
  | snoc _ hx ih => exact ih.append hx.settles

/-- Where one exchange has begun, the record of the last answer is owed. -/
theorem Begun.total_due (h : Begun es) :
    total (due key) es = total (owes key) es.getLast?.toList := by
  cases h with
  | row h => exact (List.append_nil es) ▸ h.settles.total_due rfl
  | @owing es e r h hx =>
    refine h.settles.total_due ?_
    have told : e.due key = e.owes key := by
      cases hx with
      | pushed | acquired | timedOut => exact due_sent ..
    exact congrArg (· + 0) told

/-- Before a command is sent, every record is written. -/
theorem Begun.before {y : Executor} {c : Command} {a : Except Failure Value}
    (h : Begun (es ++ [.answer (.command y c) a])) : Row es := by
  generalize hl : es ++ [.answer (.command y c) a] = l at h
  cases h with
  | owing h =>
    obtain ⟨rfl, -⟩ := List.append_inj' hl rfl
    exact h
  | row h =>
    cases h with
    | nil => cases es <;> cases hl
    | @snoc es' x h hx =>
      -- The last exchange cannot end with a record, so the command is all of it.
      have single : ∀ {e r}, es ++ [.answer (.command y c) a] ≠ es' ++ [e, .noted r] := by
        intro e r hl
        rw [List.append_cons es' e] at hl
        cases (List.append_inj' hl rfl).2
      cases hx with
      | pushed | acquired | timedOut => exact absurd hl single
      | counted | failed =>
        obtain ⟨rfl, -⟩ := List.append_inj' hl rfl
        exact h
      | offered => cases (List.append_inj' hl rfl).2

end Exchange

/-! ## Pages -/

theorem Moment.Logged.row {m : Moment} (h : m.Logged es) : Exchange.Row es := by
  cases m with
  | returned c r => exact Call.Logged.row h
  | opened | left =>
    obtain rfl : es = [] := h
    exact .nil
  | entered s => exact Call.Logged.row h
  | closed s r =>
    obtain ⟨f, logged, -⟩ | ⟨result, exited, logged, -⟩ := h
    · exact logged.row
    · exact logged.row

namespace Journal

/-- The pages of a journal, each with the moment behind it. -/
def turned (g : Journal) : List Event := g.pages.flatMap fun p => p.1 ++ [.moment p.2]

/-- What a journal tells of, in order. -/
def events (g : Journal) : List Event := g.turned ++ g.page

theorem events_update (g : Journal) (e : Event) :
    (ledger.update g e).events = g.events ++ [e].filter (!·.isQuiet) := by
  cases e with
  | moment m => simp [ledger, update, events, turned, Course.Event.isQuiet]
  | answer r a =>
    show (if r.isQuiet then g else _).events = _
    cases hq : r.isQuiet with
    | true => simp [Course.Event.isQuiet, hq]
    | false => simp [events, turned, Course.Event.isQuiet, hq]

/-- **A journal is what happened, cut at the moments.** -/
theorem read_events (g : Journal) (es : List Event) :
    (ledger.read g es).events = g.events ++ es.filter (!·.isQuiet) := by
  induction es generalizing g with
  | nil => exact (List.append_nil _).symm
  | cons e es ih =>
    rw [Ledger.read, List.foldl_cons, ← Ledger.read, ih, events_update, List.append_assoc,
      ← List.filter_append, List.singleton_append]

/-- The pages that were turned owe nothing. -/
theorem settled_turned {pages : List (List Event × Moment)}
    (h : ∀ p ∈ pages, p.2.Logged p.1) :
    Settled key (pages.flatMap fun p => p.1 ++ [.moment p.2]) := by
  induction pages with
  | nil => exact settled_nil
  | cons p ps ih =>
    have moment : Settled key [.moment p.2] := ⟨rfl, fun e he => by cases he; rfl⟩
    have page := (h p (List.mem_cons_self ..)).row.settles.append moment
    exact page.append (ih fun q hq => h q (List.mem_cons_of_mem p hq))

/-- **What a caller owes is the record of what happened to it last.** -/
theorem Sound.total_due {g : Journal} (h : g.Sound) :
    total (due key) g.events = total (owes key) g.events.getLast?.toList :=
  (settled_turned h.logged).total_due h.begun.total_due

end Journal

/-! ## Callers at rest -/

/-- Is a course through, or about to send a command, or at a moment? -/
def Course.Rests {α : Type} : Course α → Prop
  | .done _ | .mark .. => True
  | .ask r _ => r.isCommand = true

/-- Every command may be answered somehow. -/
theorem Command.exists_answer (c : Command) : ∃ v, c.Answers v := by
  cases c with
  | push | length => exact ⟨.int 0, 0, rfl⟩
  | pop | blockingPop => exact ⟨.none, .inl rfl⟩

/-- A caller that rests has written all its records, since whatever comes next finds them written. -/
theorem Journal.row_of_rests {k : Conditions} {g : Journal} {p : Course (Except Failure Unit)}
    (h : p.Always k.Admits ledger Sound (fun _ g => g.Clear) g) (rests : p.Rests) :
    Exchange.Row g.page := by
  cases p with
  | done result => exact h.2.even.row
  | mark m next =>
    have turned := h.2.invariant.logged (g.page, m) (List.mem_append_right _ (List.mem_singleton.mpr rfl))
    exact turned.row
  | ask r next =>
    cases r with
    | clock | log | draw | connect => cases rests
    | command x c =>
      obtain ⟨v, hv⟩ := c.exists_answer
      exact (h.2 (.ok v) hv).invariant.begun.before

/-! ## The balance -/

namespace World

/-- What one caller sent and what it wrote to the log. -/
def journal (w : World) (i : Nat) : Journal := Journal.ledger.read {} (w.eventsOf i)

/-- What happened last to a caller, among all that is of any account. -/
def last (w : World) (i : Nat) : Option Event := ((w.eventsOf i).filter (!·.isQuiet)).getLast?

/-- The callers to whom anything happened. -/
def active (w : World) : List Nat := (w.history.map (·.1)).dedup

/-- The number of records of pushes onto a list. -/
def pushRecords (w : World) (key : Bytes) : Nat := w.history.countP (·.2.notesPush key)

/-- The number of records of acquires that got an entry of a list. -/
def acquireRecords (w : World) (key : Bytes) : Nat := w.history.countP (·.2.notesAcquire key)

/-- The number of acquires that were served with an entry of a list and are still to be resumed. -/
def resuming (w : World) (key : Bytes) : Nat := w.active.countP fun i => (w.last i).any (·.isTake key)

/-- The number of pushes onto a list that were acknowledged and are still to be recorded. -/
def unrecorded (w : World) (key : Bytes) : Nat := w.active.countP fun i => (w.last i).any (·.isPush key)

variable {w : World}

theorem last_eq (w : World) (i : Nat) : w.last i = (w.journal i).events.getLast? := by
  rw [last, journal, Journal.read_events]
  rfl

theorem total_last (w : World) (key : Bytes) :
    total (fun i => total (owes key) (w.last i).toList) w.active =
      (w.unrecorded key : Int) - w.resuming key := by
  rw [unrecorded, resuming, ← total_one, ← total_one, ← total_sub]
  refine total_congr fun i _ => ?_
  cases w.last i with
  | none => rfl
  | some e => exact Int.add_zero _

/-- What all callers owe is what was just answered to some of them. -/
theorem total_due (sound : ∀ i, (w.journal i).Sound) (key : Bytes) :
    total (due key) (w.history.map (·.2)) = (w.unrecorded key : Int) - w.resuming key := by
  rw [← total_last, total_callers (due key) (List.nodup_dedup (w.history.map (·.1))) fun p hp =>
    List.mem_dedup.mpr (List.mem_map_of_mem hp)]
  refine total_congr fun i _ => ?_
  have own : total (due key) (w.journal i).events = _ := (sound i).total_due
  have quiet : ∀ e : Event, (!e.isQuiet) = false → e.due key = 0 := by
    intro e he
    exact Course.Event.due_of_quiet (by simpa using he)
  rw [← last_eq, journal, Journal.read_events] at own
  exact (total_filter quiet _).symm.trans own

/-- **What the lists and the log differ by is what was just answered to some callers.** -/
theorem Reaches.balance {k : Conditions} {start w : World} (h : Reaches k start w) (hw : Coherent k start)
    (hs : start.history = []) (sound : ∀ i, (w.journal i).Sound) (key : Bytes) :
    w.lists.length key + w.acquireRecords key + w.resuming key =
      start.lists.length key + w.pushRecords key + w.unrecorded key := by
  have entries := congrArg List.length (h.conserves hw hs key)
  have taken : (under key w.taken).length = w.history.countP (·.2.isTake key) :=
    length_under (Course.Event.length_under_taken key) w.history
  have given : (under key w.given).length = w.history.countP (·.2.isPush key) :=
    length_under (Course.Event.length_under_given key) w.history
  have owed := total_due sound key
  rw [Course.Event.total_due, List.countP_map, List.countP_map, List.countP_map, List.countP_map] at owed
  rw [List.length_append, List.length_append, taken, given] at entries
  change ((w.history.countP (·.2.isPush key) : Int) - w.history.countP (·.2.isTake key)) -
    ((w.pushRecords key : Int) - w.acquireRecords key) = _ at owed
  change _ + w.lists.length key = start.lists.length key + _ at entries
  omega

/-! ## The whole -/

/-- Is an acknowledged push what happened last to a caller? -/
def HasPushed (w : World) (i : Nat) : Prop := ∃ key, ∃ e ∈ w.last i, e.isPush key = true

/-- What the log tells in a world whose lists were `lists` at the start. -/
structure Audited (lists : Lists) (w : World) : Prop where
  /-- Each caller's journal is what happened to it. -/
  events : ∀ i, (w.journal i).events = (w.eventsOf i).filter (!·.isQuiet)
  /-- Every page is as its moment should find it: a call that came back has written a row of
      exchanges, and if it is one that acquires or pushes its result tells which. -/
  logged : ∀ i, ∀ p ∈ (w.journal i).pages, p.2.Logged p.1
  /-- On an open page at most the record of the last answer is owed. -/
  begun : ∀ i, Exchange.Begun (w.journal i).page
  /-- The lists and the log differ by what was just answered. -/
  balance : ∀ key, w.lists.length key + w.acquireRecords key + w.resuming key =
    lists.length key + w.pushRecords key + w.unrecorded key
  /-- A caller that rests was not just answered. -/
  rested : ∀ i, (w.callers i).Rests → ∀ e ∈ w.last i, ∀ key,
    e.isPush key = false ∧ e.isTake key = false
  /-- Where every caller rests, but for such as were served or got nothing and are still to be resumed
      or have yet to begin, no push is unrecorded; and once no acquire of a list is to be resumed, the
      records tell how its length has changed. -/
  told : (∀ i, (w.callers i).Rests ∨ ¬w.HasPushed i) → ∀ key, w.unrecorded key = 0 ∧
    (w.resuming key = 0 → (w.pushRecords key : Int) - w.acquireRecords key =
      w.lists.length key - lists.length key)

/-- What pushes takes nothing. -/
theorem isTake_of_isPush {e : Event} {key key' : Bytes} (h : e.isPush key = true) :
    e.isTake key' = false := by
  unfold Course.Event.isPush at h
  split at h
  · rfl
  · cases h

/-- What owes nothing neither pushes nor takes. -/
theorem eq_false_of_owes {e : Event} {key : Bytes} (h : e.owes key = 0) :
    e.isPush key = false ∧ e.isTake key = false := by
  unfold owes at h
  cases hp : e.isPush key with
  | true => simp [hp, isTake_of_isPush hp] at h
  | false => simpa [hp] using h

variable {k : Conditions} {lists : Lists} {t : Number.Double} {routines : Nat → Routine}

/-- **The log is an audit of the permits.**  Callers release, acquire, use semaphores, run blocks and
    commands as they like and in any order, and any calls may fail.  Then in every state that they reach
    each acquire and each push that returned has written one record, which tells what came of it, and
    what failed has written none; and the records of a list tell how its length has changed as soon as
    nobody who was served is still to be resumed. -/
theorem audited (hl : lists.waiters = []) (ht : k.reads t)
    (hr : ∀ i, (routines i).Only Call.IsAudited) {w : World}
    (h : Reaches k (start lists t routines) w) : w.Audited lists := by
  have coherent := coherent_start hl ht routines
  have clear : Journal.Clear {} := ⟨by simp, rfl⟩
  have keeps : (start lists t routines).Keeps k Journal.ledger Journal.Sound
      (fun _ g => g.Clear) {} :=
    fun i => clear.routine (hr i)
  have always (i : Nat) := h.keeps coherent keeps i
  have sound (i : Nat) : (w.journal i).Sound := (always i).invariant
  have balance : ∀ key, w.lists.length key + w.acquireRecords key + w.resuming key =
      lists.length key + w.pushRecords key + w.unrecorded key := h.balance coherent rfl sound
  have rested : ∀ i, (w.callers i).Rests → ∀ e ∈ w.last i, ∀ key,
      e.isPush key = false ∧ e.isTake key = false := by
    intro i rests e he key
    have page : Settled key (w.journal i).page := (Journal.row_of_rests (always i) rests).settles
    have all := (Journal.settled_turned (sound i).logged).append page
    exact eq_false_of_owes (all.last e (by rwa [last_eq] at he))
  refine ⟨fun i => Journal.read_events {} _, fun i => (sound i).logged, fun i => (sound i).begun,
    balance, rested, fun resting key => ?_⟩
  have recorded : w.unrecorded key = 0 := by
    refine List.countP_eq_zero.mpr fun i _ => ?_
    rw [Option.any_eq_true]
    rintro ⟨e, he, pushes⟩
    obtain rests | other := resting i
    · cases (rested i rests e he key).1.symm.trans pushes
    · exact other ⟨key, e, he, pushes⟩
  refine ⟨recorded, fun resumed => ?_⟩
  have all := balance key
  omega

/-- The end of the caller in a handover whose acquire has come to `entry`. -/
def handedOver (entry : Except Failure Value) : Course (Except Failure Unit) := do
  Course.moment (.returned (.acquire ⟨⟨"lists", .awaited⟩⟩ (.text "k") (.float (.finite false 1))) entry)
  return .ok ()

/-- What is left of the acquire in a handover once its timer has come to some milliseconds. -/
def noting (ms : Except Failure Int) : Course (Except Failure Unit) :=
  Course.perform (.coroutine do
    let ms ← .ofExcept ms
    .log (.acquired (.text "k") ms)
    return .bytes [0x31]) >>= handedOver

/-- A release serves an acquire that waits, and the log runs behind until the acquire is resumed. -/
theorem handover_audited : ∃ v w, Reaches .still (start {} (.finite false 1) handover) v ∧
    Reaches .still (start {} (.finite false 1) handover) w ∧ v.Audited {} ∧ w.Audited {} ∧
    (v.pushRecords [0x6b] = 1 ∧ v.acquireRecords [0x6b] = 0 ∧ v.resuming [0x6b] = 1) ∧
    (w.pushRecords [0x6b] = 1 ∧ w.acquireRecords [0x6b] = 1 ∧ w.resuming [0x6b] = 0) ∧
    ∀ i, (w.callers i).Rests := by
  have audits : ∀ i, (handover i).Only Call.IsAudited := by
    intro i
    match i with
    | 0 | 1 => exact ⟨trivial, fun _ _ => trivial⟩
    | i + 2 => trivial
  have waits := Reaches.step (Reaches.step .refl (.tell (k := .still)
    (w := start {} (.finite false 1) handover) (i := 0) (r := .clock) rfl rfl))
    (.wait (i := 0) rfl rfl rfl)
  have served := waits.step (.serve (i := 1) rfl rfl rfl)
  have returned := (served.step (.tell (i := 1) (r := .log _) rfl (a := ()) trivial)).step
    (.pass (i := 1) rfl)
  have resumed := returned.step (.tell (i := 0) (a := .finite false 1)
    (show _ = Course.ask .clock fun stop => noting (elapsed (.finite false 1) stop) from rfl) rfl)
  -- The timer comes to some number of milliseconds, whatever it is.
  obtain ⟨ms, told⟩ := Timer.still.measured (s := .finite false 1) (t := .finite false 1) rfl rfl
  have writes : noting (elapsed (.finite false 1) (.finite false 1)) =
      .ask (.log (.acquired (.text "k") ms)) fun _ => handedOver (.ok (.bytes [0x31])) := by
    rw [told]
    rfl
  have noted := resumed.step (.tell (i := 0) ((goOn_callers_self ..).trans writes) (a := ()) trivial)
  refine ⟨_, _, returned, noted, audited rfl rfl audits returned, audited rfl rfl audits noted,
    ⟨rfl, rfl, by decide +kernel⟩, ⟨rfl, rfl, rfl⟩, fun i => ?_⟩
  match i with
  | 0 | 1 | i + 2 => trivial

end World

end Permits
