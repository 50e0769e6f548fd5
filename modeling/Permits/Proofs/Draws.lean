/-
  Draws — what is made of the draws of one source.

  1. **Rows** (`Row`): what the draws of a source come to, one after the other.  Digits are read off a row
     up to the first draw that gives none (`Row.read`), and no draw behind it is made (`Row.made`).
  2. **Sources** (`Feeds`): surroundings that draw from a row remember a place in it, which moves with each
     draw and with nothing else.
  3. **Chunks** (`Op.times_mul`): a digit in many rows is a digit many times, and the results are cut into
     chunks.  So a name is made of forty draws in a row.
  4. **Drawings** (`Drawing`): every way to draw a segment or a name is a number of digits first and then
     something that draws nothing (`Drawing.op_eq`).  It draws from where the last one ended, and up to
     the first failure, which is then the end of it (`Drawing.ends_at_failure`).
-/
import Permits.Proofs.Endowment

namespace Permits

open Course (Event)

/-! ## Rows -/

/-- What the draws of a source come to, one after the other. -/
abbrev Row := Nat → Except Failure Value

namespace Row

variable {row : Row} {p n j : Nat}

/-- The next digits of a row, or why one of them was not drawn. -/
def read (row : Row) (p : Nat) : Nat → Except Failure (List String)
  | 0 => .ok []
  | n + 1 =>
    match Identifier.drawn (row p) with
    | .ok digit => (row.read (p + 1) n).map (digit :: ·)
    | .error f => .error f

/-- How many draws that takes: none behind one that gives no digit. -/
def made (row : Row) (p : Nat) : Nat → Nat
  | 0 => 0
  | n + 1 =>
    match Identifier.drawn (row p) with
    | .ok _ => row.made (p + 1) n + 1
    | .error _ => 1

/-- What stands behind the first place of a row. -/
theorem succ_of_lt {P : Except Failure Value → Nat → Prop} {n : Nat}
    (h : ∀ i < n + 1, P (row (p + i)) i) : ∀ i < n, P (row (p + 1 + i)) (i + 1) := by
  intro i hi
  rw [Nat.add_assoc, Nat.add_comm 1]
  exact h (i + 1) (Nat.succ_lt_succ hi)

/-- Digits are read off a row that gives them. -/
theorem read_of_ok {digit : Nat → String} (h : ∀ i < n, Identifier.drawn (row (p + i)) = .ok (digit i)) :
    row.read p n = .ok ((List.range n).map digit) ∧ row.made p n = n := by
  induction n generalizing p digit with
  | zero => exact ⟨rfl, rfl⟩
  | succ n ih =>
    have first : Identifier.drawn (row p) = .ok (digit 0) := h 0 (Nat.succ_pos n)
    obtain ⟨reads, counts⟩ := ih (succ_of_lt (P := fun a i => Identifier.drawn a = .ok (digit i)) h)
    constructor
    · rw [read, first, reads, List.range_succ_eq_map, List.map_cons, List.map_map]
      rfl
    · rw [made, first, counts]

end Row

/-! ## Sources -/

/-- Do surroundings draw from a row?  They remember the place of the next draw. -/
structure Feeds {σ : Type} (answer : (r : Request) → σ → r.Answer × σ) (source : SourceRef) (row : Row)
    (place : σ → Nat) : Prop where
  draws : ∀ t, (answer (.draw source 10) t).1 = row (place t)
  moves : ∀ t, place (answer (.draw source 10) t).2 = place t + 1
  stays : ∀ r t, r.isDraw = false → place (answer r t).2 = place t

/-- A lone caller draws from what is drawn in the setting. -/
theorem Setting.feeds (x : Setting) (source : SourceRef) : Feeds x.answer source x.draws Solo.drawn where
  draws _ := rfl
  moves _ := rfl
  stays r s h := by
    cases r with
    | draw => cases h
    | clock | log | connect => rfl
    | command e c =>
      show (x.call c s).2.drawn = s.drawn
      unfold Setting.call
      split <;> rfl

namespace Feeds

variable {α σ : Type} {answer : (r : Request) → σ → r.Answer × σ} {source : SourceRef} {row : Row}
  {place : σ → Nat}

/-- What draws nothing leaves the place as it is. -/
theorem place_of_all (feeds : Feeds answer source row place) {op : Op α}
    (h : op.All fun r => r.isDraw = false) (t : σ) :
    place ((Course.perform op).run answer t).state = place t := by
  induction op generalizing t with
  | done result => rfl
  | ask r next ih => exact (ih (answer r t).1 (h.2 _) (answer r t).2).trans (feeds.stays r t h.1)

/-- Digits are read off the row, and the place moves by the draws that are made. -/
theorem run_digits (feeds : Feeds answer source row place) (n : Nat) (t : σ) :
    ∃ es t', (Course.perform ((Identifier.digit source).times n)).run answer t =
        ⟨es, row.read (place t) n, t'⟩ ∧
      requests es = List.replicate (row.made (place t) n) (.draw source 10) ∧
      place t' = place t + row.made (place t) n := by
  induction n generalizing t with
  | zero => exact ⟨[], t, rfl, rfl, rfl⟩
  | succ n ih =>
    let after := (answer (.draw source 10) t).2
    have moved : place after = place t + 1 := feeds.moves t
    have digit : (Course.perform (Identifier.digit source)).run answer t =
        ⟨[.answer (.draw source 10) (answer (.draw source 10) t).1], Identifier.drawn (row (place t)),
          after⟩ := by
      rw [← feeds.draws t]
      rfl
    show ∃ es t', (Course.perform (Identifier.digit source >>= fun a =>
      (Identifier.digit source).times n >>= fun as => Op.ok (a :: as))).run answer t = _ ∧ _
    rw [Course.run_perform_bind, digit, Row.read, Row.made]
    cases drawn : Identifier.drawn (row (place t)) with
    | error f => exact ⟨_, after, rfl, rfl, moved⟩
    | ok text =>
      obtain ⟨es, t', ran, drew, reached⟩ := ih after
      rw [moved] at ran drew reached
      have rest : (Course.perform ((Identifier.digit source).times n >>= fun as =>
          Op.ok (text :: as))).run answer after =
          ⟨es, (row.read (place t + 1) n).map (text :: ·), t'⟩ := by
        rw [Course.run_perform_bind, ran]
        cases row.read (place t + 1) n with
        | error f => rfl
        | ok as => exact congrArg (Course.Run.mk · _ _) (List.append_nil es)
      refine ⟨.answer (.draw source 10) (answer (.draw source 10) t).1 :: es, t', ?_, ?_, ?_⟩
      · show ((Course.perform ((Identifier.digit source).times n >>= fun as =>
          Op.ok (text :: as))).run answer after).behind _ = _
        rw [rest]
        rfl
      · exact congrArg (.draw source 10 :: ·) drew
      · dsimp only
        omega

end Feeds

/-! ## Chunks -/

/-- The first chunks of a list, of one length each. -/
def chunks {α : Type} (length : Nat) : Nat → List α → List (List α)
  | 0, _ => []
  | n + 1, as => as.take length :: chunks length n (as.drop length)

theorem chunks_map {α β : Type} (f : α → β) (length : Nat) :
    ∀ (n : Nat) (as : List α), chunks length n (as.map f) = (chunks length n as).map (List.map f)
  | 0, _ => rfl
  | n + 1, as => by
    rw [chunks, chunks, List.map_cons, ← List.map_drop, chunks_map f length n, List.map_take]

namespace Op

variable {α β : Type}

/-- What comes behind an operation matters for its results only. -/
theorem Returns.bind_congr {P : α → Prop} {op : Op α} {f g : α → Op β} (h : op.Returns P)
    (hfg : ∀ a, P a → f a = g a) : op >>= f = op >>= g := by
  induction op with
  | done result =>
    cases result with
    | ok a => exact hfg a h
    | error e => rfl
  | ask r next ih => exact congrArg (ask r) (funext fun a => ih a (h a))

/-- A row can be cut anywhere. -/
theorem times_add (op : Op α) (m : Nat) : ∀ n, op.times (m + n) =
    op.times m >>= fun as => op.times n >>= fun bs => .ok (as ++ bs) := by
  induction m with
  | zero =>
    intro n
    rw [Nat.zero_add]
    exact (bind_ok _).symm
  | succ m ih =>
    intro n
    calc op.times (m + 1 + n)
        = op >>= fun a => op.times (m + n) >>= fun as => ok (a :: as) := by
          rw [Nat.add_right_comm]
          rfl
      _ = op >>= fun a => op.times m >>= fun as => op.times n >>= fun bs => ok (a :: (as ++ bs)) := by
          simp only [ih, bind_assoc]
          rfl
      _ = op.times (m + 1) >>= fun as => op.times n >>= fun bs => ok (as ++ bs) := by
          simp only [times, bind_assoc]
          rfl

/-- **A row of rows is one row, cut into chunks.** -/
theorem times_mul (op : Op α) (m : Nat) : ∀ n,
    (op.times m).times n = op.times (n * m) >>= fun as => .ok (chunks m n as)
  | 0 => by
    rw [Nat.zero_mul]
    rfl
  | n + 1 => by
    have cut (as bs : List α) (h : as.length = m) :
        chunks m (n + 1) (as ++ bs) = as :: chunks m n bs := by
      rw [chunks, ← h, List.take_left, List.drop_left]
    calc (op.times m).times (n + 1)
        = op.times m >>= fun as => (op.times m).times n >>= fun ass => ok (as :: ass) := rfl
      _ = op.times m >>= fun as => op.times (n * m) >>= fun bs => ok (as :: chunks m n bs) := by
          simp only [times_mul op m n, bind_assoc]
          rfl
      _ = op.times m >>= fun as => op.times (n * m) >>= fun bs => ok (chunks m (n + 1) (as ++ bs)) :=
          (returns_times op m).bind_congr fun as h => congrArg (op.times (n * m) >>= ·)
            (funext fun bs => congrArg ok (cut as bs h).symm)
      _ = op.times ((n + 1) * m) >>= fun as => ok (chunks m (n + 1) as) := by
          rw [Nat.succ_mul, Nat.add_comm (n * m), times_add]
          simp only [bind_assoc]
          rfl

/-- What is made of each result can be made of all of them in the end. -/
theorem times_map (op : Op α) (f : α → β) : ∀ n,
    (op >>= fun a => ok (f a)).times n = op.times n >>= fun as => ok (as.map f)
  | 0 => rfl
  | n + 1 => by
    rw [times, times_map op f n, times]
    simp only [bind_assoc]
    rfl

end Op

namespace Identifier

/-- The name that digits make. -/
def spelled (digits : List String) : String :=
  separator.intercalate ((chunks segmentLength segmentCount digits).map String.join)

/-- **A name is made of forty draws in a row.** -/
theorem mint_eq_times (source : SourceRef) :
    mint source = (digit source).times 40 >>= fun digits => .ok (spelled digits) := by
  let joined (ds : List String) := Op.ok (String.join ds)
  calc mint source
      = ((digit source).times 8 >>= joined).times 5 >>= fun segments =>
          .ok (separator.intercalate segments) := rfl
    _ = (digit source).times 40 >>= fun digits => .ok (spelled digits) := by
        rw [Op.times_map, Op.times_mul]
        simp only [Op.bind_assoc]
        rfl

end Identifier

/-! ## What draws nothing -/

/-- Does an operation draw nothing? -/
def Op.IsDrawless {α : Type} (op : Op α) : Prop := op.All fun r => r.isDraw = false

section Drawless

open Op

theorem isDrawless_release (store : ListStore) (name : Name) :
    (Permits.release store name).IsDrawless := by
  rw [release_eq, store.push_eq]
  exact All.bind ⟨rfl, fun _ => trivial⟩ fun _ => All.bind ⟨rfl, fun _ => trivial⟩ fun _ => trivial

namespace Semaphore

theorem isDrawless_create (options : Options) (name : Value) : (create options name).IsDrawless := by
  refine (all_create options name).mono fun r hr => ?_
  obtain ⟨c, rfl⟩ := hr
  rfl

theorem Mixed.isDrawless_releaseUnseen (s : Semaphore) (n : Value) :
    (releaseUnseen s n).IsDrawless := by
  have pushes := isDrawless_release s.store s.name
  unfold releaseUnseen release
  cases s.store.style with
  | direct =>
    refine All.bind (All.check fun _ _ => All.coroutine (All.bind pushes fun _ => ?_)) fun _ => ?_
    all_goals trivial
  | awaited => exact All.check fun _ _ => trivial

theorem isDrawless_endow (style : Style) (s : Semaphore) (value : Value) :
    (endow style s value).IsDrawless := by
  have fills : (fill style s value).IsDrawless := by
    unfold fill
    split
    · refine All.bind ?_ fun _ => trivial
      rw [s.release_eq]
      refine All.check fun n _ => ?_
      rw [releaseTimes_eq_times]
      exact ((isDrawless_release s.store s.name).times n).bind fun _ => trivial
    · exact Mixed.isDrawless_releaseUnseen s value
  unfold endow
  split
  · exact fills.bind fun _ => trivial
  · trivial

end Semaphore

end Drawless

/-! ## Drawings -/

/-- A way to draw digits from a source: a segment, a name, a new semaphore in either style, or the command
    of a host that makes a name. -/
inductive Drawing (source : SourceRef) where
  | segment
  | name
  | semaphore (options : Semaphore.Options) (value : Value)
      (accepted : Semaphore.isBelow 0 value = .ok false)
  | command (r : Registrar) (bound : r.command (.text newCommand) = .ok (.new source))

namespace Drawing

variable {source : SourceRef}

/-- How many digits are drawn if no draw fails. -/
def size : Drawing source → Nat
  | segment => 8
  | name | semaphore .. | command .. => 40

abbrev Result : Drawing source → Type
  | segment | name => String
  | semaphore .. => Semaphore
  | command .. => Value

/-- The operation that a drawing is. -/
def op : (d : Drawing source) → Op d.Result
  | segment => Identifier.segment source
  | name => Identifier.mint source
  | semaphore options value _ => Semaphore.mint options source value
  | command r _ => r.call (.text newCommand) []

/-- **A drawing is so many digits, and then something that draws nothing.** -/
theorem op_eq (d : Drawing source) : ∃ rest : List String → Op d.Result,
    d.op = (Identifier.digit source).times d.size >>= rest ∧ ∀ digits, (rest digits).IsDrawless := by
  cases d with
  | segment => exact ⟨fun digits => .ok (String.join digits), rfl, fun _ => trivial⟩
  | name =>
    exact ⟨fun digits => .ok (Identifier.spelled digits), Identifier.mint_eq_times source,
      fun _ => trivial⟩
  | semaphore options value accepted =>
    refine ⟨fun digits =>
      (Semaphore.create options (.text (Identifier.spelled digits))).waitedFor options.style >>=
        (Semaphore.endow options.style · value), ?_, fun digits => ?_⟩
    · show Semaphore.mint options source value = _
      rw [Semaphore.mint_of_not_below accepted, Identifier.mint_eq_times, Op.bind_assoc]
      rfl
    · exact (Semaphore.isDrawless_create options _).waitedFor.bind fun s =>
        Semaphore.isDrawless_endow options.style s value
  | command r bound =>
    refine ⟨fun digits => .ok (.text (Identifier.spelled digits)), ?_, fun _ => trivial⟩
    show r.call (.text newCommand) [] = _
    rw [Registrar.call, bound]
    show (Identifier.mint source >>= fun name => Op.ok (Value.text name)) = _
    rw [Identifier.mint_eq_times, Op.bind_assoc]
    rfl

/-- The state after some drawings, whatever they come to. -/
def after {σ : Type} (answer : (r : Request) → σ → r.Answer × σ) (ds : List (Drawing source)) (t : σ) :
    σ :=
  ds.foldl (fun t d => ((Course.perform d.op).run answer t).state) t

/-- The place in a row after some drawings. -/
def reached (row : Row) (ds : List (Drawing source)) (p : Nat) : Nat :=
  ds.foldl (fun p d => p + row.made p d.size) p

section Feeds

variable {σ : Type} {answer : (r : Request) → σ → r.Answer × σ} {row : Row} {place : σ → Nat}

/-- How a drawing goes: its digits are read off the row, and if there is a failure among them, it is
    the end. -/
theorem run_op (feeds : Feeds answer source row place) (d : Drawing source) (t : σ) :
    let ran := (Course.perform d.op).run answer t
    let made := row.made (place t) d.size
    (requests ran.events).filter Request.isDraw = List.replicate made (.draw source 10) ∧
    place ran.state = place t + made ∧
    ∀ f, row.read (place t) d.size = .error f →
      requests ran.events = List.replicate made (.draw source 10) ∧ ran.result = .error f := by
  obtain ⟨rest, op_eq, drawless⟩ := d.op_eq
  obtain ⟨es, t', digits, drew, moved⟩ := feeds.run_digits d.size t
  intro ran made
  have only : (List.replicate made (Request.draw source 10)).filter Request.isDraw =
      List.replicate made (.draw source 10) := List.filter_replicate_of_pos rfl
  have ran_eq : ran = match row.read (place t) d.size with
      | .ok ds => ((Course.perform (rest ds)).run answer t').behind es
      | .error f => ⟨es, .error f, t'⟩ := by
    show (Course.perform d.op).run answer t = _
    rw [op_eq, Course.run_perform_bind, digits]
    cases row.read (place t) d.size <;> rfl
  rw [ran_eq]
  cases read : row.read (place t) d.size with
  | error f =>
    refine ⟨?_, moved, fun g hg => ?_⟩
    · rw [drew]
      exact only
    · cases hg
      exact ⟨drew, rfl⟩
  | ok ds =>
    have nothing := (drawless ds).filter_requests_run answer t'
    refine ⟨?_, ?_, fun f hf => nomatch hf⟩
    · show (requests (es ++ _)).filter _ = _
      rw [requests_append, List.filter_append, nothing, List.append_nil, drew]
      exact only
    · exact (feeds.place_of_all (drawless ds) t').trans moved

/-- Drawings in sequence draw one behind the other. -/
theorem place_after (feeds : Feeds answer source row place) (ds : List (Drawing source)) (t : σ) :
    place (after answer ds t) = reached row ds (place t) := by
  induction ds generalizing t with
  | nil => rfl
  | cons d ds ih =>
    obtain ⟨-, moved, -⟩ := run_op feeds d t
    show place (after answer ds _) = reached row ds _
    rw [ih, moved]

end Feeds

end Drawing

end Permits
