/-
  Exclusion — no more callers are inside a semaphore's blocks than it has permits.

  Every event counts for the blocks of one key (`Course.Event.tally`): a pop that got an entry counts
  for what is **held**, and a push against it, whether the store carries it out or not; a body that
  begins counts for those **inside**, and one that ends against them; a block that a caller turns to
  counts for those **begun**, and one that has ended against them.  What a push leaves undone counts
  as **lost**.

  1. **One caller** (`Tally.Sound.block`, `Tally.Sound.routine`): at no time is it inside more blocks
     than it holds permits, nor does it hold more permits than it has begun blocks, and after each
     block it is where it was.
  2. **All callers** (`World.tally_sound`, `World.tally_add_lost`): what none of them owes they do
     not owe together, and what was taken and not given back is held or lost.
  3. **Exclusion** (`World.excludes`): from the list that minting with `V` permits leaves, entries,
     permits held and permits lost always add up to `V`.
-/
import Permits.Proofs.Minting
import Permits.Proofs.World.Accounts

namespace Permits

open Text
open Course (Event)

/-! ## Tallies -/

/-- One for a name of the key, and nothing for any other. -/
def Name.share (key : Bytes) (n : Name) : Int := if n.key = key then 1 else 0

theorem Name.share_nonneg (key : Bytes) (n : Name) : 0 ≤ n.share key := by
  unfold share
  split <;> omega

/-- How far a caller is inside blocks. -/
@[ext]
structure Tally where
  held : Int := 0
  inside : Int := 0
  begun : Int := 0

namespace Tally

instance : Add Tally := ⟨fun s t => ⟨s.held + t.held, s.inside + t.inside, s.begun + t.begun⟩⟩

@[simp] theorem held_add (s t : Tally) : (s + t).held = s.held + t.held := rfl

@[simp] theorem inside_add (s t : Tally) : (s + t).inside = s.inside + t.inside := rfl

@[simp] theorem begun_add (s t : Tally) : (s + t).begun = s.begun + t.begun := rfl

@[simp] theorem add_zero (t : Tally) : t + {} = t := by
  ext <;> simp

/-- Nobody is inside without a permit, or holds a permit without a block. -/
structure Sound (t : Tally) : Prop where
  inside_nonneg : 0 ≤ t.inside
  inside_le : t.inside ≤ t.held
  held_le : t.held ≤ t.begun

end Tally

namespace Course.Event

/-- What an event counts for the blocks of a key. -/
def tally (key : Bytes) : Event → Tally
  | .answer (.command _ (.push name _)) _ => { held := -name.share key }
  | .answer (.command _ c) (.ok v) => { held := (under key (c.takes v)).length }
  | .answer .. => {}
  | .moment (.opened s) => { begun := s.name.share key }
  | .moment (.entered s) => { inside := s.name.share key }
  | .moment (.left s _) => { inside := -s.name.share key }
  | .moment (.closed s _) => { begun := -s.name.share key }
  | .moment (.returned ..) => {}

/-- A push that is not carried out loses a permit. -/
def lost (key : Bytes) : Event → Int
  | .answer (.command _ (.push name _)) (.error _) => name.share key
  | _ => 0

end Course.Event

/-- The account of the blocks of a key. -/
def Ledger.tally (key : Bytes) : Ledger Tally where
  update t e := t + e.tally key
  quiet t r a h := by
    cases r with
    | command | log => cases h
    | clock | draw | connect => exact t.add_zero

theorem Ledger.tally_ignoresLog (key : Bytes) : (Ledger.tally key).IgnoresLog := by
  intro t r
  exact t.add_zero

/-! ## One caller -/

/-- Does a command leave the entries of a list alone? -/
def Command.Spares (key : Bytes) : Command → Prop
  | push name _ | pop name | blockingPop name _ => name.key ≠ key
  | length _ => True

/-- Does a call leave the entries of a list alone, whatever it is answered? -/
def Call.Spares (key : Bytes) (c : Call) : Prop := c.op.Sends (Command.Spares key)

/-- A command takes from its own list only. -/
theorem Command.key_of_takes {c : Command} {v : Value} : ∀ p ∈ c.takes v, p.1 = c.name.key := by
  unfold takes
  split <;> simp [Command.name]

/-- What spares a list counts for nothing. -/
theorem Course.Event.tally_of_spares {key : Bytes} {r : Request} (h : r.Sends (Command.Spares key))
    (a : r.Answer) : (Event.answer r a).tally key = {} := by
  cases r with
  | clock | log | draw | connect => rfl
  | command x c =>
    have other : ∀ v, c.name.key ≠ key → under key (c.takes v) = [] := by
      intro v hc
      refine List.eq_nil_iff_forall_not_mem.mpr fun e he => hc ?_
      exact (Command.key_of_takes _ (mem_under.mp he)).symm
    cases c with
    | length name => cases a <;> rfl
    | push name entry =>
      have hs : name.share key = 0 := if_neg h
      show ({ held := -name.share key } : Tally) = {}
      rw [hs]
      rfl
    | pop name | blockingPop name seconds =>
      cases a with
      | error f => rfl
      | ok v =>
        show ({ held := (under key _).length } : Tally) = {}
        rw [other v h]
        rfl

/-- However a pop ends, it counts for what its caller gets. -/
theorem Course.Event.tally_popped {k : Conditions} {s : ListStore} {n : Name} {x : Number.Double}
    {a r : Except Failure Value} (h : k.Popped s.style (.popFor n x) a r) (key : Bytes) :
    ((∃ e, r = .ok (.bytes e)) ∧ (Event.sent s (.popFor n x) a).tally key = { held := n.share key }) ∨
      ((r = .ok .none ∨ ∃ f, r = .error f) ∧ (Event.sent s (.popFor n x) a).tally key = {}) := by
  have pop : ∀ v, (Event.sent s (.popFor n x) (.ok v)).tally key =
      { held := (under key ((Command.popFor n x).takes v)).length } := by
    intro v
    unfold Command.popFor
    split <;> rfl
  cases h with
  | entry e =>
    refine .inl ⟨⟨e, rfl⟩, ?_⟩
    rw [pop, Command.takes_handing, under_cons, Name.share]
    split <;> rfl
  | nothing =>
    refine .inr ⟨.inl rfl, ?_⟩
    rw [pop, Command.takes_none]
    rfl
  | raised =>
    refine .inr ⟨.inr ⟨_, rfl⟩, ?_⟩
    unfold Command.popFor
    split <;> rfl

section Caller

variable {k : Conditions} {key : Bytes} {t : Tally} {s : Semaphore}

/-- A block that is entered holds one permit more. -/
theorem Tally.Sound.enter (h : t.Sound) (h' : (t + { held := s.name.share key }).Sound) :
    (Course.perform s.enter).Always k.Admits (.tally key) Sound
      (fun r t' => match r with
        | .ok _ => t' = t + { held := s.name.share key }
        | .error _ => t' = t) t := by
  refine Semaphore.always_enter h fun a r hr => ?_
  obtain ⟨⟨e, rfl⟩, ht⟩ | ⟨hn, ht⟩ := Event.tally_popped hr key
  · have heq : (Ledger.tally key).update t (.sent s.store s.entry a) =
        t + { held := s.name.share key } := congrArg (t + ·) ht
    rw [heq]
    exact ⟨h', Course.acquired_of_ignoresLog (Ledger.tally_ignoresLog key) h' rfl⟩
  · have heq : (Ledger.tally key).update t (.sent s.store s.entry a) = t :=
      (congrArg (t + ·) ht).trans t.add_zero
    rw [heq]
    refine ⟨h, Course.acquired_of_ignoresLog (Ledger.tally_ignoresLog key) h ?_⟩
    obtain rfl | ⟨f, rfl⟩ := hn <;> rfl

/-- A block that is left holds one permit less, even if the permit is lost. -/
theorem Tally.Sound.exit (h : t.Sound) (h' : (t + { held := -s.name.share key }).Sound) :
    (Course.perform s.exit).Always k.Admits (.tally key) Sound
      (fun _ t' => t' = t + { held := -s.name.share key }) t :=
  Semaphore.always_exit h fun _ _ =>
    ⟨h', Course.pushed_of_ignoresLog (Ledger.tally_ignoresLog key) h' rfl⟩

/-- **A block leaves its caller where it was**, if its body does, and is sound throughout. -/
theorem Tally.Sound.block {body : Course (Except Failure Unit)}
    (hb : ∀ t t' : Tally, t'.Sound ∧ t' = t →
      body.Always k.Admits (.tally key) Sound (fun _ t' => t'.Sound ∧ t' = t) t')
    (h : t.Sound) :
    (Routine.block s body).Always k.Admits (.tally key) Sound (fun _ t' => t'.Sound ∧ t' = t) t := by
  have hs := s.name.share_nonneg key
  have sound := h
  obtain ⟨inside_nonneg, inside_le, held_le⟩ := h
  -- A caller inside has begun the block, holds its permit and runs its body.
  have begun : (t + { begun := s.name.share key }).Sound := by
    constructor <;> simp <;> omega
  have holding : (t + { begun := s.name.share key } + { held := s.name.share key }).Sound := by
    constructor <;> simp <;> omega
  have entered : (t + { begun := s.name.share key } + { held := s.name.share key } +
      { inside := s.name.share key }).Sound := by
    constructor <;> simp <;> omega
  -- On its way out it undoes the three one after the other.
  have left : t + { begun := s.name.share key } + { held := s.name.share key } +
      { inside := s.name.share key } + { inside := -s.name.share key } =
        t + { begun := s.name.share key } + { held := s.name.share key } := by
    ext <;> simp only [held_add, inside_add, begun_add] <;> omega
  have exited : t + { begun := s.name.share key } + { held := s.name.share key } +
      { held := -s.name.share key } = t + { begun := s.name.share key } := by
    ext <;> simp only [held_add, inside_add, begun_add] <;> omega
  have closed : ∀ {r : Except Failure Unit} {t' : Tally}, t' = t + { begun := s.name.share key } →
      Semaphore.Closed (.tally key) Sound (fun _ t' => t'.Sound ∧ t' = t) s r t' := by
    rintro r t' rfl
    have heq : (Ledger.tally key).update (t + { begun := s.name.share key })
        (.moment (.closed s r)) = t := by
      show t + { begun := s.name.share key } + { begun := -s.name.share key } = t
      ext <;> simp only [held_add, inside_add, begun_add] <;> omega
    unfold Semaphore.Closed
    rw [heq]
    exact ⟨sound, sound, rfl⟩
  refine Semaphore.always_block sound ((begun.enter holding).mono fun r t' _ hr => ?_)
  cases r with
  | error f => exact closed hr
  | ok u =>
    subst hr
    refine (hb _ _ ⟨entered, rfl⟩).mono fun result t' _ ht => ?_
    obtain ⟨-, rfl⟩ := ht
    have hl : (Ledger.tally key).update _ (.moment (.left s result)) = _ := left
    rw [hl]
    refine (holding.exit (by rw [exited]; exact begun)).mono fun r t' _ ht => ?_
    exact closed (ht.trans exited)

theorem Tally.Sound.routine (h : t.Sound) {p : Routine} (hp : p.Only (Call.Spares key)) :
    p.course.Always k.Admits (.tally key) Sound (fun _ t' => t'.Sound ∧ t' = t) t := by
  refine Course.always_routine (I := fun t (t' : Tally) => t'.Sound ∧ t' = t) (fun _ _ h => h.1)
    (fun c hc j t' ht => ?_) (fun s body hb j t' ht => ?_) hp ⟨h, rfl⟩
  -- A call that spares the list counts for nothing, whichever requests it makes.
  · have still : (Course.perform c.op).Always k.Admits (.tally key) Sound
        (fun _ t' => t'.Sound ∧ t' = j) t' := by
      refine Course.always_of_all (I := fun t' => t'.Sound ∧ t' = j) hc (fun t' r a hr _ ht => ?_)
        (fun _ h => h.1) ht
      have heq : (Ledger.tally key).update t' (.answer r a) = t' :=
        (congrArg (t' + ·) (Event.tally_of_spares hr a)).trans t'.add_zero
      rw [heq]
      exact ht
    refine still.mono fun r t' _ ht => ?_
    have heq : (Ledger.tally key).update t' (.moment (.returned c r)) = t' := t'.add_zero
    rw [heq]
    exact ht
  · obtain ⟨ht, rfl⟩ := ht
    exact ht.block hb

end Caller

/-! ## All callers -/

/-- A number that each event adds to is read off the events. -/
theorem Ledger.read_tally {f : Tally → Int} (hf : ∀ s t, f (s + t) = f s + f t) (key : Bytes)
    (t : Tally) (events : List Event) :
    f ((tally key).read t events) = f t + total (fun e => f (e.tally key)) events := by
  induction events generalizing t with
  | nil => exact (Int.add_zero (f t)).symm
  | cons e events ih =>
    have he : f ((tally key).update t e) = f t + f (e.tally key) := hf t (e.tally key)
    rw [read, List.foldl_cons, ← read, ih, he, total_cons, Int.add_assoc]

/-- What an event takes and does not give back is held or lost. -/
theorem Course.Event.tally_add_lost (key : Bytes) (e : Event) :
    (e.tally key).held + e.lost key = (under key e.taken).length - (under key e.given).length := by
  cases e with
  | moment m => cases m <;> rfl
  | answer r a =>
    cases r with
    | clock | log | draw | connect => rfl
    | command x c =>
      cases c with
      | length name => cases a <;> rfl
      | pop name | blockingPop name seconds =>
        cases a with
        | error f => rfl
        | ok v =>
          exact (Int.add_zero _).trans (Int.sub_zero _).symm
      | push name entry =>
        cases a with
        | error f =>
          show -name.share key + name.share key = 0
          omega
        | ok v =>
          show -name.share key + 0 = 0 - ((under key [(name.key, Lists.stored entry)]).length : Int)
          rw [under_cons, Name.share]
          split <;> rfl

/-- What events take and do not give back is held or lost. -/
theorem Ledger.read_tally_add_lost (key : Bytes) (events : List Event) :
    ((tally key).read {} events).held + total (·.lost key) events =
      (under key (events.flatMap Event.taken)).length -
        (under key (events.flatMap Event.given)).length := by
  have totals : total (fun e => (e.tally key).held) events + total (·.lost key) events =
      (under key (events.flatMap Event.taken)).length -
        (under key (events.flatMap Event.given)).length := by
    induction events with
    | nil => rfl
    | cons e rest ih =>
      have first := e.tally_add_lost key
      simp only [total_cons, List.flatMap_cons, under_append, List.length_append]
      omega
  rw [read_tally (f := (·.held)) (fun _ _ => rfl), Int.add_assoc, totals]
  exact Int.zero_add _

namespace World

variable {k : Conditions} {w : World} {key : Bytes}

/-- What the events of all callers count for the blocks of a key. -/
def tally (w : World) (key : Bytes) : Tally := (Ledger.tally key).read {} (w.history.map (·.2))

/-- The permits lost by pushes that were not carried out. -/
def lost (w : World) (key : Bytes) : Int := total (·.lost key) (w.history.map (·.2))

/-- What no caller's tally owes, the tally of all callers does not owe. -/
theorem tally_nonneg {f : Tally → Int} (zero : f {} = 0) (add : ∀ s t, f (s + t) = f s + f t)
    (h : ∀ i, 0 ≤ f ((Ledger.tally key).read {} (w.eventsOf i))) : 0 ≤ f (w.tally key) := by
  rw [tally, Ledger.read_tally add, zero, Int.zero_add]
  refine total_nonneg_of_callers fun i => ?_
  have hi := h i
  rw [Ledger.read_tally add, zero, Int.zero_add] at hi
  exact hi

/-- What is sound for each caller is sound for all of them. -/
theorem tally_sound (h : ∀ i, ((Ledger.tally key).read {} (w.eventsOf i)).Sound) :
    (w.tally key).Sound := by
  constructor
  · exact tally_nonneg (f := (·.inside)) rfl (fun _ _ => rfl) fun i => (h i).inside_nonneg
  · have hle := tally_nonneg (w := w) (f := fun t => t.held - t.inside) rfl
      (fun s t => by simp; omega) fun i => Int.sub_nonneg_of_le (h i).inside_le
    omega
  · have hle := tally_nonneg (w := w) (f := fun t => t.begun - t.held) rfl
      (fun s t => by simp; omega) fun i => Int.sub_nonneg_of_le (h i).held_le
    omega

/-- What was taken and not given back is held or lost. -/
theorem tally_add_lost (w : World) (key : Bytes) :
    (w.tally key).held + w.lost key = (under key w.taken).length - (under key w.given).length := by
  have h := Ledger.read_tally_add_lost key (w.history.map (·.2))
  rw [List.flatMap_map, List.flatMap_map] at h
  exact h

theorem lost_nonneg (w : World) (key : Bytes) : 0 ≤ w.lost key := by
  refine total_nonneg fun e _ => ?_
  unfold Event.lost
  split
  · exact Name.share_nonneg key _
  · exact Int.le_refl 0

/-- Where no call fails, no permit is lost. -/
theorem Reaches.lost_eq_zero {start : World} (h : Reaches k start w) (hw : Coherent k start)
    (hs : start.history = []) (calm : k.Calm) : w.lost key = 0 := by
  have none_lost : ∀ p ∈ w.history, p.2.lost key = 0 := by
    rintro ⟨i, e⟩ hp
    cases e with
    | moment m => rfl
    | answer r a =>
      cases r with
      | clock | log | draw | connect => rfl
      | command x c =>
        cases a with
        | ok v => cases c <;> rfl
        | error f => exact absurd (h.admitted hw hs hp rfl) (calm f)
  refine total_eq_zero fun e he => ?_
  obtain ⟨p, hp, rfl⟩ := List.mem_map.mp he
  exact none_lost p hp

variable {x : Setting} {options : Semaphore.Options} {source : SourceRef} {V : Nat} {st st' : Solo}
  {s : Semaphore} {t : Number.Double} {routines : Nat → Routine}

/-- What is so of the list of a semaphore with `V` permits and of those who use it for blocks. -/
structure Excludes (k : Conditions) (s : Semaphore) (V : Nat) (w : World) : Prop where
  /-- Every permit is in the list, or held, or lost. -/
  balance : w.lists.length s.name.key + (w.tally s.name.key).held + w.lost s.name.key = V
  sound : (w.tally s.name.key).Sound
  /-- Entries and permits held never exceed `V`, even where calls fail. -/
  lost_nonneg : 0 ≤ w.lost s.name.key
  inside_le : (w.tally s.name.key).inside ≤ V
  /-- Where no call fails, entries and permits held are `V`. -/
  lost_eq_zero : k.Calm → w.lost s.name.key = 0
  /-- When no permit is held, nobody has to wait. -/
  nobody_waits : k.Calm → 1 ≤ V → (w.tally s.name.key).held = 0 →
    ∀ v ∈ w.lists.waiters, v.key ≠ s.name.key
  /-- When all blocks have ended, all permits are back. -/
  refilled : k.Calm → (w.tally s.name.key).begun = 0 → w.lists.length s.name.key = V
  /-- When all callers are done, all blocks have ended. -/
  ended : (∀ i, ∃ r, w.callers i = .done r) → (w.tally s.name.key).begun = 0

/-- **No more callers are inside a semaphore's blocks than it has permits.**  A semaphore is minted
    with `V` permits on an empty list of a store whose callers wait as its own do; callers go through
    any blocks of it in any order, and nothing else that they do touches its list.  Calls may fail. -/
theorem excludes (hs : st.lists.waiters = [])
    (hm : (Semaphore.mint options source (.int V)).run x.answer st = (.ok s, st'))
    (fits : s.store.style = options.style)
    (hempty : st.lists.entries s.name.key = []) (ht : k.reads t)
    (hr : ∀ i, (routines i).Only (Call.Spares s.name.key))
    (h : Reaches k (start st'.lists t routines) w) : w.Excludes k s V := by
  obtain ⟨nobody, entries⟩ := Semaphore.minted hs fits hm
  have coherent := coherent_start nobody ht routines
  have keeps : (start st'.lists t routines).Keeps k (.tally s.name.key) Tally.Sound
      (fun _ t' => t'.Sound ∧ t' = {}) {} := by
    have sound : Tally.Sound {} := by constructor <;> simp
    exact fun i => sound.routine (hr i)
  have kept := h.keeps coherent keeps
  have sound : (w.tally s.name.key).Sound := tally_sound fun i => (kept i).invariant
  have lost_nonneg := w.lost_nonneg s.name.key
  have balance : w.lists.length s.name.key + (w.tally s.name.key).held + w.lost s.name.key = V := by
    have conserved := congrArg List.length (h.conserves coherent rfl s.name.key)
    have filled := entries s.name.key
    rw [hempty, if_pos rfl, List.nil_append] at filled
    have full : ((start st'.lists t routines).lists.entries s.name.key).length = V := by
      show (st'.lists.entries s.name.key).length = V
      rw [filled, List.length_replicate]
    have held := w.tally_add_lost s.name.key
    rw [List.length_append, List.length_append, full] at conserved
    show ((w.lists.entries s.name.key).length : Int) + _ + _ = _
    omega
  have lost_eq_zero : k.Calm → w.lost s.name.key = 0 := h.lost_eq_zero coherent rfl
  have length_nonneg : (0 : Int) ≤ w.lists.length s.name.key := Int.natCast_nonneg _
  obtain ⟨inside_nonneg, inside_le, held_le⟩ := sound
  refine ⟨balance, ⟨inside_nonneg, inside_le, held_le⟩, lost_nonneg, by omega, lost_eq_zero, ?_, ?_, ?_⟩
  -- With nothing held or lost the list is full, and nobody waits on a list with entries.
  · intro calm positive free v hv hkey
    have empty := (h.coherent coherent).empty v hv
    have none_left : w.lists.length s.name.key = 0 := by
      show (w.lists.entries s.name.key).length = 0
      rw [← hkey, empty]
      rfl
    have := lost_eq_zero calm
    omega
  · intro calm ended
    have := lost_eq_zero calm
    omega
  · intro done
    -- Each caller is where it was at the start, so together they owe no block.
    have settled : ∀ i, (Ledger.tally s.name.key).read {} (w.eventsOf i) = {} := by
      intro i
      obtain ⟨r, hr⟩ := done i
      have hi := kept i
      rw [hr] at hi
      exact hi.2.2
    have hle : 0 ≤ -(w.tally s.name.key).begun :=
      tally_nonneg (f := fun t => -t.begun) rfl (fun s t => by simp; omega) fun i => by
        rw [settled i]
        exact Int.le_refl 0
    omega

/-- Sevens spell out this semaphore. -/
def seventh : Semaphore :=
  .brief (.text "77777777-77777777-77777777-77777777-77777777") ⟨⟨"lists", .direct⟩⟩

/-- The list that is left when a semaphore of sevens is minted with one permit. -/
def seventhLists : Lists := { table := [(seventh.name.key, [[0x31]])] }

/-- Two callers run a block each on a semaphore with one permit: one holds it, and one waits. -/
theorem seventh_excludes : ∃ w : World, w.Excludes .still seventh 1 ∧
    (w.tally seventh.name.key).held = 1 ∧ (w.tally seventh.name.key).begun = 2 ∧
    w.lists.waiters.length = 1 := by
  have minted : (Semaphore.mint ⟨.direct, some seventh.store, none, some (.float (.finite false 1)),
      none⟩ .system (.int 1)).run Setting.sevens.answer { lists := {} } =
        (.ok seventh, ⟨seventhLists, 0, 40, 1⟩) := rfl
  let block : Routine := .within seventh (.ends (.ok ())) fun _ => .ends (.ok ())
  have only : block.Only (Call.Spares seventh.name.key) := ⟨trivial, fun _ => trivial⟩
  have both : Reaches .still (start seventhLists (.finite false 1) fun _ => block) _ := .refl
  have turns := (both.step (.pass (i := 0) rfl)).step (.tell (i := 0) (r := .clock) rfl rfl)
  have holds := turns.step (.serve (i := 0) rfl rfl rfl)
  have follows := (holds.step (.pass (i := 1) rfl)).step (.tell (i := 1) (r := .clock) rfl rfl)
  have waits := follows.step (.wait (i := 1) rfl rfl rfl)
  exact ⟨_, excludes rfl minted rfl rfl rfl (fun _ => only) waits, rfl, rfl, rfl⟩

end World

end Permits
