/-
  Content — what is left when nobody looks at entries.

  An entry of a list is a permit, and nothing more.  To say so, content is made blank wherever it can
  show.

  1. **Values and commands** (`Value.blank`, `Command.blank`, `Command.blankReply`): any bytes stand for
     any others in the reply to a pop, and a push has no payload.
  2. **Events** (`Event.blank`): a request and its answer without content, and a call that has returned
     without the entry that it returned.
  3. **Lists** (`Lists.Alike`): alike are stores whose lists have the same lengths, and on which the same
     pops wait.  Commands that are the same but for a payload have replies that are the same but for
     content, and leave alike what was alike (`Lists.Alike.execute`).
  4. **Lone callers** (`Setting.watched`): surroundings that note the lists after each answer, so that
     two runs can be compared step by step (`contents`).
-/
import Permits.Proofs.Agreement
import Permits.Proofs.Demands
import Permits.Proofs.Solo

namespace Permits

open Text
open Course (Event)

/-! ## Values, commands and events -/

/-- The value without its content, if it is bytes. -/
def Value.blank : Value → Value
  | .bytes _ => .bytes []
  | v => v

/-- The pair of a key and an entry without the entry's content. -/
def Value.blankSecond : Value → Value
  | .list [key, entry] => .list [key, entry.blank]
  | v => v

/-- Are two values the same, or are both bytes? -/
def Value.Alike (v w : Value) : Prop := v.blank = w.blank

/-- An entry is like an entry, and nothing is like nothing. -/
theorem Value.Alike.eq_none_iff {v w : Value} (h : v.Alike w) : v = .none ↔ w = .none := by
  unfold Value.Alike at h
  constructor
  · rintro rfl
    cases w <;> first | rfl | cases h
  · rintro rfl
    cases v <;> first | rfl | cases h

/-- Values that are alike are both entries or both not. -/
theorem Value.Alike.isEntry {v w : Value} (h : v.Alike w) :
    Semaphore.isEntry v = Semaphore.isEntry w := by
  have same : ∀ u, Semaphore.isEntry u = Semaphore.isEntry u.blank := by
    intro u
    cases u <;> rfl
  rw [same v, same w]
  exact congrArg Semaphore.isEntry h

/-- Without content, two replies are the same only if they are, or if they are pairs with one key and
    entries that are alike. -/
theorem Value.eq_of_blankSecond {v w : Value} (h : v.blankSecond = w.blankSecond) :
    v = w ∨ ∃ key e e', v = .list [key, e] ∧ w = .list [key, e'] ∧ e.Alike e' := by
  unfold blankSecond at h
  split at h
  · split at h
    · next key e _ key' e' =>
      simp only [Value.list.injEq, List.cons.injEq, and_true] at h
      obtain ⟨rfl, like⟩ := h
      exact .inr ⟨key, e, e', rfl, rfl, like⟩
    · next other => exact absurd h.symm (other _ _)
  · next other =>
    split at h
    · exact absurd h (other _ _)
    · exact .inl h

/-- The entry in the reply to a pop that waited is alike if the replies are the same without it. -/
theorem Reply.both_popped {v w : Value} (h : v.blankSecond = w.blankSecond) :
    Both Value.Alike (Reply.popped v) (Reply.popped w) := by
  rcases Value.eq_of_blankSecond h with rfl | ⟨key, e, e', rfl, rfl, like⟩
  · exact Both.refl (R := Value.Alike) (fun _ => rfl) (Reply.popped v)
  · exact like

namespace Command

/-- The command without its payload. -/
def blank : Command → Command
  | push name _ => push name .none
  | c => c

/-- The reply to a command, without the entry that it hands over. -/
def blankReply : Command → Value → Value
  | pop _, v => v.blank
  | blockingPop .., v => v.blankSecond
  | push .., v | length _, v => v

theorem blankReply_none (c : Command) : c.blankReply .none = .none := by
  cases c <;> rfl

theorem blankReply_of_not_isPop {c : Command} (h : c.isPop = false) (v : Value) :
    c.blankReply v = v := by
  cases c with
  | push | length => rfl
  | pop | blockingPop => cases h

end Command

/-- A moment without the payload of the call that returned, and without the entry that it returned. -/
def Moment.blank : Moment → Moment
  | .returned (.push store name _) r => .returned (.push store name .none) r
  | .returned (.blockingPop store name d) r => .returned (.blockingPop store name d) (r.map Value.blank)
  | .returned (.acquire store name d) r => .returned (.acquire store name d) (r.map Value.blank)
  | .returned (.command r name args) v => .returned (.command r name args) (v.map Value.blank)
  | m => m

/-- An event without content. -/
def Course.Event.blank : Event → Event
  | .answer (.command x c) a => .answer (.command x c.blank) (a.map c.blankReply)
  | .answer r a => .answer r a
  | .moment m => .moment m.blank

/-! ## Lists -/

namespace Lists

/-- Do the lists of two stores have the same lengths, and do the same pops wait? -/
structure Alike (l l' : Lists) : Prop where
  length : ∀ key, l.length key = l'.length key
  waiters : l.waiters = l'.waiters

variable {l l' : Lists}

theorem Alike.put (h : l.Alike l') (key : Bytes) {es es' : List Bytes}
    (hl : es.length = es'.length) : (l.put key es).Alike (l'.put key es') := by
  refine ⟨fun k => ?_, h.waiters⟩
  show ((l.put key es).entries k).length = ((l'.put key es').entries k).length
  rw [entries_put, entries_put]
  split
  · exact hl
  · exact h.length k

/-- Whom the entries of a list serve depends on how many they are. -/
theorem serve_congr (key : Bytes) (ws : List Waiter) {es es' : List Bytes}
    (h : es.length = es'.length) :
    (serve key ws es).2.1 = (serve key ws es').2.1 ∧
      (serve key ws es).2.2.length = (serve key ws es').2.2.length := by
  induction ws generalizing es es' with
  | nil => exact ⟨rfl, h⟩
  | cons w ws ih =>
    match es, es', h with
    | [], [], _ => exact ⟨rfl, rfl⟩
    | e :: es, e' :: es', h =>
      by_cases hk : w.key = key
      · obtain ⟨waiting, left⟩ := ih (Nat.succ.inj h)
        simp only [serve, hk, ↓reduceIte]
        exact ⟨waiting, left⟩
      · obtain ⟨waiting, left⟩ := ih h
        simp only [serve, hk, ↓reduceIte]
        exact ⟨congrArg (w :: ·) waiting, left⟩

theorem Alike.push (h : l.Alike l') (key e e' : Bytes) :
    (l.push key e).1 = (l'.push key e').1 ∧ (l.push key e).2.2.Alike (l'.push key e').2.2 := by
  have longer : (l.entries key ++ [e]).length = (l'.entries key ++ [e']).length := by
    rw [List.length_append, List.length_append]
    exact congrArg (· + 1) (h.length key)
  obtain ⟨waiting, left⟩ := serve_congr key l'.waiters longer
  unfold Lists.push
  rw [h.waiters]
  exact ⟨longer, (h.put key left).length, waiting⟩

/-- From lists of one length either an entry is popped or nothing. -/
theorem Alike.pop (h : l.Alike l') (key : Bytes) :
    (l.pop key = none ∧ l'.pop key = none) ∨ ∃ e t e' t',
      l.pop key = some (e, t) ∧ l'.pop key = some (e', t') ∧ t.Alike t' := by
  have same : (l.entries key).length = (l'.entries key).length := h.length key
  unfold Lists.pop
  match hes : l.entries key, hes' : l'.entries key with
  | [], [] => exact .inl ⟨rfl, rfl⟩
  | e :: es, e' :: es' =>
    rw [hes, hes'] at same
    exact .inr ⟨e, _, e', _, rfl, rfl, h.put key (Nat.succ.inj same)⟩
  | [], e' :: es' =>
    rw [hes, hes'] at same
    cases same
  | e :: es, [] =>
    rw [hes, hes'] at same
    cases same

/-- **A command leaves alike what was alike**, whatever its payload. -/
theorem Alike.execute (h : l.Alike l') {c c' : Command} (hc : c.blank = c'.blank) :
    (l.execute c).reply.map c.blankReply = (l'.execute c').reply.map c'.blankReply ∧
      (l.execute c).lists.Alike (l'.execute c').lists := by
  cases c with
  | push name v =>
    cases c' <;> cases hc
    next w =>
      obtain ⟨length, lists⟩ := h.push name.key (stored v) (stored w)
      exact ⟨congrArg (fun n : Nat => some (Value.int n)) length, lists⟩
  | pop name =>
    cases c' <;> cases hc
    rcases h.pop name.key with ⟨none, none'⟩ | ⟨e, t, e', t', some, some', lists⟩
    · simp only [Lists.execute, none, none']
      exact ⟨trivial, h⟩
    · simp only [Lists.execute, some, some']
      exact ⟨rfl, lists⟩
  | blockingPop name seconds =>
    cases c' <;> cases hc
    rcases h.pop name.key with ⟨none, none'⟩ | ⟨e, t, e', t', some, some', lists⟩
    · simp only [Lists.execute, none, none']
      exact ⟨trivial, h⟩
    · simp only [Lists.execute, some, some']
      exact ⟨rfl, lists⟩
  | length name =>
    cases c' <;> cases hc
    exact ⟨congrArg (fun n : Nat => some (Value.int n)) (h.length name.key), h⟩

end Lists

/-! ## Lone callers -/

/-- Do two lone callers find lists that are alike, after as many looks, draws and calls? -/
structure Solo.Alike (s t : Solo) : Prop where
  lists : s.lists.Alike t.lists
  looks : s.looks = t.looks
  drawn : s.drawn = t.drawn
  calls : s.calls = t.calls

/-- Answers a request, and notes the lists as they are then. -/
def Setting.watched (x : Setting) (r : Request) (s : Solo × List Lists) :
    r.Answer × Solo × List Lists :=
  ((x.answer r s.1).1, (x.answer r s.1).2, s.2 ++ [(x.answer r s.1).2.lists])

/-- To be watched makes no difference to a caller. -/
theorem Setting.run_watched {α : Type} (x : Setting) (p : Course α) (s : Solo) (seen : List Lists) :
    (p.run x.watched (s, seen)).events = (p.run x.answer s).events ∧
      (p.run x.watched (s, seen)).result = (p.run x.answer s).result ∧
      (p.run x.watched (s, seen)).state.1 = (p.run x.answer s).state := by
  induction p generalizing s seen with
  | done a => exact ⟨rfl, rfl, rfl⟩
  | mark m next ih =>
    obtain ⟨events, result, state⟩ := ih s seen
    exact ⟨congrArg (_ :: ·) events, result, state⟩
  | ask r next ih =>
    obtain ⟨events, result, state⟩ := ih (x.answer r s).1 (x.answer r s).2
      (seen ++ [(x.answer r s).2.lists])
    exact ⟨congrArg (_ :: ·) events, result, state⟩

/-- Two lone callers in one setting, each with lists of its own; of events and of lists all but
    content counts, at every step. -/
def contents (x : Setting) : Pairing (Solo × List Lists) (Solo × List Lists) where
  left := x.watched
  right := x.watched
  belong s t := s.1.Alike t.1 ∧ s.2.map Lists.length = t.2.map Lists.length
  view := Event.blank

end Permits
