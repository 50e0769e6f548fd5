/-
  Lists under commands — what one command does to the entries and to those who wait.

  A command **takes** an entry out of its list or **gives** one to it; so does a push that serves a pop
  which waits.  With these words each fact about `Lists.execute` is one statement for all commands:

  1. what was taken, in order, followed by what is left is what was there followed by what was given
     (`Outcome.entries_eq`);
  2. who was served and who still waits are those who waited (`Outcome.perm`), and only those are
     served who wait on the command's list (`Outcome.key_of_served`);
  3. whoever waits, waits on an empty list, before and after (`Outcome.empty`).

  All of it follows from `Outcome`, which says once what a command can come to.
-/
import Permits.Proofs.Conditions

namespace Permits

open Text

/-! ## Entries that change hands -/

namespace Command

/-- The entry that a reply to a pop hands over, with the key of its list. -/
def takes : Command → Value → List (Bytes × Bytes)
  | pop name, .bytes entry => [(name.key, entry)]
  | blockingPop name _, .list [_, .bytes entry] => [(name.key, entry)]
  | _, _ => []

/-- The entry that a push appends, with the key of its list. -/
def gives : Command → List (Bytes × Bytes)
  | push name entry => [(name.key, Lists.stored entry)]
  | _ => []

theorem takes_none (c : Command) : c.takes .none = [] := by
  cases c <;> rfl

/-- The reply that hands an entry over takes it. -/
theorem takes_handing (n : Name) (x : Number.Double) (e : Bytes) :
    (popFor n x).takes ((popFor n x).handing e) = [(n.key, e)] := by
  unfold popFor
  split <;> rfl

end Command

section Under

variable {κ α : Type} [DecidableEq κ]

/-- What stands under one key among things with their keys. -/
def under (key : κ) (es : List (κ × α)) : List α :=
  es.filterMap fun e => if e.1 = key then some e.2 else none

@[simp] theorem under_nil (key : κ) : under key ([] : List (κ × α)) = [] := rfl

@[simp] theorem under_cons (key : κ) (e : κ × α) (es : List (κ × α)) :
    under key (e :: es) = if e.1 = key then e.2 :: under key es else under key es := by
  by_cases h : e.1 = key
  · simp [under, h]
  · simp [under, h]

@[simp] theorem under_append (key : κ) (a b : List (κ × α)) :
    under key (a ++ b) = under key a ++ under key b :=
  List.filterMap_append

theorem mem_under {key : κ} {e : α} {es : List (κ × α)} : e ∈ under key es ↔ (key, e) ∈ es := by
  induction es with
  | nil => simp
  | cons p es ih =>
    obtain ⟨k, x⟩ := p
    by_cases h : k = key
    · simp [h, ih]
    · have h' : ¬key = k := fun e => h e.symm
      simp [h, h', ih]

theorem under_replicate (key : κ) (n : Nat) (e : κ × α) :
    under key (List.replicate n e) = if key = e.1 then List.replicate n e.2 else [] := by
  by_cases h : key = e.1
  · simp [under, h]
  · have h' : ¬e.1 = key := fun he => h he.symm
    simp [under, h, h']

/-- What is left under a key when everything under another is taken away. -/
theorem under_filter_ne (key k : κ) (es : List (κ × α)) :
    under k (es.filter (·.1 ≠ key)) = if k = key then [] else under k es := by
  induction es with
  | nil => simp
  | cons e es ih =>
    by_cases h : e.1 = key
    · rw [List.filter_cons_of_neg (by simpa using h), ih, under_cons, h]
      by_cases hk : k = key
      · simp [hk]
      · have hk' : ¬key = k := fun e => hk e.symm
        simp [hk, hk']
    · rw [List.filter_cons_of_pos (by simpa using h), under_cons, ih, under_cons]
      by_cases hk : k = key
      · have he : ¬e.1 = k := fun e => h (e.trans hk)
        simp [hk, h]
      · simp [hk]

end Under

/-- A waiting pop that is served takes an entry of its list. -/
def Waiter.takes (served : Waiter × Bytes) : Bytes × Bytes := (served.1.key, served.2)

namespace Lists

theorem stored_permit : stored permit = [0x31] := by decide

/-! ## Serving -/

/-- Nobody comes or goes when entries are handed out. -/
theorem perm_serve (key : Bytes) (ws : List Waiter) (es : List Bytes) :
    ((serve key ws es).1.map (·.1) ++ (serve key ws es).2.1).Perm ws := by
  induction ws generalizing es with
  | nil => exact .refl _
  | cons w ws ih =>
    cases es with
    | nil => exact .refl _
    | cons e es =>
      by_cases h : w.key = key
      · simp only [serve, h, ↓reduceIte]
        exact (ih es).cons w
      · simp only [serve, h, ↓reduceIte]
        exact List.perm_middle.trans ((ih (e :: es)).cons w)

/-- As long as somebody waits on the key, nothing is left of its entries. -/
theorem left_eq_nil {key : Bytes} {ws : List Waiter} {es : List Bytes} {w : Waiter}
    (h : w ∈ (serve key ws es).2.1) (hw : w.key = key) : (serve key ws es).2.2 = [] := by
  -- Each of those who wait on the key uses up one entry until none are left.
  induction ws generalizing es with
  | nil => cases h
  | cons v ws ih =>
    cases es with
    | nil => rfl
    | cons e es =>
      by_cases hv : v.key = key
      · simp only [serve, hv, ↓reduceIte] at h ⊢
        exact ih h
      · simp only [serve, hv, ↓reduceIte, List.mem_cons] at h ⊢
        rcases h with rfl | h
        · exact absurd hw hv
        · exact ih h

/-- The entries that waiting pops of one list take, whatever the list. -/
theorem under_served (key : Bytes) {served : List (Waiter × Bytes)}
    (h : ∀ p ∈ served, p.1.key = key) (k : Bytes) :
    under k (served.map Waiter.takes) = if k = key then served.map (·.2) else [] := by
  induction served with
  | nil => simp
  | cons p ps ih =>
    have hp : p.1.key = key := h p (List.mem_cons_self ..)
    rw [List.map_cons, under_cons, ih fun q hq => h q (List.mem_cons_of_mem p hq)]
    by_cases hk : k = key
    · simp [Waiter.takes, hp, hk]
    · have hk' : ¬key = k := fun e => hk e.symm
      simp [Waiter.takes, hp, hk, hk']

/-! ## Commands -/

/-- What a command can come to: an entry is appended, or entries are counted, or the oldest entry is
    taken, or there is none and the command is answered by nothing or has to wait. -/
inductive Outcome (s : Lists) : Command → Effect → Prop where
  | pushed (name : Name) (entry : Value) :
      Outcome s (.push name entry)
        ⟨some (.int (s.push name.key (stored entry)).1), (s.push name.key (stored entry)).2.1,
          (s.push name.key (stored entry)).2.2⟩
  | counted (name : Name) : Outcome s (.length name) ⟨some (.int (s.length name.key)), [], s⟩
  | polled {name : Name} {e : Bytes} {t : Lists} (h : s.pop name.key = some (e, t)) :
      Outcome s (.pop name) ⟨some (.bytes e), [], t⟩
  | popped {name : Name} {seconds : Number.Double} {e : Bytes} {t : Lists}
      (h : s.pop name.key = some (e, t)) :
      Outcome s (.blockingPop name seconds) ⟨some (pair name.key e), [], t⟩
  | missed {name : Name} (h : s.entries name.key = []) : Outcome s (.pop name) ⟨some .none, [], s⟩
  | waits {name : Name} {seconds : Number.Double} (h : s.entries name.key = []) :
      Outcome s (.blockingPop name seconds) ⟨none, [], s⟩

theorem outcome_execute (s : Lists) (c : Command) : s.Outcome c (s.execute c) := by
  cases c with
  | push name entry => exact .pushed name entry
  | length name => exact .counted name
  | pop name =>
    simp only [execute]
    split
    · next e t h => exact .polled h
    · next h => exact .missed (pop_eq_none_iff.mp h)
  | blockingPop name seconds =>
    simp only [execute]
    split
    · next e t h => exact .popped h
    · next h => exact .waits (pop_eq_none_iff.mp h)

namespace Outcome

variable {s : Lists} {c : Command} {effect : Effect}

/-- A reply has the form that belongs to the command. -/
theorem answers (h : s.Outcome c effect) {v : Value} (hv : effect.reply = some v) :
    c.Answers v := by
  cases h with
  | pushed | counted => exact ⟨_, (Option.some.inj hv).symm⟩
  | polled | popped => exact .inr ⟨_, (Option.some.inj hv).symm⟩
  | missed => exact .inl (Option.some.inj hv).symm
  | waits => cases hv

/-- Only a blocking pop may have to wait, and then it leaves the lists as they are. -/
theorem of_waits (h : s.Outcome c effect) (hv : effect.reply = none) :
    ∃ name seconds, c = .blockingPop name seconds := by
  cases h with
  | pushed | counted | polled | popped | missed => cases hv
  | waits => exact ⟨_, _, rfl⟩

theorem lists_of_waits (h : s.Outcome c effect) (hv : effect.reply = none) : effect.lists = s := by
  cases h with
  | pushed | counted | polled | popped | missed => cases hv
  | waits => rfl

theorem key_of_served (h : s.Outcome c effect) : ∀ p ∈ effect.served, p.1.key = c.name.key := by
  cases h with
  | pushed => exact fun p hp => key_of_mem_served hp
  | counted | polled | popped | missed | waits =>
    intro p hp
    cases hp

/-- Only a push changes who waits; those it serves wait no longer. -/
theorem perm (h : s.Outcome c effect) :
    (effect.served.map (·.1) ++ effect.lists.waiters).Perm s.waiters := by
  cases h with
  | pushed name entry => exact perm_serve name.key s.waiters _
  | counted | missed | waits => exact .refl _
  | polled h | popped h =>
    rw [waiters_of_pop h]
    exact .refl _

/-- **No entry is lost and none is made up**: what was taken followed by what is left is what was
    there followed by what was given. -/
theorem entries_eq (h : s.Outcome c effect) {v : Value} (hv : effect.reply = some v)
    (key : Bytes) :
    under key (c.takes v ++ effect.served.map Waiter.takes) ++ effect.lists.entries key =
      s.entries key ++ under key c.gives := by
  have served := h.key_of_served
  cases h with
  | pushed name entry =>
    rw [under_append, under_served name.key served]
    by_cases hk : key = name.key
    · subst hk
      simpa [Command.takes, Command.gives] using entries_push s name.key (stored entry)
    · have hk' : ¬name.key = key := fun e => hk e.symm
      simpa [Command.takes, Command.gives, hk, hk'] using entries_push_of_ne s (stored entry) hk
  | counted => simp [Command.takes, Command.gives]
  | @polled name e t h | @popped name _ e t h =>
    cases hv
    rw [entries_of_pop h key]
    by_cases hk : key = name.key
    · simp [Command.takes, Command.gives, pair, hk]
    · have hk' : ¬name.key = key := fun e => hk e.symm
      simp [Command.takes, Command.gives, pair, hk, hk']
  | missed =>
    cases hv
    simp [Command.takes, Command.gives]
  | waits => cases hv

/-- Whoever waits, waits on an empty list. -/
theorem empty (h : s.Outcome c effect) (hs : ∀ w ∈ s.waiters, s.entries w.key = []) :
    ∀ w ∈ effect.lists.waiters, effect.lists.entries w.key = [] := by
  cases h with
  | counted | missed | waits => exact hs
  | polled h | popped h =>
    intro w hw
    rw [waiters_of_pop h] at hw
    -- Something was taken off the command's list, so nobody waited on that one.
    have hwe := hs w hw
    rw [entries_of_pop h] at hwe
    split at hwe
    · cases hwe
    · exact hwe
  | pushed name entry =>
    intro w hw
    -- Whoever still waits on the key has not been served because nothing was left.
    by_cases hk : w.key = name.key
    · show ((s.put name.key _).entries w.key) = []
      rw [entries_put, if_pos hk]
      exact left_eq_nil hw hk
    · rw [entries_push_of_ne s _ hk]
      exact hs w ((perm_serve name.key s.waiters _).subset (List.mem_append_right _ hw))

end Outcome

end Lists

end Permits
