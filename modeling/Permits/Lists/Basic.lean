/-
  Lists — a store of named lists on which callers may wait.

  1. **The store** (`Lists`): entries by key, the oldest first, and the pops that wait, in the order
     in which they began to wait, each with a ticket and a deadline.
  2. **`push`** appends an entry and tells the new length; then, as long as the list has entries and
     a pop waits on its key, the pop that waits longest is served the oldest entry.
  3. **`pop`** takes the oldest entry of a list, **`length`** counts entries.
  4. **`wait`**, **`leave`** and **`due`** are for pops that wait: they begin, they give up, and
     they are overdue.
-/
import Permits.Number.Double
import Permits.Text.Utf8

namespace Permits

open Number Text

/-- A pop that waits for an entry. -/
structure Waiter where
  ticket : Nat
  key : Bytes
  deadline : Double
  deriving DecidableEq, Repr, Inhabited

/-- Entries by key, and the pops that wait. -/
structure Lists where
  table : List (Bytes × List Bytes) := []
  waiters : List Waiter := []
  deriving DecidableEq, Repr, Inhabited

namespace Lists

/-! ## Entries by key -/

/-- The entries that a table holds under a key. -/
def find (key : Bytes) : List (Bytes × List Bytes) → List Bytes
  | [] => []
  | (k, entries) :: rest => if k = key then entries else find key rest

/-- The table with other entries under a key. -/
def store (key : Bytes) (entries : List Bytes) : List (Bytes × List Bytes) → List (Bytes × List Bytes)
  | [] => [(key, entries)]
  | (k, old) :: rest => if k = key then (key, entries) :: rest else (k, old) :: store key entries rest

/-- The entries of a list, the oldest first. -/
def entries (s : Lists) (key : Bytes) : List Bytes := find key s.table

/-- The store with other entries in one list. -/
def put (s : Lists) (key : Bytes) (entries : List Bytes) : Lists :=
  { s with table := store key entries s.table }

theorem find_store (key k : Bytes) (es : List Bytes) (table : List (Bytes × List Bytes)) :
    find k (store key es table) = if k = key then es else find k table := by
  induction table with
  | nil =>
    by_cases h : k = key
    · simp [store, find, h]
    · have h' : ¬key = k := fun e => h e.symm
      simp [store, find, h, h']
  | cons e rest ih =>
    obtain ⟨k', old⟩ := e
    by_cases h' : k' = key
    · subst h'
      by_cases h : k' = k
      · simp [store, find, h]
      · have hk : ¬k = k' := fun e => h e.symm
        simp [store, find, h, hk]
    · by_cases h : k' = k
      · subst h
        simp [store, find, h']
      · simp [store, find, h', h, ih]

/-- Other entries in one list leave every other list as it is. -/
theorem entries_put (s : Lists) (key k : Bytes) (es : List Bytes) :
    (s.put key es).entries k = if k = key then es else s.entries k :=
  find_store key k es s.table

/-! ## Pops that wait -/

/-- Serves those who wait on a key, the longest waiting first, as long as there are entries.  The
    results are who was served what, who still waits, and what entries are left. -/
def serve (key : Bytes) : List Waiter → List Bytes → List (Waiter × Bytes) × List Waiter × List Bytes
  | [], es => ([], [], es)
  | w :: ws, [] => ([], w :: ws, [])
  | w :: ws, e :: es =>
    if w.key = key then
      let (served, waiting, left) := serve key ws es
      ((w, e) :: served, waiting, left)
    else
      let (served, waiting, left) := serve key ws (e :: es)
      (served, w :: waiting, left)

/-- **No entry is lost**: what is served, in order, followed by what is left is what was there. -/
theorem served_append_left (key : Bytes) (ws : List Waiter) (es : List Bytes) :
    (serve key ws es).1.map (·.2) ++ (serve key ws es).2.2 = es := by
  induction ws generalizing es with
  | nil => simp [serve]
  | cons w ws ih =>
    cases es with
    | nil => simp [serve]
    | cons e es =>
      by_cases h : w.key = key
      · simp only [serve, h, ↓reduceIte, List.map_cons, List.cons_append, ih es]
      · simp only [serve, h, ↓reduceIte, ih (e :: es)]

/-- Only those are served who wait on the key. -/
theorem key_of_mem_served {key : Bytes} {ws : List Waiter} {es : List Bytes} {w : Waiter}
    {e : Bytes} (h : (w, e) ∈ (serve key ws es).1) : w.key = key := by
  induction ws generalizing es with
  | nil => simp [serve] at h
  | cons v ws ih =>
    cases es with
    | nil => simp [serve] at h
    | cons x es =>
      by_cases hk : v.key = key
      · simp only [serve, hk, ↓reduceIte, List.mem_cons, Prod.mk.injEq] at h
        rcases h with ⟨rfl, _⟩ | h
        · exact hk
        · exact ih h
      · simp only [serve, hk, ↓reduceIte] at h
        exact ih h

/-- A pop begins to wait, behind all others. -/
def wait (s : Lists) (w : Waiter) : Lists := { s with waiters := s.waiters ++ [w] }

/-- A pop gives up. -/
def leave (s : Lists) (ticket : Nat) : Lists :=
  { s with waiters := s.waiters.filter (·.ticket != ticket) }

def isWaiting (s : Lists) (ticket : Nat) : Bool := s.waiters.any (·.ticket == ticket)

/-- The pops whose deadline is at or before `time`, the earliest deadline first; of equal deadlines
    the one that waits longer. -/
def due (s : Lists) (time : Double) : List Waiter :=
  (s.waiters.filter (·.deadline.le time)).mergeSort fun v w => v.deadline.le w.deadline

/-! ## The commands -/

/-- Appends an entry.  The results are the length right after that, and who was served what. -/
def push (s : Lists) (key entry : Bytes) : Nat × List (Waiter × Bytes) × Lists :=
  let appended := s.entries key ++ [entry]
  let (served, waiting, left) := serve key s.waiters appended
  (appended.length, served, { s.put key left with waiters := waiting })

/-- Takes the oldest entry, if there is one. -/
def pop (s : Lists) (key : Bytes) : Option (Bytes × Lists) :=
  match s.entries key with
  | [] => none
  | e :: es => some (e, s.put key es)

def length (s : Lists) (key : Bytes) : Nat := (s.entries key).length

/-- After a push the entry stands behind all others, and the oldest went to those who waited. -/
theorem entries_push (s : Lists) (key entry : Bytes) :
    (s.push key entry).2.1.map (·.2) ++ (s.push key entry).2.2.entries key =
      s.entries key ++ [entry] := by
  have h : (s.push key entry).2.2.entries key =
      (serve key s.waiters (s.entries key ++ [entry])).2.2 := by
    show (s.put key _).entries key = _
    rw [entries_put, if_pos rfl]
  rw [h]
  exact served_append_left key s.waiters (s.entries key ++ [entry])

/-- A push leaves every other list as it is. -/
theorem entries_push_of_ne (s : Lists) (entry : Bytes) {key k : Bytes} (h : k ≠ key) :
    (s.push key entry).2.2.entries k = s.entries k := by
  show (s.put key _).entries k = _
  rw [entries_put, if_neg h]

/-- A pop takes the oldest entry of its list, and nothing from any other. -/
theorem entries_of_pop {s t : Lists} {key e : Bytes} (h : s.pop key = some (e, t)) (k : Bytes) :
    s.entries k = if k = key then e :: t.entries k else t.entries k := by
  unfold pop at h
  split at h
  · cases h
  · next e' es hes =>
    cases h
    rw [entries_put]
    by_cases hk : k = key
    · simp [hk, hes]
    · simp [hk]

/-- A pop leaves those who wait as they are. -/
theorem waiters_of_pop {s t : Lists} {key e : Bytes} (h : s.pop key = some (e, t)) :
    t.waiters = s.waiters := by
  unfold pop at h
  split at h
  · cases h
  · cases h
    rfl

/-- There is nothing to pop exactly when the list is empty. -/
theorem pop_eq_none_iff {s : Lists} {key : Bytes} : s.pop key = none ↔ s.entries key = [] := by
  unfold pop
  split <;> simp_all

/-- The lists that are not empty, in the order of their keys. -/
def toList (s : Lists) : List (Bytes × List Bytes) :=
  (s.table.filter fun e => e.2 != []).mergeSort fun a b => a.1 ≤ b.1

end Lists

end Permits
