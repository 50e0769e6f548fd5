/-
  Commands of operations — what each operation can send at all.

  `Op.Sends Q` says that an operation sends no commands but such as satisfy `Q`, whatever it is answered;
  it may read the clock, draw, write records and connect as it likes.  There is one rule for each function
  that takes no entries: a release sends pushes of permits onto its list, a look at the value asks for the
  length, and everything else sends nothing.
-/
import Permits.Proofs.Account.Basic

namespace Permits

/-- Is a request no command, or one with some property? -/
def Request.Sends (Q : Command → Prop) : Request → Prop
  | command _ c => Q c
  | _ => True

namespace Op

variable {α β : Type} {Q : Command → Prop}

/-- Does an operation send commands with some property only? -/
def Sends (Q : Command → Prop) (op : Op α) : Prop := op.All (Request.Sends Q)

theorem Sends.waitedFor {style : Style} {op : Op α} (h : op.Sends Q) : (op.waitedFor style).Sends Q :=
  All.waitedFor h

theorem sends_clock : clock.Sends Q := ⟨trivial, fun _ => trivial⟩

theorem sends_log (r : Record) : (log r).Sends Q := ⟨trivial, fun _ => trivial⟩

end Op

open Op

variable {α : Type} {Q : Command → Prop}

/-! ## Stores -/

namespace ListStore

variable {s : ListStore} {name : Name}

theorem sends_send {c : Command} (h : Q c) : (s.send c).Sends Q := ⟨h, fun _ => trivial⟩

theorem sends_push {entry : Value} (h : Q (.push name entry)) : (s.push name entry).Sends Q := by
  rw [push_eq]
  exact All.bind (sends_send h) fun _ => All.bind (sends_log _) fun _ => trivial

theorem sends_length (h : Q (.length name)) : (s.length name).Sends Q := by
  rw [length_eq]
  exact All.bind (sends_send h) fun _ => all_ofExcept _

end ListStore

/-! ## Permits -/

theorem sends_release {s : ListStore} {name : Name} (h : Q (.push name permit)) :
    (release s name).Sends Q := by
  rw [release_eq]
  exact ListStore.sends_push h

/-! ## Identifiers -/

/-- To mint a name is to draw. -/
theorem Identifier.all_mint (source : SourceRef) : (mint source).All (· = .draw source 10) := by
  have digit : (digit source).All (· = .draw source 10) := ⟨rfl, fun _ => trivial⟩
  have segment : (segment source).All (· = .draw source 10) := All.bind (digit.times _) fun _ => trivial
  exact All.bind (segment.times _) fun _ => trivial

theorem Identifier.sends_mint {source : SourceRef} : (mint source).Sends Q := by
  refine (all_mint source).mono ?_
  rintro r rfl
  trivial

/-! ## Semaphores -/

namespace Semaphore

variable {s : Semaphore}

theorem sends_value (h : Q (.length s.name)) : s.value.Sends Q := by
  rw [value_eq]
  exact ListStore.sends_length h

theorem sends_locked (h : Q (.length s.name)) : s.locked.Sends Q := by
  rw [locked_eq]
  exact All.bind (sends_value h) fun _ => trivial

theorem sends_releaseTimes (h : Q (.push s.name permit)) : ∀ n, (s.releaseTimes n).Sends Q
  | 0 => trivial
  | 1 => Permits.sends_release h
  | n + 2 => All.bind (Permits.sends_release h) fun _ => sends_releaseTimes h (n + 1)

theorem sends_release {n : Value} (h : Q (.push s.name permit)) : (s.release n).Sends Q := by
  rw [release_eq]
  exact All.check fun n _ => sends_releaseTimes h n

/-- To make a semaphore is to connect to a store at most. -/
theorem all_create (options : Options) (name : Value) :
    (create options name).All fun r => ∃ c, r = .connect c := by
  have found : options.findStore.All fun r => ∃ c, r = .connect c := by
    unfold Options.findStore
    split
    · trivial
    · rw [ListStore.connect_eq]
      split
      · trivial
      · exact ⟨⟨_, rfl⟩, fun _ => trivial⟩
  rw [create_eq]
  exact All.check fun n _ => found.bind fun store => All.check fun _ _ => trivial

theorem sends_create {options : Options} {name : Value} : (create options name).Sends Q := by
  refine (all_create options name).mono ?_
  rintro r ⟨c, rfl⟩
  trivial

/-- Callers of another style than the store's push permits as well, if anything. -/
theorem Mixed.sends_releaseUnseen {n : Value} (h : Q (.push s.name permit)) :
    (releaseUnseen s n).Sends Q := by
  unfold releaseUnseen release
  cases s.store.style with
  | direct =>
    exact All.bind (All.check fun _ _ => All.coroutine (All.bind (Permits.sends_release h)
      fun _ => trivial)) fun _ => trivial
  | awaited => exact All.check fun _ _ => trivial

theorem sends_fill {style : Style} {value : Value} (h : Q (.push s.name permit)) :
    (fill style s value).Sends Q := by
  unfold fill
  split
  · exact All.bind (sends_release h) fun _ => trivial
  · exact Mixed.sends_releaseUnseen h

/-- A new semaphore is filled by pushes of permits, whatever its name. -/
theorem sends_mint {options : Options} {source : SourceRef} {value : Value}
    (h : ∀ n, Q (.push n permit)) : (mint options source value).Sends Q := by
  rw [mint_eq]
  refine All.check fun negative _ => ?_
  split
  · trivial
  · refine All.bind Identifier.sends_mint fun name => All.bind sends_create.waitedFor fun s => ?_
    split
    · exact All.bind (sends_fill (h s.name)) fun _ => trivial
    · trivial

theorem sends_exit (h : Q (.push s.name permit)) : s.exit.Sends Q := by
  rw [exit_eq]
  exact All.bind (sends_release h) fun _ => trivial

end Semaphore

/-! ## Registrars -/

theorem Registrar.sends_offer {r : Registrar} {commands : List (Value × HostCommand)} :
    (r.offer commands).Sends Q := by
  unfold offer
  split
  · exact All.bind (sends_log _) fun _ => trivial
  · trivial

end Permits
