/-
  Encodings — a duration means the same as an integer, as text and as bytes.

  1. **Text** (`Duration.Alike`): an integer and its digits, with gaps around them or without, are taken
     for the same seconds or for none at all.  They are rejected with different failures, so it is
     what is taken that agrees.
  2. **Bytes** (`Duration.seconds_encode`): the bytes of a text are the text, in their failure as well.
     Other bytes are rejected (`Duration.seconds_of_not_encode`).
  3. **Pops** (`Acquiring`): every way to acquire hands its duration on to one pop.  Durations that are
     alike come to the same pop, or to none (`Duration.encodings_agree`).
-/
import Permits.Proofs.Numerals
import Permits.Proofs.Requests
import Permits.Proofs.Solo

namespace Permits

open Number Text
open Course (Event)

/-! ## Text -/

/-- Is a character a space, a tab or a newline? -/
def IsGap (c : Char) : Prop := c = ' ' ∨ c = '\t' ∨ c = '\n'

theorem isBlank_of_isGap {c : Char} (h : IsGap c) : isBlank c = true := by
  rcases h with rfl | rfl | rfl <;> decide

/-- A text between characters. -/
def between (front : List Char) (s : String) (back : List Char) : String :=
  String.ofList front ++ s ++ String.ofList back

namespace Duration

/-- Are two durations taken for the same seconds, or neither of them? -/
def Alike (d d' : Value) : Prop := ∀ x, seconds d = .ok x ↔ seconds d' = .ok x

theorem Alike.trans {d d' d'' : Value} (h : Alike d d') (h' : Alike d' d'') : Alike d d'' :=
  fun x => (h x).trans (h' x)

theorem alike_of_seconds_eq {d d' : Value} (h : seconds d = seconds d') : Alike d d' := by
  intro x
  rw [h]

/-- **An integer and its digits are taken alike.** -/
theorem alike_toString (n : Int) : Alike (.int n) (.text (toString n)) := by
  intro x
  rw [seconds_int_eq_ok_iff, seconds_text_eq_ok_iff, Double.ofText?_toString]
  exact and_congr_left fun _ => ⟨congrArg some, Option.some.inj⟩

theorem alike_between {front back : List Char} (hf : ∀ c ∈ front, IsGap c)
    (hb : ∀ c ∈ back, IsGap c) (s : String) : Alike (.text s) (.text (between front s back)) := by
  intro x
  have same : Double.ofText? (between front s back) = Double.ofText? s :=
    Double.ofText?_between (fun c hc => isBlank_of_isGap (hf c hc))
      (fun c hc => isBlank_of_isGap (hb c hc)) s
  rw [seconds_text_eq_ok_iff, seconds_text_eq_ok_iff, same]

/-! ## Bytes -/

/-- **The bytes of a text are taken, or rejected, as the text is.** -/
theorem seconds_encode (s : String) : seconds (.bytes (Utf8.encode s)) = seconds (.text s) := by
  rw [seconds, number_bytes, Utf8.decode_encode]
  rfl

/-- Bytes that no text has are rejected. -/
theorem seconds_of_not_encode {bs : Bytes} (h : ∀ s, Utf8.encode s ≠ bs) :
    ∃ fault, seconds (.bytes bs) = .error (.undecodable fault) := by
  cases decoded : Utf8.decode bs with
  | ok s => exact absurd (Utf8.encode_of_decode decoded) (h s)
  | error fault =>
    refine ⟨fault, ?_⟩
    rw [seconds, number_bytes, decoded]
    rfl

end Duration

/-! ## Pops -/

/-- A way to acquire with a duration that is yet to be named: a pop, an acquire, that of a semaphore,
    or the command of a host. -/
inductive Acquiring (store : ListStore) (name : Value) where
  | pop
  | acquire
  | permit (s : Semaphore) (bound : s.store = store) (named : Name.check name = .ok s.name)
  | command (r : Registrar) (bound : r.command (.text decCommand) = .ok (.dec store))

namespace Acquiring

variable {store : ListStore} {name : Value}

/-- The call that acquires with a duration. -/
def call : Acquiring store name → Value → Call
  | pop, d => .blockingPop store name d
  | acquire, d => .acquire store name d
  | permit s _ _, d => .acquirePermit s (.bool true) d
  | command r _, d => .command r (.text decCommand) [name, d]

/-- Whatever way a caller acquires, it sends the pop that its name and its duration come to. -/
theorem asks_call (way : Acquiring store name) {d : Value} (given : d ≠ .none) :
    (way.call d).op.Asks (Demand.sent ⟨Name.check name, d⟩ store) := by
  cases way with
  | pop =>
    rw [call, Call.op_blockingPop]
    unfold Op.named
    cases Name.check name with
    | error f => exact Op.asks_done _
    | ok n => exact ListStore.asks_blockingPop n
  | acquire => exact asks_acquireFrom _
  | permit s bound named =>
    have wait : s.waitFor (.bool true) d = d := by
      cases d with
      | none => exact absurd rfl given
      | _ => rfl
    show (s.acquire (.bool true) d).Asks (Demand.sent ⟨Name.check name, d⟩ store)
    rw [s.acquire_eq, wait, named, ← bound]
    exact (asks_acquireFrom _).bind fun entry => Op.asks_done _
  | command r bound =>
    show (r.call (.text decCommand) [name, d]).Asks _
    rw [Registrar.call, bound]
    show ((HostCommand.dec store).run [name, d]).Asks _
    rw [HostCommand.run_dec]
    exact asks_acquireFrom _

end Acquiring

/-- Durations that are taken alike come to the same pops. -/
theorem Demand.sent_of_alike {d d' : Value} (h : Duration.Alike d d') (name : Except Failure Name)
    (store : ListStore) : Demand.sent ⟨name, d⟩ store = Demand.sent ⟨name, d'⟩ store := by
  unfold Demand.sent Demand.pops
  cases name with
  | error f => rfl
  | ok name =>
    cases taken : Duration.seconds d with
    | ok x => simp only [(h x).mp taken]
    | error f =>
      cases taken' : Duration.seconds d' with
      | ok x => cases taken.symm.trans ((h x).mpr taken')
      | error f' => rfl

/-- **A duration means the same in each encoding.**

    - An integer of any size, its digits, the digits between spaces, tabs and newlines, and the bytes of
      those are taken for the same seconds, or not at all.
    - So in whatever way they are used to acquire, and whatever is answered, the commands are the same: one
      pop, or none.
    - The bytes of a text are the same duration as the text, or fail with the same failure.
    - Bytes that are not those of a text are rejected. -/
theorem Duration.encodings_agree :
    (∀ (n : Int) (front back : List Char), (∀ c ∈ front, IsGap c) → (∀ c ∈ back, IsGap c) →
      ∀ d ∈ [Value.text (between front (toString n) back),
          .bytes (Utf8.encode (between front (toString n) back))],
        (∀ x, seconds (.int n) = .ok x ↔ seconds d = .ok x) ∧
        ∀ (store : ListStore) (name : Value) (way : Acquiring store name) {σ : Type}
          (answer : (r : Request) → σ → r.Answer × σ) (t : σ),
          let asked (d : Value) :=
            (requests ((Course.perform (way.call d).op).run answer t).events).filter Request.isCommand
          asked d = asked (.int n) ∧
            asked d = Demand.sent ⟨Name.check name, .int n⟩ store) ∧
    (∀ s, seconds (.bytes (Utf8.encode s)) = seconds (.text s)) ∧
    ∀ bs, (∀ s, Utf8.encode s ≠ bs) → ∃ f, seconds (.bytes bs) = .error f := by
  refine ⟨fun n front back hf hb d hd => ?_, seconds_encode, fun bs h => ?_⟩
  · have text : Alike (.int n) (.text (between front (toString n) back)) :=
      (alike_toString n).trans (alike_between hf hb _)
    have alike : Alike (.int n) d ∧ d ≠ .none := by
      rcases List.mem_cons.mp hd with rfl | hd
      · exact ⟨text, fun h => nomatch h⟩
      · obtain rfl := List.mem_singleton.mp hd
        exact ⟨text.trans (alike_of_seconds_eq (seconds_encode _).symm), fun h => nomatch h⟩
    refine ⟨alike.1, ?_⟩
    intro store name way σ answer t asked
    have given : Value.int n ≠ .none := fun h => nomatch h
    have integer : asked (.int n) = Demand.sent ⟨Name.check name, .int n⟩ store :=
      way.asks_call given σ answer t
    have encoded : asked d = Demand.sent ⟨Name.check name, d⟩ store :=
      way.asks_call alike.2 σ answer t
    rw [← Demand.sent_of_alike alike.1] at encoded
    exact ⟨encoded.trans integer.symm, encoded⟩
  · obtain ⟨fault, rejected⟩ := seconds_of_not_encode h
    exact ⟨_, rejected⟩

/-- A host hands an integer over that no number is equal to, as text with gaps around it. -/
theorem Duration.odd_integer_encoded :
    let text := " \t9007199254740993\n"
    let store : ListStore := ⟨⟨"lists", .awaited⟩⟩
    let registry : Registrar := .registry ⟨semaphoreCommands store .system⟩
    let asked (d : Value) := (requests ((Course.perform
      (Call.command registry (.text decCommand) [.text "k", d]).op).run Setting.sevens.answer
        { lists := {} }).events).filter Request.isCommand
    seconds (.int 9007199254740993) = .ok (.ofInt 9007199254740992) ∧
      seconds (.text text) = .ok (.ofInt 9007199254740992) ∧
      asked (.int 9007199254740993) =
        [.command store.executor (.blockingPop (.text "k") (.ofInt 9007199254740992))] ∧
      asked (.bytes (Utf8.encode text)) = asked (.int 9007199254740993) := by
  intro text store registry asked
  have gaps : (∀ c ∈ [' ', '\t'], IsGap c) ∧ ∀ c ∈ ['\n'], IsGap c := by
    simp [IsGap]
  have written : between [' ', '\t'] (toString (9007199254740993 : Int)) ['\n'] = text := by
    decide +kernel
  have agree := Duration.encodings_agree.1 9007199254740993 [' ', '\t'] ['\n'] gaps.1 gaps.2
  rw [written] at agree
  have taken : seconds (.int 9007199254740993) = .ok (.ofInt 9007199254740992) := by
    refine seconds_int_eq_ok_iff.mpr ⟨?_, ?_⟩ <;> decide +kernel
  have bound : registry.command (.text decCommand) = .ok (.dec store) := rfl
  have texts := agree (.text text) (List.mem_cons_self ..)
  have bytes := agree (.bytes (Utf8.encode text)) (List.mem_cons_of_mem _ (List.mem_cons_self ..))
  have same := bytes.2 store (.text "k") (.command registry bound) Setting.sevens.answer { lists := {} }
  have sent : Demand.sent ⟨Name.check (.text "k"), .int 9007199254740993⟩ store =
      [.command store.executor (.blockingPop (.text "k") (.ofInt 9007199254740992))] := by
    have waits : ¬(Double.ofInt 9007199254740992).le .zero = true := by decide +kernel
    have named : Name.check (.text "k") = .ok (.text "k") := rfl
    rw [named, Demand.sent, Demand.pops, taken]
    show [Request.command store.executor (.popFor (.text "k") _)] = _
    rw [Command.popFor, if_neg waits]
  exact ⟨taken, (texts.1 _).mp taken, same.1.symm.trans (same.2.trans sent), same.1⟩

end Permits
