/-
  Spelling — a name spells the draws that it was made of.

  1. **Chunks** (`flatten_chunks`): a list is cut into chunks of one length, and nothing is lost.
  2. **Rows with dashes** (`List.intercalate`): the items of the chunks stand where they stood, moved by the
     separators in front of them (`getElem?_intercalate`), and the separators can be taken out again
     (`filter_intercalate`).
  3. **Names** (`Identifier.Spells`): forty digits make a name of five segments.  The digits can be read
     off the name in four ways, so there is one name for each forty digits.
  4. **Drawing** (`Drawing.names_spell_draws`): a source of digits gives each segment and each name a block
     of digits of its own, one behind the other.
-/
import Permits.Proofs.Draws

namespace Permits

open Course (Event)

/-! ## Chunks -/

section Chunks

variable {α : Type} {m : Nat}

@[simp] theorem length_chunks (m : Nat) : ∀ (n : Nat) (as : List α), (chunks m n as).length = n
  | 0, _ => rfl
  | n + 1, as => congrArg (· + 1) (length_chunks m n (as.drop m))

theorem length_of_mem_chunks {n : Nat} {as : List α} (h : as.length = n * m) {b : List α}
    (hb : b ∈ chunks m n as) : b.length = m := by
  induction n generalizing as with
  | zero => cases hb
  | succ n ih =>
    rw [Nat.succ_mul] at h
    rcases List.mem_cons.mp hb with rfl | later
    · rw [List.length_take]
      omega
    · have rest : (as.drop m).length = n * m := by
        rw [List.length_drop]
        omega
      exact ih rest later

/-- Nothing is lost when a list is cut into chunks. -/
theorem flatten_chunks {n : Nat} {as : List α} (h : as.length = n * m) :
    (chunks m n as).flatten = as := by
  induction n generalizing as with
  | zero =>
    rw [Nat.zero_mul] at h
    exact (List.eq_nil_of_length_eq_zero h).symm
  | succ n ih =>
    have rest : (as.drop m).length = n * m := by
      rw [List.length_drop, h, Nat.succ_mul, Nat.add_sub_cancel]
    rw [chunks, List.flatten_cons, ih rest, List.take_append_drop]

end Chunks

/-! ## Rows with separators -/

section Separated

variable {α : Type} {s : α} {m : Nat}

/-- Of chunks of one length each chunk but the last is followed by a separator. -/
theorem length_intercalate {bs : List (List α)} (nonempty : bs ≠ []) (h : ∀ b ∈ bs, b.length = m) :
    ([s].intercalate bs).length + 1 = bs.length * (m + 1) := by
  induction bs with
  | nil => exact absurd rfl nonempty
  | cons b bs ih =>
    have first : b.length = m := h b (List.mem_cons_self ..)
    cases bs with
    | nil => simp [first]
    | cons b' bs =>
      have rest := ih (List.cons_ne_nil b' bs) fun c hc => h c (List.mem_cons_of_mem b hc)
      rw [List.intercalate_cons_cons, List.length_append, List.length_append, Nat.add_assoc, rest,
        List.length_cons (a := b), first, Nat.succ_mul, Nat.add_comm]
      rfl

/-- The items of a chunk stand behind as many separators as there are chunks in front of it, and behind
    each chunk but the last there is one. -/
theorem getElem?_intercalate {bs : List (List α)} (h : ∀ b ∈ bs, b.length = m) (k : Nat) :
    (∀ i < m, ([s].intercalate bs)[k * (m + 1) + i]? = bs.flatten[k * m + i]?) ∧
      (k + 1 < bs.length → ([s].intercalate bs)[k * (m + 1) + m]? = some s) := by
  induction bs generalizing k with
  | nil => simp
  | cons b bs ih =>
    have first : b.length = m := h b (List.mem_cons_self ..)
    cases bs with
    | nil =>
      refine ⟨fun i hi => ?_, fun hk => absurd hk (by simp)⟩
      rw [List.intercalate_singleton, List.flatten_singleton]
      cases k with
      | zero => simp
      | succ k =>
        rw [List.getElem?_eq_none, List.getElem?_eq_none] <;> rw [first, Nat.succ_mul] <;> omega
    | cons b' bs =>
      have rest := ih fun c hc => h c (List.mem_cons_of_mem b hc)
      rw [List.intercalate_cons_cons, List.flatten_cons, List.append_assoc, List.singleton_append]
      cases k with
      | zero =>
        refine ⟨fun i hi => ?_, fun _ => ?_⟩
        · rw [Nat.zero_mul, Nat.zero_mul, List.getElem?_append_left (by omega),
            List.getElem?_append_left (by omega)]
        · rw [Nat.zero_mul, List.getElem?_append_right (by omega), first, Nat.zero_add, Nat.sub_self]
          rfl
      | succ k =>
        -- The first chunk and its separator are passed over.
        have past (i : Nat) : (b ++ s :: [s].intercalate (b' :: bs))[(k + 1) * (m + 1) + i]? =
            ([s].intercalate (b' :: bs))[k * (m + 1) + i]? := by
          have position : (k + 1) * (m + 1) + i - b.length = k * (m + 1) + i + 1 := by
            rw [Nat.succ_mul, first]
            omega
          rw [List.getElem?_append_right (by rw [first, Nat.succ_mul]; omega), position,
            List.getElem?_cons_succ]
        refine ⟨fun i hi => ?_, fun hk => ?_⟩
        · have position : (k + 1) * m + i - b.length = k * m + i := by
            rw [Nat.succ_mul, first]
            omega
          rw [past, (rest k).1 i hi, List.getElem?_append_right (by rw [first, Nat.succ_mul]; omega),
            position]
        · rw [past]
          exact (rest k).2 (Nat.lt_of_succ_lt_succ hk)

/-- Without its separators a row is what was separated. -/
theorem filter_intercalate [DecidableEq α] {bs : List (List α)} (h : ∀ b ∈ bs, s ∉ b) :
    ([s].intercalate bs).filter (· ≠ s) = bs.flatten := by
  induction bs with
  | nil => rfl
  | cons b bs ih =>
    have first : b.filter (· ≠ s) = b := by
      refine List.filter_eq_self.mpr fun a ha => decide_eq_true ?_
      intro same
      exact h b (List.mem_cons_self ..) (same ▸ ha)
    cases bs with
    | nil => rw [List.intercalate_singleton, List.flatten_singleton, first]
    | cons b' bs =>
      have rest := ih fun c hc => h c (List.mem_cons_of_mem b hc)
      have gone : [s].filter (· ≠ s) = [] := by simp
      rw [List.intercalate_cons_cons, List.filter_append, List.filter_append, first, gone, rest,
        List.append_nil]
      rfl

end Separated

/-! ## Names -/

/-- The characters of digits. -/
def digitChars (ds : List (Fin 10)) : List Char := ds.map fun d : Fin 10 => Nat.digitChar d

theorem digitChars_inj {ds ds' : List (Fin 10)} : digitChars ds = digitChars ds' ↔ ds = ds' := by
  have distinct : ∀ d d' : Fin 10, Nat.digitChar d = Nat.digitChar d' → d = d' := by decide
  exact List.map_inj_right distinct

theorem isDigit_of_mem_digitChars {ds : List (Fin 10)} {c : Char} (h : c ∈ digitChars ds) :
    c.isDigit = true := by
  obtain ⟨d, -, rfl⟩ := List.mem_map.mp h
  have all : ∀ d : Fin 10, (Nat.digitChar d).isDigit = true := by decide
  exact all d

namespace Identifier

/-- The digits as they are drawn, each as text of its own. -/
def digitTexts (ds : List (Fin 10)) : List String :=
  ds.map fun d : Fin 10 => String.singleton (Nat.digitChar d)

/-- A digit that is drawn is its character. -/
theorem drawn_digit (d : Fin 10) : drawn (.ok (.int d)) = .ok (String.singleton (Nat.digitChar d)) := by
  have few : ∀ d : Fin 10, (Nat.toDigits 10 (d : Int).natAbs).length ≤ Number.digitLimit := by
    decide +kernel
  have single : ∀ d : Fin 10, toString (d : Int) = String.singleton (Nat.digitChar d) := by
    decide +kernel
  have displayed : (Value.int d).displayed = .ok (String.singleton (Nat.digitChar d)) := by
    show Value.shown (.int d) = _
    rw [Value.shown, Value.shownInt, if_pos (few d), single]
  rw [drawn, displayed]

theorem digitTexts_eq (ds : List (Fin 10)) :
    digitTexts ds = (digitChars ds).map String.singleton :=
  List.map_map.symm

theorem toList_join_singleton (cs : List Char) :
    (String.join (cs.map String.singleton)).toList = cs := by
  rw [String.toList_join, List.flatMap_map]
  simp

/-- A segment is its digits, one after the other. -/
theorem join_digitTexts (ds : List (Fin 10)) :
    String.join (digitTexts ds) = String.ofList (digitChars ds) := by
  rw [digitTexts_eq, ← String.toList_inj, toList_join_singleton, String.toList_ofList]

/-- The name that digits are spelled by. -/
def spelling (ds : List (Fin 10)) : String := spelled (digitTexts ds)

theorem toList_spelling (ds : List (Fin 10)) :
    (spelling ds).toList = ['-'].intercalate (chunks 8 5 (digitChars ds)) := by
  have parts : ((chunks 8 5 (digitTexts ds)).map String.join).map String.toList =
      chunks 8 5 (digitChars ds) := by
    rw [digitTexts_eq, chunks_map, List.map_map, List.map_map]
    exact (List.map_congr_left fun b _ => toList_join_singleton b).trans (List.map_id _)
  show (String.intercalate "-" ((chunks 8 5 (digitTexts ds)).map String.join)).toList = _
  rw [String.toList_intercalate, parts]
  rfl

/-- Is a name five segments of eight digits each with dashes between them, and do they spell these digits?

    The digits stand in the name in order, each behind as many dashes as there are segments before it.  They
    are what is left without the dashes, and what the segments are if the name is split at them. -/
structure Spells (text : String) (ds : List (Fin 10)) : Prop where
  length : text.length = 44
  dashes : ∀ i ∈ [8, 17, 26, 35], text.toList[i]? = some '-'
  digits : ∀ j < 40, text.toList[j + j / 8]? = (digitChars ds)[j]?
  segments : (text.toList.splitOn '-').length = 5 ∧
    (∀ part ∈ text.toList.splitOn '-', part.length = 8 ∧ ∀ c ∈ part, c.isDigit = true) ∧
    (text.toList.splitOn '-').flatten = digitChars ds
  undashed : text.toList.filter (· ≠ '-') = digitChars ds

/-- **Forty digits are spelled by the name that they make.** -/
theorem spells_spelling {ds : List (Fin 10)} (h : ds.length = 40) : Spells (spelling ds) ds := by
  have forty : (digitChars ds).length = 5 * 8 := by
    rw [digitChars, List.length_map, h]
  have eight : ∀ b ∈ chunks 8 5 (digitChars ds), b.length = 8 := fun b => length_of_mem_chunks forty
  have whole : (chunks 8 5 (digitChars ds)).flatten = digitChars ds := flatten_chunks forty
  have nonempty : chunks 8 5 (digitChars ds) ≠ [] := List.cons_ne_nil _ _
  have plain : ∀ b ∈ chunks 8 5 (digitChars ds), ∀ c ∈ b, c.isDigit = true := fun b hb c hc =>
    isDigit_of_mem_digitChars (whole ▸ List.mem_flatten_of_mem hb hc)
  have undashed : ∀ b ∈ chunks 8 5 (digitChars ds), '-' ∉ b := fun b hb hc =>
    absurd (plain b hb '-' hc) (by decide)
  have split : (spelling ds).toList.splitOn '-' = chunks 8 5 (digitChars ds) := by
    rw [toList_spelling]
    exact List.splitOn_intercalate '-' undashed nonempty
  constructor
  · have count := length_intercalate (s := '-') nonempty eight
    rw [length_chunks] at count
    rw [← String.length_toList, toList_spelling]
    omega
  · intro i hi
    have gaps : ∀ i ∈ [8, 17, 26, 35], ∃ k < 4, i = k * (8 + 1) + 8 := by decide
    obtain ⟨k, hk, rfl⟩ := gaps i hi
    have inner : k + 1 < (chunks 8 5 (digitChars ds)).length := by
      rw [length_chunks]
      omega
    rw [toList_spelling]
    exact (getElem?_intercalate eight k).2 inner
  · intro j hj
    have digit := (getElem?_intercalate (s := '-') eight (j / 8)).1 (j % 8) (Nat.mod_lt j (by decide))
    have here : j / 8 * (8 + 1) + j % 8 = j + j / 8 := by omega
    have there : j / 8 * 8 + j % 8 = j := by omega
    rw [here, there, whole] at digit
    rw [toList_spelling, digit]
  · rw [split]
    exact ⟨length_chunks 8 5 _, fun b hb => ⟨eight b hb, plain b hb⟩, whole⟩
  · rw [toList_spelling, filter_intercalate undashed, whole]

/-- **There is one name for each forty digits.** -/
theorem spelling_inj {ds ds' : List (Fin 10)} (h : ds.length = 40) (h' : ds'.length = 40) :
    spelling ds = spelling ds' ↔ ds = ds' := by
  refine ⟨fun same => ?_, congrArg spelling⟩
  have digits := (spells_spelling h).undashed
  rw [same, (spells_spelling h').undashed] at digits
  exact (digitChars_inj.mp digits).symm

end Identifier

/-! ## Drawing -/

/-- The row of a source that draws digits. -/
def Row.ofDigits (digits : Nat → Fin 10) : Row := fun n => .ok (.int (digits n))

/-- The next digits at a place. -/
def window (digits : Nat → Fin 10) (p n : Nat) : List (Fin 10) := (List.range n).map fun i => digits (p + i)

theorem length_window (digits : Nat → Fin 10) (p n : Nat) : (window digits p n).length = n := by
  rw [window, List.length_map, List.length_range]

/-- A source of digits never fails. -/
theorem Row.read_ofDigits (digits : Nat → Fin 10) (p n : Nat) :
    (Row.ofDigits digits).read p n = .ok (Identifier.digitTexts (window digits p n)) ∧
      (Row.ofDigits digits).made p n = n := by
  have drawn : ∀ i < n, Identifier.drawn (Row.ofDigits digits (p + i)) =
      .ok (String.singleton (Nat.digitChar (digits (p + i)))) := fun _ _ => Identifier.drawn_digit _
  obtain ⟨read, made⟩ := Row.read_of_ok drawn
  rw [Identifier.digitTexts, window, List.map_map]
  exact ⟨read, made⟩

/-- How many draws drawings make if none fails. -/
def Drawing.sizes {source : SourceRef} : List (Drawing source) → Nat
  | [] => 0
  | d :: ds => d.size + sizes ds

/-- Drawings from a source of digits move the place by as many digits as they have. -/
theorem Drawing.reached_ofDigits {source : SourceRef} (digits : Nat → Fin 10)
    (ds : List (Drawing source)) (p : Nat) :
    reached (Row.ofDigits digits) ds p = p + sizes ds := by
  induction ds generalizing p with
  | nil => rfl
  | cons d ds ih =>
    show reached _ ds (p + _) = _
    rw [ih, (Row.read_ofDigits digits p d.size).2, sizes, Nat.add_assoc]

section Feeds

variable {α σ : Type} {answer : (r : Request) → σ → r.Answer × σ} {source : SourceRef}
  {digits : Nat → Fin 10} {place : σ → Nat}

/-- What is made of digits alone is made of those at the place, and nothing else is asked for. -/
theorem Feeds.run_ofDigits (feeds : Feeds answer source (Row.ofDigits digits) place)
    (n : Nat) (f : List String → α) (t : σ) :
    let ran := (Course.perform ((Identifier.digit source).times n >>= fun ds => .ok (f ds))).run answer t
    ran.result = .ok (f (Identifier.digitTexts (window digits (place t) n))) ∧
      requests ran.events = List.replicate n (.draw source 10) := by
  intro ran
  obtain ⟨es, t', run, drew, -⟩ := feeds.run_digits n t
  obtain ⟨read, made⟩ := Row.read_ofDigits digits (place t) n
  rw [read] at run
  rw [made] at drew
  have ran_eq : ran = ⟨es ++ [], .ok (f (Identifier.digitTexts (window digits (place t) n))), t'⟩ := by
    show (Course.perform _).run answer t = _
    rw [Course.run_perform_bind, run]
    rfl
  rw [ran_eq, List.append_nil]
  exact ⟨rfl, drew⟩

/-- **Names spell what was drawn for them.**

    - Each drawing makes as many draws as it has digits, from where the ones before it have ended.
    - A segment is its eight digits, and a name spells its forty digits.
    - Forty digits can be read off the name that they are spelled by, so distinct digits have distinct
      names. -/
theorem Drawing.names_spell_draws (feeds : Feeds answer source (Row.ofDigits digits) place)
    (before : List (Drawing source)) (t : σ) :
    let start := after answer before t
    let p := place start
    let ran (d : Drawing source) := (Course.perform d.op).run answer start
    p = place t + sizes before ∧
    (∀ d : Drawing source,
      (requests (ran d).events).filter Request.isDraw = List.replicate d.size (.draw source 10) ∧
      place (ran d).state = p + d.size) ∧
    ((ran .segment).result = .ok (String.ofList (digitChars (window digits p 8))) ∧
      requests (ran .segment).events = List.replicate 8 (.draw source 10)) ∧
    ((ran .name).result = .ok (Identifier.spelling (window digits p 40)) ∧
      Identifier.Spells (Identifier.spelling (window digits p 40)) (window digits p 40) ∧
      requests (ran .name).events = List.replicate 40 (.draw source 10)) ∧
    ∀ ds ds' : List (Fin 10), ds.length = 40 → ds'.length = 40 →
      (Identifier.spelling ds = Identifier.spelling ds' ↔ ds = ds') := by
  intro start p ran
  refine ⟨?_, fun d => ?_, ?_, ?_, fun ds ds' => Identifier.spelling_inj⟩
  · show place (after answer before t) = _
    rw [place_after feeds, reached_ofDigits]
  · obtain ⟨drew, moved, -⟩ := run_op feeds d start
    rw [(Row.read_ofDigits digits (place start) d.size).2] at drew moved
    exact ⟨drew, moved⟩
  · have segment := feeds.run_ofDigits 8 String.join start
    rw [Identifier.join_digitTexts] at segment
    exact segment
  · have name := feeds.run_ofDigits 40 Identifier.spelled start
    rw [← Identifier.mint_eq_times] at name
    exact ⟨name.1, Identifier.spells_spelling (length_window digits p 40), name.2⟩

end Feeds

/-- The first name of a source that counts. -/
theorem Drawing.counting_name :
    let x : Setting := ⟨fun _ => .finite false 1, Row.ofDigits fun n => Fin.ofNat 10 n, fun _ => none⟩
    let before : List (Drawing .system) := [.name, .segment]
    let start := after x.answer before { lists := {} }
    let ran (d : Drawing .system) := (Course.perform d.op).run x.answer start
    start.drawn = 48 ∧
      (ran .segment).result = .ok "89012345" ∧
      (ran .name).result = .ok "89012345-67890123-45678901-23456789-01234567" := by
  intro x before start ran
  obtain ⟨reached, -, ⟨segment, -⟩, ⟨name, -⟩, -⟩ :=
    Drawing.names_spell_draws (x.feeds .system) before { lists := {} }
  have drawn : start.drawn = 48 := reached
  rw [drawn] at segment name
  refine ⟨drawn, segment.trans (congrArg Except.ok ?_), name.trans (congrArg Except.ok ?_)⟩
  all_goals decide +kernel

end Permits
