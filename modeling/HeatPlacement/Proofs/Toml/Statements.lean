import HeatPlacement.Proofs.Toml.Values

/-!
# Lines that are read back

A text of tables is a sequence of lines: one for the name of a table, and one for each of its
settings. Empty lines may stand before, between and behind them.

* `Toml.Bare`: a name that is written as a key without quotes
* `Toml.Spells`: a line that is one statement
* `Toml.Lays`: the texts that hold lines in an order, with empty lines anywhere
* `Toml.statements?_of_lays`: **the statements of such a text**
-/

namespace HeatPlacement.Toml

open Text (Peels)

/-! ### Keys -/

/-- A name that is written as a key without quotes. -/
def Bare (name : String) : Prop := name.toList ≠ [] ∧ name.toList.all isKeyChar = true

instance (name : String) : Decidable (Bare name) := inferInstanceAs (Decidable (_ ∧ _))

theorem solid_of_isKeyChar {c : Char} (h : isKeyChar c = true) : Solid c := by
  have hne {d : Char} (hd : isKeyChar d = false) : c ≠ d := by
    rintro rfl
    exact Bool.false_ne_true (hd.symm.trans h)
  refine ⟨hne (by decide), hne (by decide), hne (by decide), hne (by decide), ?_⟩
  rw [Quoted.isLayout, beq_false_of_ne (hne (by decide)), beq_false_of_ne (hne (by decide))]
  rfl

/-- A bare name begins with a character of a key. -/
theorem Bare.exists_eq_cons {name : String} (h : Bare name) :
    ∃ c tail, name.toList = c :: tail ∧ isKeyChar c = true := by
  obtain ⟨c, tail, heq⟩ := List.exists_cons_of_ne_nil h.1
  exact ⟨c, tail, heq, List.all_eq_true.mp h.2 c (heq ▸ List.mem_cons_self)⟩

/-- No other character stands at the start of a bare name. -/
theorem Bare.append_ne_cons {name : String} (h : Bare name) {c : Char} (hc : isKeyChar c = false)
    (rest more : List Char) : name.toList ++ rest ≠ c :: more := by
  obtain ⟨d, tail, heq, hd⟩ := h.exists_eq_cons
  intro hcons
  rw [heq, List.cons_append, List.cons.injEq] at hcons
  rw [hcons.1, hc] at hd
  cases hd

/-- A bare name is read up to the first character of another class. -/
theorem keyPart?_bare {name : String} (h : Bare name) {rest : List Char}
    (hrest : ∀ c ∈ rest.head?, isKeyChar c = false) :
    keyPart? (name.toList ++ rest) = some (name, rest) := by
  have hspan : (name.toList ++ rest).span isKeyChar = (name.toList, rest) :=
    Peels.span_eq ⟨List.all_eq_true.mp h.2, hrest⟩
  unfold keyPart?
  split
  · rename_i hquote
    exact absurd hquote (h.append_ne_cons (by decide) _ _)
  · rename_i hquote
    exact absurd hquote (h.append_ne_cons (by decide) _ _)
  · rw [hspan]
    split
    · rename_i hnil
      exact absurd (Prod.mk.inj hnil).1 h.1
    · simp

/-- A bare name is a whole key, if no point follows. -/
theorem key?_bare {name : String} (h : Bare name) {rest : List Char} {c : Char} {more : List Char}
    (hrest : ∀ c ∈ rest.head?, isKeyChar c = false) (hmore : skipBlanks rest = c :: more)
    (hc : c ≠ '.') : key? limit (name.toList ++ rest) = some (⟨[], name⟩, c :: more) := by
  have hskip : skipBlanks (name.toList ++ rest) = name.toList ++ rest := by
    obtain ⟨d, tail, heq, hd⟩ := h.exists_eq_cons
    rw [heq, List.cons_append, skipBlanks_cons (solid_of_isKeyChar hd)]
  rw [limit, key?, hskip, keyPart?_bare h hrest]
  simp only [Option.bind_eq_bind, Option.bind_some, hmore]
  split
  · rename_i hpoint
    exact absurd (List.cons.inj hpoint).1 hc
  · rfl

/-! ### Lines -/

/-- Blanks end where a value is spelled. -/
theorem skipBlanks_spelled {setting : Setting} {spelling : List Char}
    (h : setting.Spelled spelling) (rest : List Char) :
    skipBlanks (spelling ++ rest) = spelling ++ rest := by
  have hbegins : ∃ c tail, spelling = c :: tail ∧ Solid c := by
    cases h with
    | text hquotes =>
      obtain ⟨q, tail, heq, hq⟩ := hquotes.exists_eq_cons
      exact ⟨q, tail, heq, by rcases hq with rfl | rfl <;> decide⟩
    | natural n =>
      obtain ⟨c, tail, heq⟩ := List.exists_cons_of_ne_nil (Nat.toDigits_ne_nil (b := 10) (n := n))
      have hc : Text.isDigit c = true :=
        Text.isDigit_of_mem_toDigits (n := n) (heq ▸ List.mem_cons_self)
      exact ⟨c, tail, heq, solid_of_isKeyChar (by simp [isKeyChar, hc])⟩
    | no | yes => exact ⟨_, _, rfl, by decide⟩
    | texts => exact ⟨'[', _, rfl, by decide⟩
  obtain ⟨c, tail, heq, hc⟩ := hbegins
  rw [heq, List.cons_append, skipBlanks_cons hc]

/-- A line that is one statement, whatever follows. -/
structure Spells (line : List Char) (statement : Statement) : Prop where
  begins : ∃ c tail, line = c :: tail ∧ Solid c
  read (rest : List Char) : statement? (line ++ rest) = some (statement, rest)

/-- The line with the name of a table. -/
def headerLine (name : String) : List Char := '[' :: (name.toList ++ "]\n".toList)

theorem spells_headerLine {name : String} (h : Bare name) :
    Spells (headerLine name) (.header ⟨[], name⟩) where
  begins := ⟨'[', _, rfl, by decide⟩
  read rest := by
    have hkey : key? limit (name.toList ++ ']' :: '\n' :: rest) =
        some (⟨[], name⟩, ']' :: '\n' :: rest) :=
      key?_bare h (by simp; decide) rfl (by decide)
    have hline : headerLine name ++ rest = '[' :: (name.toList ++ ']' :: '\n' :: rest) := by
      simp [headerLine]
    rw [hline]
    unfold statement?
    split
    · -- A second bracket would begin an item of a list of tables.
      rename_i hitem
      exact absurd (List.cons.inj hitem).2 (h.append_ne_cons (by decide) _ _)
    · rename_i hheader
      rw [← (List.cons.inj hheader).2, hkey]
      rfl
    · rename_i hheader
      exact absurd rfl (hheader _)

/-- The line of a name with a spelling of its value. -/
def entryLine (name : String) (spelling : List Char) : List Char :=
  name.toList ++ " = ".toList ++ spelling ++ ['\n']

theorem spells_entryLine {name : String} (h : Bare name) {setting : Setting}
    {spelling : List Char} (hspelled : setting.Spelled spelling) (hfits : setting.Fits) :
    Spells (entryLine name spelling) (.entry ⟨[], name⟩ setting.value) where
  begins := by
    obtain ⟨c, tail, heq, hc⟩ := h.exists_eq_cons
    exact ⟨c, _, by rw [entryLine, heq]; rfl, solid_of_isKeyChar hc⟩
  read rest := by
    have hkey : key? limit (name.toList ++ (" = ".toList ++ (spelling ++ '\n' :: rest))) =
        some (⟨[], name⟩, '=' :: ' ' :: (spelling ++ '\n' :: rest)) :=
      key?_bare h (by simp; decide) rfl (by decide)
    have hline : entryLine name spelling ++ rest =
        name.toList ++ (" = ".toList ++ (spelling ++ '\n' :: rest)) := by
      simp [entryLine]
    rw [hline]
    unfold statement?
    split
    · rename_i hitem
      exact absurd hitem (h.append_ne_cons (by decide) _ _)
    · rename_i hheader
      exact absurd hheader (h.append_ne_cons (by decide) _ _)
    · have hblank : skipBlanks (' ' :: (spelling ++ '\n' :: rest)) = spelling ++ '\n' :: rest :=
        skipBlanks_spelled hspelled _
      have hentry : keyValue? (value? limit) (name.toList ++ (" = ".toList ++
          (spelling ++ '\n' :: rest))) =
            some ((⟨[], name⟩, setting.value), '\n' :: rest) := by
        rw [keyValue?, hkey]
        simp only [Option.bind_eq_bind, Option.bind_some, after?, if_true, hblank,
          value?_spelled hspelled hfits]
        rfl
      rw [hentry]
      rfl

/-! ### Texts of lines -/

/-- The texts that hold lines in an order. Empty lines may stand anywhere. -/
inductive Lays : List (List Char) → List Char → Prop where
  | nil : Lays [] []
  | blank {lines : List (List Char)} {text : List Char} : Lays lines text →
      Lays lines ('\n' :: text)
  | line (line : List Char) {lines : List (List Char)} {text : List Char} : Lays lines text →
      Lays (line :: lines) (line ++ text)

theorem Lays.append {lines lines' : List (List Char)} {text text' : List Char}
    (h : Lays lines text) (h' : Lays lines' text') : Lays (lines ++ lines') (text ++ text') := by
  induction h with
  | nil => exact h'
  | blank _ ih => exact .blank ih
  | line line _ ih =>
    rw [List.append_assoc]
    exact .line line ih

theorem lays_flatten (lines : List (List Char)) : Lays lines lines.flatten := by
  induction lines with
  | nil => exact .nil
  | cons line lines ih => exact .line line ih

/-- An empty line says nothing. -/
theorem statements?_blank (count : Nat) (text : List Char) :
    statements? count ('\n' :: text) = statements? count text := by
  cases count <;> rfl

/-- A line says its statement, and the lines behind it say theirs. -/
theorem Spells.statements?_append {line : List Char} {statement : Statement}
    (h : Spells line statement) (count : Nat) (text : List Char) :
    statements? (count + 1) (line ++ text) = (statements? count text).map (statement :: ·) := by
  obtain ⟨c, tail, rfl, hc⟩ := h.begins
  have hread := h.read text
  rw [List.cons_append] at hread ⊢
  simp only [statements?, skipLayout_cons hc, hread, Option.bind_eq_bind, Option.bind_some]
  cases statements? count text <;> rfl

/-- **The statements of a text** are those of its lines. -/
theorem statements?_of_lays {lines : List (List Char)} {text : List Char} (h : Lays lines text)
    {statements : List Statement} (hspells : List.Forall₂ Spells lines statements) {count : Nat}
    (hcount : lines.length < count) : statements? count text = some statements := by
  induction h generalizing statements count with
  | nil =>
    cases hspells
    obtain ⟨count, rfl⟩ := Nat.exists_eq_add_one_of_ne_zero (Nat.ne_of_gt hcount)
    rfl
  | blank _ ih => rw [statements?_blank, ih hspells hcount]
  | line line _ ih =>
    cases hspells with
    | cons hline hlines =>
      obtain ⟨count, rfl⟩ := Nat.exists_eq_add_one_of_ne_zero
        (Nat.ne_of_gt (Nat.zero_lt_of_lt hcount))
      rw [hline.statements?_append, ih hlines (Nat.lt_of_succ_lt_succ hcount)]
      rfl

/-- No line is empty, so a text has no more lines than characters. -/
theorem Lays.length_le {lines : List (List Char)} {text : List Char} (h : Lays lines text)
    {statements : List Statement} (hspells : List.Forall₂ Spells lines statements) :
    lines.length ≤ text.length := by
  induction h generalizing statements with
  | nil => exact Nat.le_refl _
  | blank _ ih => exact Nat.le_succ_of_le (ih hspells)
  | line line _ ih =>
    cases hspells with
    | cons hline hlines =>
      obtain ⟨c, tail, rfl, -⟩ := hline.begins
      have htext := ih hlines
      simp only [List.length_cons, List.length_append]
      omega

/-- No byte order mark stands at the start of a text of lines. -/
theorem Lays.head?_ne {lines : List (List Char)} {text : List Char} (h : Lays lines text)
    {statements : List Statement} (hspells : List.Forall₂ Spells lines statements) :
    text.head? ≠ some '\ufeff' := by
  cases h with
  | nil => exact fun h => by cases h
  | blank _ => exact fun h => absurd (Option.some.inj h) (by decide)
  | line line _ =>
    cases hspells with
    | cons hline _ =>
      obtain ⟨c, tail, rfl, hc⟩ := hline.begins
      exact fun h => hc.2.2.2.1 (Option.some.inj h)

end HeatPlacement.Toml
