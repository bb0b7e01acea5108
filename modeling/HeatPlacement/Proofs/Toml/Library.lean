import HeatPlacement.Proofs.Toml.Tables
import HeatPlacement.Toml.Library

/-!
# Laws of libraries for configuration texts

A library writes tables to texts that tell them, and reads every text that tells tables as these
tables. The one leaves open how the values are spelled, and the other is open to every spelling. A
value of each of the usual types is read from what its setting holds.

* `Library.Lawful`: a library that keeps to the syntax, as a writer and as a reader
* `library_lawful`: **the library of the program is lawful**
-/

namespace HeatPlacement.Toml

open Fields (names)

/-- A library that keeps to the syntax of tables, and reads values of the usual types. -/
structure Library.Lawful (library : Library) : Prop where
  /-- Tables with distinct names can be written, and their text tells them. -/
  writes (tables : List Section) : (∀ table ∈ tables, table.Legible) →
    (tables.map Section.name).Nodup →
      ∃ text, library.write? tables = some text ∧ Tells text.toList tables
  /-- A text that tells tables with distinct names describes them. -/
  reads (tables : List Section) (text : List Char) : (∀ table ∈ tables, table.Legible) →
    (tables.map Section.name).Nodup → Tells text tables →
      library.read? (String.ofList text) = some (values tables)
  /-- A table gives its members to a record, whichever of the fields they are. -/
  record (fields : List String) (members : Fields Value) : (names members).Nodup →
    names members ⊆ fields → library.record? fields (.table members) = some members
  text (s : String) : library.text? (.text s) = some s
  texts (items : List String) : library.texts? (.list (items.map .text)) = some items
  flag (b : Bool) : library.flag? (.flag b) = some b
  short (n : Fin 65536) : library.short? (.integer n.val) = some n
  /-- A text that is one of the names. -/
  variant (choices : List String) (name : String) : name ∈ choices →
    library.variant? choices (.text name) = some name

/-! ### The library of the program -/

namespace Value

theorem texts?_map (items : List String) : texts? (.list (items.map .text)) = some items := by
  induction items with
  | nil => rfl
  | cons item items ih =>
    have hitems : (items.map Value.text).mapM text? = some items := ih
    simp [texts?, List.mapM_cons, text?, hitems]

theorem short?_integer (n : Fin 65536) : short? (.integer n.val) = some n := by
  simp [short?]

theorem variant?_text {choices : List String} {name : String} (h : name ∈ choices) :
    variant? choices (.text name) = some name := by
  rw [variant?]
  cases hfind : choices.find? (· == name) with
  | none => exact absurd (beq_self_eq_true name) (List.find?_eq_none.mp hfind name h)
  | some found =>
    have hfound := List.find?_some hfind
    rw [beq_iff_eq.mp hfound]

end Value

/-- **The library of the program is lawful.** -/
theorem library_lawful : library.Lawful where
  writes tables _ _ := ⟨_, rfl, String.toList_ofList ▸ tells_render tables⟩
  reads _ _ hlegible hnames htells := read?_of_tells hlegible hnames htells
  record _ _ _ _ := rfl
  text _ := rfl
  texts := Value.texts?_map
  flag _ := rfl
  short := Value.short?_integer
  variant _ _ := Value.variant?_text

end HeatPlacement.Toml
