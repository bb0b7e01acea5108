import HeatPlacement.Proofs.Fields
import HeatPlacement.Proofs.Toml.Statements

/-!
# Tables that are read back

* `Toml.Section.Lines`: the lines of a table
* `Toml.Section.Legible`: the tables that can be read back
* `Toml.Tells`: **the texts of tables**, and `Toml.tells_render`: what is written is one of them
* `Toml.foldlM_statements`: the statements of a table add the table to a document
* `Toml.read?_of_tells`: **a text that tells tables is read as these tables**
-/

namespace HeatPlacement.Toml

open Fields (mapValues names)

/-! ### The lines of tables -/

/-- **The lines of a setting**: its name, and a spelling of its value. -/
inductive EntryLine : String × Setting → List Char → Prop where
  | intro (name : String) {setting : Setting} {spelling : List Char}
    (h : setting.Spelled spelling) : EntryLine (name, setting) (entryLine name spelling)

namespace Section

/-- The lines of a table: one with its name, and one for each of its settings. -/
inductive Lines : Section → List (List Char) → Prop where
  | intro (name : String) {settings : List (String × Setting)} {lines : List (List Char)}
    (h : List.Forall₂ EntryLine settings lines) : Lines ⟨name, settings⟩ (headerLine name :: lines)

/-- What the lines say. -/
def statements (table : Section) : List Statement :=
  .header ⟨[], table.name⟩ :: table.settings.map fun (name, setting) =>
    .entry ⟨[], name⟩ setting.value

/-- The value of a table. -/
def value (table : Section) : Value := .table (mapValues Setting.value table.settings)

/-- A table whose names need no quotes, whose settings have distinct names, and whose values the
reader knows. -/
structure Legible (table : Section) : Prop where
  name : Bare table.name
  setting : ∀ entry ∈ table.settings, Bare entry.1 ∧ entry.2.Fits
  nodup : (names table.settings).Nodup

theorem Lines.spells {table : Section} {lines : List (List Char)} (h : table.Lines lines)
    (hlegible : table.Legible) : List.Forall₂ Spells lines table.statements := by
  obtain ⟨hname, hsetting, -⟩ := hlegible
  obtain ⟨name, hlines⟩ := h
  refine .cons (spells_headerLine hname) (List.forall₂_map_right_iff.mpr ?_)
  clear hname
  induction hlines with
  | nil => exact .nil
  | cons hline _ ih =>
    obtain ⟨hfirst, hrest⟩ := List.forall_mem_cons.mp hsetting
    obtain ⟨name, hspelled⟩ := hline
    exact .cons (spells_entryLine hfirst.1 hspelled hfirst.2) (ih hrest)

/-- What is written for a table are lines of it. -/
theorem exists_lines_render (table : Section) :
    ∃ lines, table.Lines lines ∧ table.render = lines.flatten := by
  obtain ⟨name, settings⟩ := table
  refine ⟨headerLine name :: settings.map settingLine, .intro name ?_, ?_⟩
  · rw [List.forall₂_map_right_iff, List.forall₂_same]
    exact fun entry _ => .intro entry.1 entry.2.spelled_render
  · rw [render, List.flatten_cons, ← List.flatMap_def, headerLine, List.cons_append,
      List.append_assoc]

end Section

/-- **A text tells tables** if it holds their lines, with empty lines anywhere. -/
def Tells (text : List Char) (tables : List Section) : Prop :=
  ∃ lines, List.Forall₂ Section.Lines tables lines ∧ Lays lines.flatten text

/-- What is written for tables tells them. -/
theorem tells_render (tables : List Section) : Tells (render tables) tables := by
  induction tables with
  | nil => exact ⟨[], .nil, .nil⟩
  | cons table tables ih =>
    obtain ⟨lines, hlines, hlays⟩ := ih
    obtain ⟨first, hfirst, hrender⟩ := table.exists_lines_render
    refine ⟨first :: lines, .cons hfirst hlines, ?_⟩
    have htable : Lays first table.render := hrender ▸ lays_flatten first
    cases tables with
    | nil =>
      cases hlines
      simpa [render] using htable
    | cons next tables => exact htable.append (.blank hlays)

theorem spells_flatten {tables : List Section} {lines : List (List (List Char))}
    (h : List.Forall₂ Section.Lines tables lines) (htables : ∀ table ∈ tables, table.Legible) :
    List.Forall₂ Spells lines.flatten (tables.flatMap Section.statements) := by
  induction h with
  | nil => exact .nil
  | cons hfirst _ ih =>
    obtain ⟨htable, hrest⟩ := List.forall_mem_cons.mp htables
    exact List.rel_append (hfirst.spells htable) (ih hrest)

/-! ### Documents -/

/-- A setting is added to the table that the lines are about. -/
theorem Draft.add_entry (members inner : Members) (table : String) {name : String}
    (h : name ∉ names inner) (value : Value) :
    Draft.add ⟨Fields.insert members table (.table .header inner), [table]⟩
        (.entry ⟨[], name⟩ value) =
      some ⟨Fields.insert members table (.table .header (Fields.insert inner name (.value value))),
        [table]⟩ := by
  have hhas : Fields.has inner name = false := by
    rw [Bool.eq_false_iff, ne_eq, Fields.has_iff_mem]
    exact h
  simp [Draft.add, Members.descend, Members.assign, hhas]

/-- Settings with new, distinct names are added one after another. -/
theorem Draft.foldlM_entries (members inner : Members) (table : String)
    {settings : List (String × Setting)}
    (h : (names inner ++ names settings).Nodup) :
    (settings.map fun (name, setting) => Statement.entry ⟨[], name⟩ setting.value).foldlM Draft.add
        ⟨Fields.insert members table (.table .header inner), [table]⟩ =
      some ⟨Fields.insert members table (.table .header
        (Fields.extend inner (mapValues (Node.value ∘ Setting.value) settings))), [table]⟩ := by
  induction settings generalizing inner with
  | nil => rfl
  | cons entry settings ih =>
    obtain ⟨name, setting⟩ := entry
    obtain ⟨hname, hrest⟩ := Fields.nodup_names_insert_append h (.value setting.value)
    rw [List.map_cons, List.foldlM_cons, Draft.add_entry _ _ _ hname]
    exact ih _ hrest

/-- The place of a table. -/
def Section.node (table : Section) : Node :=
  .table .header (mapValues (Node.value ∘ Setting.value) table.settings)

theorem Section.finished_node (table : Section) : table.node.finished = table.value := by
  have hmembers (settings : List (String × Setting)) :
      finishedMembers (mapValues (Node.value ∘ Setting.value) settings) =
        mapValues Setting.value settings := by
    induction settings with
    | nil => rfl
    | cons entry settings ih => exact congrArg _ ih
  rw [node, Node.finished, hmembers, value]

/-- The lines of a table add it to a document. -/
theorem Section.foldlM_statements {table : Section} (hnodup : (names table.settings).Nodup)
    {draft : Draft} (h : table.name ∉ names draft.members) :
    table.statements.foldlM Draft.add draft =
      some ⟨Fields.insert draft.members table.name table.node, [table.name]⟩ := by
  have hheader : draft.add (.header ⟨[], table.name⟩) =
      some ⟨Fields.insert draft.members table.name (.table .header []), [table.name]⟩ := by
    simp [Draft.add, Members.descend, Members.open?, Fields.get?_eq_none_iff.mpr h, Key.names]
  have hplaces : Fields.extend [] (mapValues (Node.value ∘ Setting.value) table.settings) =
      mapValues (Node.value ∘ Setting.value) table.settings := by
    refine Fields.extend_of_nodup ?_
    rwa [List.nil_append, Fields.names_mapValues]
  have hentries := Draft.foldlM_entries draft.members [] table.name hnodup
  rw [hplaces] at hentries
  rw [statements, List.foldlM_cons, hheader]
  exact hentries

/-- The places of tables. -/
def nodes (tables : List Section) : Members := tables.map fun table => (table.name, table.node)

/-- The lines of tables with new, distinct names add them in order. -/
theorem foldlM_statements {tables : List Section} (h : ∀ table ∈ tables, table.Legible)
    (draft : Draft) (hnames : (names draft.members ++ names (nodes tables)).Nodup) :
    ((tables.flatMap Section.statements).foldlM Draft.add draft).map Draft.members =
      some (Fields.extend draft.members (nodes tables)) := by
  induction tables generalizing draft with
  | nil => rfl
  | cons table tables ih =>
    obtain ⟨hname, hrest⟩ := Fields.nodup_names_insert_append hnames table.node
    rw [List.flatMap_cons, List.foldlM_append,
      Section.foldlM_statements (h table List.mem_cons_self).nodup hname]
    exact ih (fun other hmem => h other (List.mem_cons_of_mem table hmem)) _ hrest

/-- The values of tables. -/
def values (tables : List Section) : Fields Value :=
  tables.map fun table => (table.name, table.value)

theorem finishedMembers_nodes (tables : List Section) :
    finishedMembers (nodes tables) = values tables := by
  induction tables with
  | nil => rfl
  | cons table tables ih =>
    show (table.name, table.node.finished) :: finishedMembers (nodes tables) = _
    rw [table.finished_node, ih]
    rfl

/-- **A text that tells tables is read as these tables**, if their names are distinct and each of
them can be read back. -/
theorem read?_of_tells {tables : List Section} (h : ∀ table ∈ tables, table.Legible)
    (hnames : (tables.map Section.name).Nodup) {text : List Char} (htells : Tells text tables) :
    read? (String.ofList text) = some (values tables) := by
  obtain ⟨lines, hlines, hlays⟩ := htells
  have hspells := spells_flatten hlines h
  have hstatements : statements? (text.length + 1) text =
      some (tables.flatMap Section.statements) :=
    statements?_of_lays hlays hspells (Nat.lt_succ_of_le (hlays.length_le hspells))
  have hnodes : (names (nodes tables)).Nodup := by
    rw [names, nodes, List.map_map]
    exact hnames
  have hplaces : Fields.extend [] (nodes tables) = nodes tables := Fields.extend_of_nodup hnodes
  have hfold := foldlM_statements h ⟨[], []⟩ hnodes
  obtain ⟨draft, hdraft, hmembers⟩ := Option.map_eq_some_iff.mp hfold
  simp only [read?, String.toList_ofList, if_neg (hlays.head?_ne hspells), hstatements,
    Option.bind_some, table?, hdraft, Option.map_some, hmembers, hplaces, finishedMembers_nodes]

end HeatPlacement.Toml
