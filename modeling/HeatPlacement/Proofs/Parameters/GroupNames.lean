import HeatPlacement.Heat.GroupNames
import Mathlib.Data.List.Basic

/-!
# Group names in texts

Commas separate the group names in a text. Texts that are joined by a comma keep their names, and
names can be told from the tidied text.

* `GroupNames.pieces_eq_splitOn`: the pieces of a text are those of the library
* `GroupNames.groups_intercalate`: **the names in a joined text** are those in its parts
* `GroupNames.tidy_inj`: **tidied texts are equal** iff their names are
* `GroupNames.listed`: the names that a resolved value lists
* `GroupNames.resolve_place_eq_iff`: **what a reference adds** to the names around it
-/

namespace HeatPlacement.Heat.GroupNames

/-! ### Pieces and names -/

/-- The pieces of a text are what commas split it into. -/
theorem pieces_eq_splitOn (text : List Char) : pieces text = text.splitOn ',' := by
  induction text with
  | nil => rfl
  | cons c rest ih =>
    rw [pieces, List.splitOn_cons_eq_if_modifyHead, ih]
    by_cases hcomma : c = ','
    · simp only [hcomma, beq_self_eq_true, if_true]
    · obtain ⟨first, more, hsplit⟩ := List.exists_cons_of_ne_nil (List.splitOn_ne_nil ',' rest)
      simp only [beq_iff_eq, if_neg hcomma, hsplit, List.modifyHead_cons]

theorem comma_not_mem_of_mem_pieces {text piece : List Char} (h : piece ∈ pieces text) :
    ',' ∉ piece := by
  induction text generalizing piece with
  | nil =>
    rw [List.mem_singleton.mp h]
    exact List.not_mem_nil
  | cons c rest ih =>
    rw [pieces_eq_splitOn, List.splitOn_cons_eq_if_modifyHead, ← pieces_eq_splitOn] at h
    split at h
    · rcases List.mem_cons.mp h with rfl | h
      · exact List.not_mem_nil
      · exact ih h
    · rename_i hcomma
      cases hrest : pieces rest with
      | nil =>
        rw [hrest] at h
        exact absurd h List.not_mem_nil
      | cons first more =>
        rw [hrest, List.modifyHead_cons, List.mem_cons] at h
        rcases h with rfl | h
        · -- The first piece grows by a character that is no comma.
          have hfirst : ',' ∉ first := ih (hrest ▸ List.mem_cons_self)
          have hne : ',' ≠ c := fun heq => hcomma (beq_iff_eq.mpr heq.symm)
          exact List.not_mem_cons_of_ne_of_not_mem hne hfirst
        · exact ih (hrest ▸ List.mem_cons_of_mem first h)

theorem mem_of_mem_trimMatches {drop : Char → Bool} {text : List Char} {c : Char}
    (h : c ∈ Text.trimMatches drop text) : c ∈ text := by
  rw [Text.trimMatches, List.mem_reverse] at h
  exact (List.dropWhile_sublist _).mem
    (List.mem_reverse.mp ((List.dropWhile_sublist _).mem h))

/-- A name is not empty and holds no comma. -/
theorem ne_nil_and_comma_not_mem_of_mem_groups {text name : List Char} (h : name ∈ groups text) :
    name ≠ [] ∧ ',' ∉ name := by
  obtain ⟨hname, hfilled⟩ := List.mem_filter.mp h
  obtain ⟨piece, hpiece, rfl⟩ := List.mem_map.mp hname
  refine ⟨by simpa using hfilled, fun hcomma => comma_not_mem_of_mem_pieces hpiece ?_⟩
  exact mem_of_mem_trimMatches (mem_of_mem_trimMatches (mem_of_mem_trimMatches hcomma))

/-! ### Joined texts -/

/-- A comma separates the names on its two sides. -/
theorem groups_append_comma (first second : List Char) :
    groups (first ++ ',' :: second) = groups first ++ groups second := by
  simp only [groups, pieces_eq_splitOn, List.splitOn_append_cons_self, List.map_append,
    List.filter_append]

/-- **The names in a joined text** are those in its parts, in order. -/
theorem groups_intercalate (texts : List (List Char)) :
    groups ([','].intercalate texts) = texts.flatMap groups := by
  induction texts with
  | nil => rfl
  | cons first rest ih =>
    cases rest with
    | nil => rw [List.intercalate_singleton, List.flatMap_singleton]
    | cons second more =>
      rw [List.intercalate_cons_cons, List.append_assoc, List.singleton_append,
        groups_append_comma, ih]
      rfl

/-- The pieces of tidied names: the first name, and a blank in front of each other one. -/
theorem pieces_intercalate {first : List Char} {rest : List (List Char)}
    (h : ∀ name ∈ first :: rest, ',' ∉ name) :
    pieces ([',', ' '].intercalate (first :: rest)) = first :: rest.map (' ' :: ·) := by
  induction rest generalizing first with
  | nil =>
    rw [List.intercalate_singleton, pieces_eq_splitOn,
      List.splitOn_eq_singleton (h first List.mem_cons_self), List.map_nil]
  | cons second more ih =>
    have hsplit := List.splitOn_append_cons_self_of_not_mem (h first List.mem_cons_self)
      (' ' :: [',', ' '].intercalate (second :: more))
    have hmore := ih fun name hname => h name (List.mem_cons_of_mem first hname)
    rw [List.intercalate_cons_cons, List.append_assoc, List.cons_append, List.singleton_append,
      pieces_eq_splitOn, hsplit, List.splitOn_cons_eq_if_modifyHead, if_neg (by decide),
      ← pieces_eq_splitOn, hmore, List.modifyHead_cons, List.map_cons]

/-- Names can be told from their tidied text. -/
theorem intercalate_inj {names names' : List (List Char)}
    (h : ∀ name ∈ names, name ≠ [] ∧ ',' ∉ name)
    (h' : ∀ name ∈ names', name ≠ [] ∧ ',' ∉ name)
    (heq : [',', ' '].intercalate names = [',', ' '].intercalate names') : names = names' := by
  have hpieces := congrArg pieces heq
  -- Only a name can make the text other than empty.
  have hempty : ∀ first rest, (∀ name ∈ first :: rest, name ≠ [] ∧ ',' ∉ name) →
      pieces ([',', ' '].intercalate (first :: rest)) ≠ pieces [] := by
    intro first rest hnames hnil
    rw [pieces_intercalate fun name hname => (hnames name hname).2] at hnil
    exact (hnames first List.mem_cons_self).1 (List.cons.inj hnil).1
  cases names with
  | nil =>
    cases names' with
    | nil => rfl
    | cons first rest => exact absurd hpieces.symm (hempty first rest h')
  | cons first rest =>
    cases names' with
    | nil => exact absurd hpieces (hempty first rest h)
    | cons first' rest' =>
      rw [pieces_intercalate fun name hname => (h name hname).2,
        pieces_intercalate fun name hname => (h' name hname).2] at hpieces
      obtain ⟨hfirst, hrest⟩ := List.cons.inj hpieces
      rw [hfirst, List.map_injective_iff.mpr List.cons_injective hrest]

/-- **Tidied texts are equal** iff the names in the texts are. -/
theorem tidy_inj {text text' : List Char} : tidy text = tidy text' ↔ groups text = groups text' :=
  ⟨intercalate_inj (fun _ => ne_nil_and_comma_not_mem_of_mem_groups)
    fun _ => ne_nil_and_comma_not_mem_of_mem_groups, congrArg [',', ' '].intercalate⟩

/-! ### Names that a reference adds -/

/-- The names that a resolved value lists: a sequence lists those in the texts of its items. -/
def listed : Json → List (List Char)
  | .arr items => items.flatMap fun item => groups (valueText item)
  | value => groups (valueText value)

theorem listed_of_not_arr {value : Json} (h : value.asArr? = none) :
    listed value = groups (valueText value) := by
  cases value with
  | arr items => cases h
  | _ => rfl

/-- A reference adds the names that the value of its parameter lists. -/
theorem groups_itemText_of_reference {reference : Json} {name : String}
    (h : paramName? reference = some name) (scopes : Scopes) (scope : Fields Json) :
    groups (itemText scopes scope reference) =
      ((scopes.resolvePlain name (some scope)).map listed).getD [] := by
  simp only [itemText, h]
  cases scopes.resolvePlain name (some scope) with
  | none => rfl
  | some value =>
    cases value with
    | arr items =>
      show groups _ = listed (.arr items)
      rw [groups_intercalate, List.flatMap_map, listed]
    | _ => rfl

/-- The places of a group in `valet_groups`: it stands alone, or among the items of a list. -/
inductive GroupPlace : (Json → Json) → Prop where
  | alone : GroupPlace id
  | among (front back : List Json) : GroupPlace fun group => .arr (front ++ group :: back)

/-- **What a reference adds** to the names around it decides the text: two references give the same
text in the same place iff they add the same names. -/
theorem resolve_place_eq_iff {place : Json → Json} (hplace : GroupPlace place) {first second : Json}
    (hfirst : (paramName? first).isSome = true) (hsecond : (paramName? second).isSome = true)
    (scopes : Scopes) (scope : Fields Json) :
    resolve scopes scope (place first) = resolve scopes scope (place second) ↔
      groups (itemText scopes scope first) = groups (itemText scopes scope second) := by
  cases hplace with
  | alone =>
    -- A reference is neither a text nor a list.
    have halone : ∀ reference : Json, (paramName? reference).isSome = true →
        resolve scopes scope (id reference) = tidy (itemText scopes scope reference) := by
      intro reference h
      cases reference with
      | str _ | arr _ => cases h
      | _ => rfl
    rw [halone first hfirst, halone second hsecond, tidy_inj]
  | among front back =>
    have hlist : ∀ reference : Json,
        groups ([','].intercalate ((front ++ reference :: back).map (itemText scopes scope))) =
          (front.map (itemText scopes scope)).flatMap groups ++
            (groups (itemText scopes scope reference) ++
              (back.map (itemText scopes scope)).flatMap groups) := by
      intro reference
      rw [groups_intercalate, List.map_append, List.map_cons, List.flatMap_append,
        List.flatMap_cons]
    show tidy _ = tidy _ ↔ _
    rw [tidy_inj, hlist first, hlist second, List.append_cancel_left_eq,
      List.append_cancel_right_eq]

end HeatPlacement.Heat.GroupNames
