import HeatPlacement.Heat.Resolution
import HeatPlacement.Proofs.Fields

/-!
# Merged properties

The properties of an enclosing resource are injected into those of a nested one, entry by entry. An
entry is taken where its name is not bound, and where the value only points back at the name. Each
entry meets what those in front of it have left.

* `givesWay`: whether an entry is taken under a name; `injectEntry`: the properties after one entry
* `mergeParent_cons`: merged properties are **injected one entry after another**
* `names_mergeParent`: the own names come first, then those that were not bound
* `get?_mergeParent_eq`: the value under a name
* `mergeParent_eq_self`: where every entry that is taken is there already, nothing changes
* `merged_properties`: **names and values** of merged properties, and merging twice
-/

namespace HeatPlacement.Heat

variable {own parent : Fields Json} {key name : String} {value : Json}

/-! ### One entry -/

/-- Whether an injected entry is taken under a name: there is no value, or it only points back at
the name. -/
def givesWay (own : Fields Json) (key : String) : Bool :=
  (Fields.get? own key).all fun old => isSelfReference old key

theorem givesWay_iff :
    givesWay own key = true ↔
      ∀ old, Fields.get? own key = some old → isSelfReference old key = true :=
  Option.all_eq_true _ _

/-- The properties after one injected entry. -/
def injectEntry (own : Fields Json) (key : String) (value : Json) : Fields Json :=
  if givesWay own key then Fields.insert own key value else own

/-- **The entries are injected** one after another. -/
theorem mergeParent_cons (own : Fields Json) (key : String) (value : Json) (rest : Fields Json) :
    mergeParent own ((key, value) :: rest) = mergeParent (injectEntry own key value) rest := by
  unfold mergeParent injectEntry givesWay
  rw [List.foldl_cons]
  congr 1
  dsimp only
  cases Fields.get? own key <;> rfl

/-- An entry that is not taken has a name that is bound already. -/
theorem names_injectEntry :
    Fields.names (injectEntry own key value) = Fields.names (Fields.insert own key value) := by
  rw [injectEntry]
  split
  · rfl
  · rename_i hkept
    have hkey : key ∈ Fields.names own := by
      by_contra hkey
      refine hkept (givesWay_iff.mpr fun old hold => ?_)
      rw [Fields.get?_eq_none_iff.mpr hkey] at hold
      cases hold
    rw [Fields.names_insert, if_pos hkey]

theorem get?_injectEntry_of_ne (h : key ≠ name) :
    Fields.get? (injectEntry own key value) name = Fields.get? own name := by
  rw [injectEntry]
  split
  · exact Fields.get?_insert_of_ne h value
  · rfl

theorem get?_injectEntry_self :
    Fields.get? (injectEntry own key value) key =
      if givesWay own key then some value else Fields.get? own key := by
  rw [injectEntry]
  split
  · exact Fields.get?_insert_self own key value
  · rfl

/-! ### Names -/

/-- The names are those that would be bound by binding every entry. -/
theorem names_mergeParent_eq (own parent : Fields Json) :
    Fields.names (mergeParent own parent) = Fields.names (Fields.extend own parent) := by
  induction parent generalizing own with
  | nil => rfl
  | cons entry rest ih =>
    obtain ⟨key, value⟩ := entry
    rw [mergeParent_cons, ih, Fields.extend_cons, Fields.names_extend_congr names_injectEntry]

/-- Merged properties have the own names and the injected ones. -/
theorem mem_names_mergeParent :
    name ∈ Fields.names (mergeParent own parent) ↔
      name ∈ Fields.names own ∨ name ∈ Fields.names parent := by
  rw [names_mergeParent_eq, Fields.mem_names_extend]

/-- Merged names are distinct if the own ones are. -/
theorem nodup_names_mergeParent (h : (Fields.names own).Nodup) (parent : Fields Json) :
    (Fields.names (mergeParent own parent)).Nodup := by
  rw [names_mergeParent_eq]
  exact Fields.nodup_names_extend h parent

/-- The own names keep their order, and the injected ones that are new follow in theirs. -/
theorem names_mergeParent (hnames : (Fields.names parent).Nodup) :
    Fields.names (mergeParent own parent) =
      Fields.names own ++ (Fields.names parent).filter (· ∉ Fields.names own) := by
  rw [names_mergeParent_eq, Fields.names_extend hnames]

/-! ### Values -/

/-- Merged properties are own ones or injected ones. -/
theorem mem_or_mem_of_mem_mergeParent {entry : String × Json}
    (h : entry ∈ mergeParent own parent) : entry ∈ own ∨ entry ∈ parent := by
  induction parent generalizing own with
  | nil => exact .inl h
  | cons first rest ih =>
    obtain ⟨key, value⟩ := first
    rw [mergeParent_cons] at h
    rcases ih h with hmem | hmem
    · rw [injectEntry] at hmem
      split at hmem
      · rcases Fields.mem_of_mem_insert hmem with rfl | hmem
        · exact .inr List.mem_cons_self
        · exact .inl hmem
      · exact .inl hmem
    · exact .inr (List.mem_cons_of_mem _ hmem)

/-- Under a name that is not injected the own value stays. -/
theorem get?_mergeParent_of_not_mem (h : key ∉ Fields.names parent) :
    Fields.get? (mergeParent own parent) key = Fields.get? own key := by
  induction parent generalizing own with
  | nil => rfl
  | cons entry rest ih =>
    obtain ⟨name, injected⟩ := entry
    rw [Fields.names_cons, List.mem_cons, not_or] at h
    rw [mergeParent_cons, ih h.2, get?_injectEntry_of_ne (Ne.symm h.1)]

/-- A value that is no self-reference is not replaced. -/
theorem get?_mergeParent (hvalue : Fields.get? own key = some value)
    (hself : isSelfReference value key = false) :
    Fields.get? (mergeParent own parent) key = some value := by
  have hkept : givesWay own key = false := by
    rw [givesWay, hvalue, Option.all_some, hself]
  induction parent generalizing own with
  | nil => exact hvalue
  | cons entry rest ih =>
    obtain ⟨name, injected⟩ := entry
    have hentry : Fields.get? (injectEntry own name injected) key = Fields.get? own key := by
      by_cases hname : name = key
      · subst hname
        rw [get?_injectEntry_self, hkept, if_neg Bool.false_ne_true]
      · exact get?_injectEntry_of_ne hname
    rw [mergeParent_cons]
    exact ih (hentry.trans hvalue) (by rw [givesWay, hentry, ← givesWay, hkept])

/-- **The value under a name.** The injected value is taken where it may be. -/
theorem get?_mergeParent_eq (hnames : (Fields.names parent).Nodup) (own : Fields Json)
    (key : String) :
    Fields.get? (mergeParent own parent) key =
      if givesWay own key then (Fields.get? parent key).or (Fields.get? own key)
      else Fields.get? own key := by
  induction parent generalizing own with
  | nil => exact (ite_self _).symm
  | cons entry rest ih =>
    obtain ⟨name, injected⟩ := entry
    obtain ⟨hname, hrest⟩ := List.nodup_cons.mp hnames
    rw [mergeParent_cons, Fields.get?_cons]
    by_cases heq : name = key
    · -- The value is injected now, and by no later entry.
      subst heq
      rw [get?_mergeParent_of_not_mem hname, get?_injectEntry_self, if_pos rfl, Option.some_or]
    · have hentry : Fields.get? (injectEntry own name injected) key = Fields.get? own key :=
        get?_injectEntry_of_ne heq
      rw [ih hrest, givesWay, hentry, ← givesWay, if_neg heq]

/-- An injected value takes the place of a self-reference, and of no value. -/
theorem get?_mergeParent_of_injected (hnames : (Fields.names parent).Nodup)
    (hvalue : Fields.get? parent key = some value)
    (hself : ∀ old, Fields.get? own key = some old → isSelfReference old key = true) :
    Fields.get? (mergeParent own parent) key = some value := by
  rw [get?_mergeParent_eq hnames, if_pos (givesWay_iff.mpr hself), hvalue, Option.some_or]

/-! ### Merging again -/

/-- Where every entry that is taken is there already, nothing changes. -/
theorem mergeParent_eq_self
    (h : ∀ entry ∈ parent, givesWay own entry.1 = true →
      Fields.get? own entry.1 = some entry.2) :
    mergeParent own parent = own := by
  induction parent with
  | nil => rfl
  | cons entry rest ih =>
    obtain ⟨key, value⟩ := entry
    have hentry : injectEntry own key value = own := by
      rw [injectEntry]
      split
      · rename_i htaken
        exact Fields.insert_of_get? (h _ List.mem_cons_self htaken)
      · rfl
    rw [mergeParent_cons, hentry]
    exact ih fun entry hmem => h entry (List.mem_cons_of_mem _ hmem)

/-- An entry that is taken a second time was taken the first time. -/
theorem mergeParent_mergeParent (hnames : (Fields.names parent).Nodup) :
    mergeParent (mergeParent own parent) parent = mergeParent own parent := by
  refine mergeParent_eq_self fun entry hmem htaken => ?_
  have hentry : Fields.get? parent entry.1 = some entry.2 := Fields.get?_of_mem hnames hmem
  have hvalue := get?_mergeParent_eq hnames own entry.1
  rw [hentry, Option.some_or] at hvalue
  by_cases hown : givesWay own entry.1 = true
  · rw [hvalue, if_pos hown]
  · -- An own value that did not give way stands there still.
    rw [if_neg hown] at hvalue
    rw [givesWay, hvalue, ← givesWay] at htaken
    exact absurd htaken hown

/-- **Merged properties.** The own names keep their order, and the injected ones that are new follow
in theirs. A value is injected where there is none, and where the own one is a mapping whose
`get_param` is its name; if nothing is injected there, and under all other names, the own value
stays. To inject the same properties again changes nothing, whatever they refer to. -/
theorem merged_properties (hnames : (Fields.names parent).Nodup) (own : Fields Json) :
    Fields.names (mergeParent own parent) =
        Fields.names own ++ (Fields.names parent).filter (· ∉ Fields.names own) ∧
      (∀ key, Fields.get? (mergeParent own parent) key =
        match Fields.get? own key with
        | none => Fields.get? parent key
        | some value =>
          if value.member? "get_param" = some (.str key) then
            (Fields.get? parent key).or (some value)
          else some value) ∧
      mergeParent (mergeParent own parent) parent = mergeParent own parent := by
  refine ⟨names_mergeParent hnames, fun key => ?_, mergeParent_mergeParent hnames⟩
  rw [get?_mergeParent_eq hnames, givesWay]
  cases Fields.get? own key with
  | none => rw [Option.all_none, if_pos rfl, Option.or_none]
  | some value => simp only [Option.all_some, isSelfReference_iff]

/-- The flavor points back at itself and is injected, and so does the name, for which there is
nothing. The zone is looked up in a list, so that it stays. The size is new, and points back at
itself where it comes from. -/
theorem merged_properties_of_self_references :
    let again (key : String) : Json := .single "get_param" (.str key)
    let listed := Json.single "get_param" (.arr [.str "zone"])
    let own : Fields Json := [("name", again "name"), ("image", .str "own-image"),
      ("flavor", again "flavor"), ("zone", listed)]
    let parent : Fields Json := [("image", .str "parent-image"), ("size", again "size"),
      ("flavor", .str "m1.xlarge"), ("zone", .str "az-a")]
    let merged := mergeParent own parent
    (Fields.names parent).Nodup ∧
      Fields.names merged = ["name", "image", "flavor", "zone", "size"] ∧
      Fields.get? merged "name" = some (again "name") ∧
      Fields.get? merged "image" = some (.str "own-image") ∧
      Fields.get? merged "flavor" = some (.str "m1.xlarge") ∧
      Fields.get? merged "zone" = some listed ∧
      Fields.get? merged "size" = some (again "size") ∧
      mergeParent merged parent = merged := by
  intro again listed own parent merged
  have hnames : (Fields.names parent).Nodup := by decide
  obtain ⟨hmerged, hvalue, hagain⟩ := merged_properties hnames own
  exact ⟨hnames, hmerged.trans (by decide), (hvalue "name").trans (by decide),
    (hvalue "image").trans (by decide), (hvalue "flavor").trans (by decide),
    (hvalue "zone").trans (by decide), (hvalue "size").trans (by decide), hagain⟩

end HeatPlacement.Heat
