import HeatPlacement.Proofs.Parameters.Merging
import HeatPlacement.Proofs.Walk.Members

/-!
# Groups that are expanded

Whether a group is expanded, and from which file, is read off its merged properties. Injected
properties leave alone what a group says itself, unless this only points back at its own name.

* `expandable?_eq_some_iff`: which groups are expanded
* `Level.definition?_eq_some_iff`: the file that a `resource_def` names, and what it injects
* `get?_mergedProperties`: **own properties are kept** where they are no self-references
-/

namespace HeatPlacement.Heat

theorem bind_asObj?_eq_some_iff {value : Option Json} {fields : Fields Json} :
    value.bind Json.asObj? = some fields ↔ value = some (.obj fields) := by
  rcases value with _ | (_ | _ | _ | _ | _ | _) <;> simp [Json.asObj?]

theorem bind_asStr?_eq_some_iff {value : Option Json} {text : String} :
    value.bind Json.asStr? = some text ↔ value = some (.str text) := by
  rcases value with _ | (_ | _ | _ | _ | _ | _) <;> simp [Json.asStr?]

/-- A file that holds a template with resources is not null. -/
theorem ne_null_of_normalize {reader : Reader} {file : String} {document : Json}
    {template members : Fields Json} (hnormal : normalize reader file document = .ok template)
    (hmembers : resourcesOf? template = some members) : document ≠ .null := by
  rintro rfl
  cases hnormal
  cases hmembers

/-- An interpreted resource is expanded iff it is a group with a `resource_def`. -/
theorem expandable?_eq_some_iff {resource own : Fields Json} {kind : ResourceKind}
    (hkind : ResourceKind.ofResource? resource = some kind) :
    expandable? resource = some own ↔
      Fields.get? resource "properties" = some (.obj own) ∧ kind.isGroup = true ∧
        "resource_def" ∈ Fields.names own := by
  rw [expandable?, Option.filter_eq_some_iff, bind_asObj?_eq_some_iff, Bool.and_eq_true,
    typeOf_of_ofResource? hkind, ResourceKind.ofName?_name, Fields.has_iff_mem, Option.any_some]

/-- A `resource_def` names a nested template file with its `type`, and injects its properties. -/
theorem Level.definition?_eq_some_iff {own injected : Fields Json} {file : String} :
    Level.definition? own = some (file, injected) ↔
      ∃ definition, Fields.get? own "resource_def" = some (.obj definition) ∧
        Fields.get? definition "type" = some (.str file) ∧ namesNestedTemplate file = true ∧
          propertiesOf definition = injected := by
  unfold Level.definition?
  constructor
  · intro h
    obtain ⟨definition, hdefinition, h⟩ := Option.bind_eq_some_iff.mp h
    obtain ⟨type, htype, h⟩ := Option.bind_eq_some_iff.mp h
    split at h
    · rename_i hfile
      cases h
      exact ⟨definition, bind_asObj?_eq_some_iff.mp hdefinition, bind_asStr?_eq_some_iff.mp htype,
        hfile, rfl⟩
    · cases h
  · rintro ⟨definition, hdefinition, htype, hfile, rfl⟩
    simp [hdefinition, htype, hfile, Json.asObj?, Json.asStr?]

/-! ### Merged properties -/

/-- **Own properties are kept** among the merged ones where they are no self-references. -/
theorem get?_mergedProperties {parent : Option (Fields Json)} {resource : Fields Json}
    {key : String} {value : Json} (hvalue : Fields.get? (propertiesOf resource) key = some value)
    (hself : isSelfReference value key = false) :
    Fields.get? (mergedProperties parent resource) key = some value := by
  cases parent with
  | none => exact hvalue
  | some parent => exact get?_mergeParent hvalue hself

/-- A value without a `get_param` is no self-reference. -/
theorem isSelfReference_of_not_mem {fields : Fields Json} {key : String}
    (h : "get_param" ∉ Fields.names fields) : isSelfReference (.obj fields) key = false := by
  have hnone : Fields.get? fields "get_param" = none := Fields.get?_eq_none_iff.mpr h
  simp [isSelfReference, Json.member?, Json.asObj?, IntrinsicName.key, hnone]

end HeatPlacement.Heat
