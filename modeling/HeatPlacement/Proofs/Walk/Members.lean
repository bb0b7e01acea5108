import HeatPlacement.Proofs.Walk.Outcome

/-!
# Resources of a template

A server, and a server group that is not expanded, gives one entry to the result: itself, under its
name and of its own kind.

* `Level.resource_of_unexpanded`: a resource that is not expanded has its properties resolved
* `walkResource_of_unexpanded`: **a resource keeps its kind** unless it is a group that is expanded
* `givenBy_of_unexpanded`: **a resource gives itself** under its name
-/

namespace HeatPlacement.Heat

@[simp] theorem ofResource?_insert_properties (resource : Fields Json) (value : Json) :
    ResourceKind.ofResource? (Fields.insert resource "properties" value) =
      ResourceKind.ofResource? resource := by
  unfold ResourceKind.ofResource?
  rw [Fields.get?_insert_of_ne (by decide)]

/-- The type of an interpreted resource is the name of its kind. -/
theorem typeOf_of_ofResource? {resource : Fields Json} {kind : ResourceKind}
    (h : ResourceKind.ofResource? resource = some kind) : typeOf resource = kind.name := by
  unfold ResourceKind.ofResource? at h
  obtain ⟨type, htype, hkind⟩ := Option.bind_eq_some_iff.mp h
  rw [typeOf, htype, Option.getD_some, ResourceKind.ofName?_eq_some_iff.mp hkind]

/-- No interpreted type is the name of a template file. -/
theorem namesNestedTemplate_of_ofResource? {resource : Fields Json} {kind : ResourceKind}
    (h : ResourceKind.ofResource? resource = some kind) :
    namesNestedTemplate (typeOf resource) = false := by
  rw [typeOf_of_ofResource? h]
  cases kind <;> decide +kernel

theorem expandable?_of_server {resource : Fields Json}
    (h : ResourceKind.ofResource? resource = some .server) : expandable? resource = none := by
  have hname : ResourceKind.ofName? (typeOf resource) = some .server := by
    rw [typeOf_of_ofResource? h, ResourceKind.ofName?_name]
  simp [expandable?, hname, ResourceKind.isGroup]

/-- Without a `resource_def` nothing is expanded. -/
theorem expandable?_of_no_definition {resource own : Fields Json}
    (h : "resource_def" ∉ Fields.names own) :
    expandable? (Fields.insert resource "properties" (.obj own)) = none := by
  have hown : Fields.has own "resource_def" = false := by
    rw [← Bool.not_eq_true, Fields.has_iff_mem]
    exact h
  simp [expandable?, Json.asObj?, hown]

/-- A resource that is not expanded and names no template file has its properties resolved, if there
are any. -/
theorem Level.resource_of_unexpanded {resource : Fields Json}
    (hfile : namesNestedTemplate (typeOf resource) = false) (hexpand : expandable? resource = none)
    (level : Level) (scope : Fields Json) :
    level.resource resource scope =
      match (Fields.get? resource "properties").bind Json.asObj? with
      | none => pure (.obj resource)
      | some own =>
        (fun resolved => .obj (Fields.insert resource "properties" (.obj resolved))) <$>
          level.properties scope own := by
  cases hown : (Fields.get? resource "properties").bind Json.asObj? <;>
    simp only [Level.resource, hexpand, hfile, Bool.false_eq_true, if_false, hown]

/-- **A resource keeps its kind** unless it is a group that is expanded. -/
theorem walkResource_of_unexpanded {sources : Sources} {members resource scope : Fields Json}
    {here : Position} {kind : ResourceKind} {output : Json}
    (hkind : ResourceKind.ofResource? resource = some kind) (hexpand : expandable? resource = none)
    (h : (walkResource sources members resource scope).outcome here = .ok output) :
    ∃ resolved, output = .obj resolved ∧ ResourceKind.ofResource? resolved = some kind := by
  have hdepth := depth_lt_of_walkResource_eq_ok h
  -- The properties are resolved and the type is kept.
  rw [walkResource_eq, Walk.outcome_descend hdepth,
    Level.resource_of_unexpanded (namesNestedTemplate_of_ofResource? hkind) hexpand] at h
  cases hproperties : (Fields.get? resource "properties").bind Json.asObj? with
  | none =>
    simp only [hproperties, Walk.outcome_pure] at h
    cases h
    exact ⟨resource, rfl, hkind⟩
  | some own =>
    simp only [hproperties] at h
    rw [Walk.outcome_map] at h
    obtain ⟨properties, -, rfl⟩ := map_eq_ok_iff.mp h
    refine ⟨_, rfl, ?_⟩
    rw [ofResource?_insert_properties]
    exact hkind

/-- **A resource gives itself** under its name, resolved and of the same kind, unless it is a group
that is expanded. -/
theorem givenBy_of_unexpanded {sources : Sources} {members : Fields Json}
    {parent : Option (Fields Json)} {here : Position} {name : String}
    {resource entries : Fields Json} {kind : ResourceKind}
    (hkind : ResourceKind.ofResource? resource = some kind)
    (hplaced : kind = .serverGroup → parent ≠ none)
    (hexpand : expandable? (Fields.insert resource "properties"
      (.obj (mergedProperties parent resource))) = none)
    (h : givenBy sources members parent here (name, .obj resource) = .ok entries) :
    ∃ resolved, memberResolution sources members parent here resource = .ok (.obj resolved) ∧
      entries = [(name, .obj resolved)] ∧ ResourceKind.ofResource? resolved = some kind := by
  rw [givenBy_of_kind hkind hplaced] at h
  obtain ⟨output, houtput, rfl⟩ := map_eq_ok_iff.mp h
  have hmerged := (ofResource?_insert_properties resource
    (.obj (mergedProperties parent resource))).trans hkind
  obtain ⟨resolved, rfl, hresolved⟩ := walkResource_of_unexpanded hmerged hexpand houtput
  refine ⟨resolved, houtput, ?_, hresolved⟩
  simp [hoisted, hresolved]

end HeatPlacement.Heat
