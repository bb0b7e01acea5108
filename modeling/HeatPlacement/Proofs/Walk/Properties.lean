import HeatPlacement.Proofs.Walk.Members

/-!
# Properties of a resource

The properties of a resource are resolved one after another at one position. None of them sees what
another one gives.

* `Level.properties_eq_ok_iff`: **properties are resolved** iff each of them is, and keep their
  order
* `Level.property_of_ordinary`: a property that is not special is evaluated
* `Level.property_of_properties_eq_ok`: a property among others is resolved as it is alone
* `walkResource_eq_ok_iff_of_unexpanded`: a resource is resolved iff its properties are
-/

namespace HeatPlacement.Heat

/-- The properties with a resolution of their own. -/
def specialProperties : List String :=
  ["networks", "count", "resource_def", "availability_zone", "scheduler_hints", "metadata"]

/-- A property that is not special is evaluated in the present context. -/
theorem Level.property_of_ordinary {key : String} (h : key ∉ specialProperties) (level : Level)
    (scope : Fields Json) (value : Json) (here : Position) :
    (level.property scope key value).outcome here =
      .ok ((Context.mk level.sources.scopes here.stack here.cursor).ordinary? level.resources scope
        value) := by
  unfold Level.property
  split
  all_goals first | exact absurd (by decide) h | skip
  rw [Walk.outcome_bind_of_eq rfl]
  rfl

/-- Every property of the whole resolution restores its position. -/
theorem Level.whole_property_restoring (sources : Sources) (resources scope : Fields Json)
    (key : String) (value : Json) :
    ((Level.whole sources resources).property scope key value).Restoring :=
  (Walk.Congruence.level_property .restoring
    (fun t p => ⟨walkTemplate_restoring sources t p, walkTemplate_restoring sources t p⟩)
    (fun r s => ⟨walkResource_restoring sources resources r s,
      walkResource_restoring sources resources r s⟩) scope key value).1

/-- **Properties are resolved** iff each of them is. They keep their order, less those that are
dropped. -/
theorem Level.properties_eq_ok_iff {level : Level} {here : Position} {scope own : Fields Json}
    (hproperty : ∀ key value, (level.property scope key value).Restoring)
    (hne : here.stack.frames ≠ []) (hnames : (Fields.names own).Nodup) {resolved : Fields Json} :
    (level.properties scope own).outcome here = .ok resolved ↔
      ∃ output : String × Json → Option Json,
        (∀ entry ∈ own,
          (level.property scope entry.1 entry.2).outcome here = .ok (output entry)) ∧
        resolved = own.filterMap fun entry => (output entry).map (entry.1, ·) := by
  let kept (entry : String × Json) (output : Option Json) : Fields Json :=
    (output.map (entry.1, ·)).toList
  let give (entry : String × Json) : Walk (Fields Json) :=
    kept entry <$> level.property scope entry.1 entry.2
  have hgive : ∀ entry, (give entry).Restoring := by
    intro entry
    show (kept entry <$> _ : Walk _).Restoring
    rw [map_eq_pure_bind]
    exact (hproperty entry.1 entry.2).bind fun _ => .ofExcept _
  -- Binding a property that is kept is binding a list of one entry, and dropping it the empty one.
  have hfold : level.properties scope own = own.foldlM (fun done entry => do
      let entries ← give entry
      pure (Fields.extend done entries)) [] := by
    unfold Level.properties
    congr 1
    funext done entry
    show _ = (kept entry <$> _ : Walk _) >>= _
    rw [map_eq_pure_bind, bind_assoc]
    refine bind_congr fun output => ?_
    cases output <;> rfl
  have hkept : ∀ output : String × Json → Option Json,
      Fields.extend [] (own.map fun entry => kept entry (output entry)).flatten =
        own.filterMap fun entry => (output entry).map (entry.1, ·) := by
    intro output
    have hflat : (own.map fun entry => kept entry (output entry)).flatten =
        own.filterMap fun entry => (output entry).map (entry.1, ·) := by
      rw [← List.flatMap_def, List.filterMap_eq_flatMap_toList]
    rw [hflat]
    exact Fields.extend_of_nodup ((Fields.sublist_names_filterMap output own).nodup hnames)
  rw [hfold, Walk.outcome_foldlM_extend hgive hne own [], map_eq_ok_iff]
  constructor
  · rintro ⟨parts, hparts, rfl⟩
    obtain ⟨part, hpart, rfl⟩ := mapM_eq_ok_iff.mp hparts
    have houtput : ∀ entry ∈ own, ∃ output,
        (level.property scope entry.1 entry.2).outcome here = .ok output ∧
          kept entry output = part entry := by
      intro entry hentry
      have hentry := hpart entry hentry
      rwa [Walk.outcome_map, map_eq_ok_iff] at hentry
    choose! output houtput using houtput
    refine ⟨output, fun entry hentry => (houtput entry hentry).1, ?_⟩
    rw [← hkept output, List.map_congr_left fun entry hentry => (houtput entry hentry).2]
  · rintro ⟨output, houtput, rfl⟩
    refine ⟨_, mapM_eq_ok (g := fun entry => kept entry (output entry)) fun entry hentry => ?_,
      hkept output⟩
    rw [Walk.outcome_map, houtput entry hentry]
    rfl

/-- A property that was resolved among others has the value that it has alone. -/
theorem Level.property_of_properties_eq_ok {sources : Sources}
    {members scope own resolved : Fields Json} {here : Position} (hne : here.stack.frames ≠ [])
    (hnames : (Fields.names own).Nodup)
    (h : ((Level.whole sources members).properties scope own).outcome here = .ok resolved)
    {key : String} {value : Json} (hvalue : Fields.get? own key = some value) :
    ((Level.whole sources members).property scope key value).outcome here =
      .ok (Fields.get? resolved key) := by
  obtain ⟨output, houtput, rfl⟩ := (Level.properties_eq_ok_iff
    (Level.whole_property_restoring sources members scope) hne hnames).mp h
  rw [Fields.get?_filterMap output hnames, hvalue, Option.bind_some]
  exact houtput _ (Fields.mem_of_get? hvalue)

/-- A property among others that is not special is evaluated if it is there. -/
theorem Level.get?_of_properties_eq_ok {sources : Sources}
    {members scope own resolved : Fields Json} {here : Position} (hne : here.stack.frames ≠ [])
    (hnames : (Fields.names own).Nodup)
    (h : ((Level.whole sources members).properties scope own).outcome here = .ok resolved)
    {key : String} (hordinary : key ∉ specialProperties) :
    Fields.get? resolved key = (Fields.get? own key).bind
      (Context.ordinary? ⟨sources.scopes, here.stack, here.cursor⟩ members scope) := by
  obtain ⟨output, houtput, rfl⟩ := (Level.properties_eq_ok_iff
    (Level.whole_property_restoring sources members scope) hne hnames).mp h
  rw [Fields.get?_filterMap output hnames]
  refine Option.bind_congr fun value hvalue => ?_
  have hproperty := houtput _ (Fields.mem_of_get? hvalue)
  rw [Level.property_of_ordinary hordinary] at hproperty
  exact (Except.ok.inj hproperty).symm

/-- **A resource is resolved** below the depth limit only, and iff its properties are, one level
deeper. -/
theorem walkResource_eq_ok_iff_of_unexpanded {sources : Sources}
    {members resource scope own : Fields Json} {here : Position} {kind : ResourceKind}
    (hkind : ResourceKind.ofResource? resource = some kind) (hexpand : expandable? resource = none)
    (hown : Fields.get? resource "properties" = some (.obj own)) {output : Json} :
    (walkResource sources members resource scope).outcome here = .ok output ↔
      here.depth < depthLimit ∧ ∃ resolved,
        ((Level.whole sources members).properties scope own).outcome
            { here with depth := here.depth + 1 } = .ok resolved ∧
          output = .obj (Fields.insert resource "properties" (.obj resolved)) := by
  by_cases hdepth : here.depth < depthLimit
  · have hlevel : (Level.whole sources members).resource resource scope =
        (fun resolved => Json.obj (Fields.insert resource "properties" (.obj resolved))) <$>
          (Level.whole sources members).properties scope own := by
      rw [Level.resource_of_unexpanded (namesNestedTemplate_of_ofResource? hkind) hexpand, hown]
      rfl
    rw [walkResource_eq, Walk.outcome_descend hdepth, hlevel, Walk.outcome_map, map_eq_ok_iff]
    constructor
    · rintro ⟨resolved, hresolved, rfl⟩
      exact ⟨hdepth, resolved, hresolved, rfl⟩
    · rintro ⟨-, resolved, hresolved, rfl⟩
      exact ⟨resolved, hresolved, rfl⟩
  · exact ⟨fun h => (hdepth (depth_lt_of_walkResource_eq_ok h)).elim, fun h => (hdepth h.1).elim⟩

/-- **A server of a template is resolved** into itself with its merged properties resolved, which
are the scope of their own references. -/
theorem memberResolution_of_server {sources : Sources} {members server : Fields Json}
    {parent : Option (Fields Json)} {here : Position} {output : Json}
    (hkind : ResourceKind.ofResource? server = some .server)
    (h : memberResolution sources members parent here server = .ok output) :
    ∃ properties,
      ((Level.whole sources members).properties (mergedProperties parent server)
          (mergedProperties parent server)).outcome { here with depth := here.depth + 1 } =
        .ok properties ∧
      output = .obj (Fields.insert server "properties" (.obj properties)) := by
  have hmerged := (ofResource?_insert_properties server
    (.obj (mergedProperties parent server))).trans hkind
  obtain ⟨-, properties, hproperties, rfl⟩ := (walkResource_eq_ok_iff_of_unexpanded hmerged
    (expandable?_of_server hmerged) (Fields.get?_insert_self _ _ _)).mp h
  exact ⟨properties, hproperties, by rw [Fields.insert_insert]⟩

/-- A server with some properties. -/
def serverOf (own : Fields Json) : Fields Json :=
  [("type", .str ResourceKind.server.name), ("properties", .obj own)]

end HeatPlacement.Heat
