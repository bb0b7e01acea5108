import HeatPlacement.Proofs.Groups.Expandable
import HeatPlacement.Proofs.Groups.Expansion
import HeatPlacement.Proofs.Walk.Ensures
import HeatPlacement.Proofs.Walk.Properties

/-!
# The shape of a result

Entries reach the result of a template in two ways: a resource is kept in its place, or the replicas
of a group are hoisted from the results of nested templates. Both ways give resources of one shape.

* `ResolvedProperty`, `ResolvedResource`: the shape of a property and of a resource
* `Level.properties_ensures`: **properties are resolved into this shape**, whatever they look like
* `Origin`, `ResolvedEntry`: where an entry of a result comes from, and what it is
* `Gives`, `gives_of_givenBy`: what one resource can give
* `givenBy_shape`: what one resource gives has the shape, if the results of the nested templates do
* `resolved_tree_shape`: **every entry of a result** has the shape and an origin
-/

namespace HeatPlacement.Heat

/-! ### Resolved properties -/

/-- A value that names groups, if it is an object, and nothing else. -/
def GroupNamesOnly (value : Json) : Prop :=
  ∀ fields, value = .obj fields → ∀ entry ∈ fields,
    entry.1 = "valet_groups" ∧ ∃ text, entry.2 = .str text

/-- A value that has no other member beside its `group`, if it is an object with one. -/
def GroupOnly (value : Json) : Prop :=
  ∀ fields, value = .obj fields → "group" ∈ Fields.names fields →
    ∀ name ∈ Fields.names fields, name = "group"

/-- **The shape of a resolved property.** -/
structure ResolvedProperty (key : String) (value : Json) : Prop where
  networks : key ≠ "networks"
  count : key = "count" → ∃ n, value = .ofNat n
  metadata : key = "metadata" → GroupNamesOnly value
  hints : key = "scheduler_hints" → GroupOnly value

theorem Level.countProperty_eq_ok {level : Level} {value resolved : Json}
    (h : level.countProperty value = .ok resolved) : ∃ n, resolved = .ofNat n := by
  unfold Level.countProperty at h
  dsimp only at h
  split at h
  · rename_i n _
    exact ⟨n, (Except.ok.inj h).symm⟩
  · cases h

theorem Level.metadata_groupNamesOnly (level : Level) (value : Json) (scope : Fields Json) :
    GroupNamesOnly (level.metadata value scope) := by
  intro fields hfields entry hentry
  cases value with
  | obj given =>
    simp only [Level.metadata] at hfields
    split at hfields
    · cases hfields
      cases hentry
    · cases hfields
      cases List.mem_singleton.mp hentry
      exact ⟨rfl, _, rfl⟩
  | _ => cases hfields

theorem groupOnly_single (group : Json) : GroupOnly (.single "group" group) := by
  intro fields hfields _ name hname
  cases hfields
  exact List.mem_singleton.mp hname

theorem Level.schedulerHints_ensures (level : Level) (value : Json) (scope : Fields Json) :
    (level.schedulerHints value scope).Ensures GroupOnly := by
  have hnamed : ∀ (name : String) (walk : Walk Json),
      (namedGroup name <$> walk).Ensures GroupOnly :=
    fun name walk => .map fun _ group _ => groupOnly_single _
  unfold Level.schedulerHints
  cases hgroup : value.member? "group" with
  | none =>
    -- A value without a group is kept as it is, with whatever members it has.
    refine .pure fun fields hfields hmem => ?_
    subst hfields
    exact absurd hmem (Fields.get?_eq_none_iff.mp hgroup)
  | some group =>
    dsimp only
    split
    · exact hnamed _ _
    · exact .of_next fun _ => hnamed _ _
    · exact .pure (groupOnly_single group)

/-- **A property is resolved into this shape**, if it is kept at all. -/
theorem Level.property_ensures (level : Level) (scope : Fields Json) (key : String) (value : Json) :
    (level.property scope key value).Ensures fun output =>
      ∀ resolved, output = some resolved → ResolvedProperty key resolved := by
  have hplain : ∀ (walk : Walk (Option Json)),
      key ∉ ["networks", "count", "metadata", "scheduler_hints"] →
      walk.Ensures fun output => ∀ resolved, output = some resolved →
        ResolvedProperty key resolved := by
    intro walk hkey here output _ resolved _
    simp only [List.mem_cons, List.not_mem_nil, or_false, not_or] at hkey
    exact ⟨hkey.1, fun h => absurd h hkey.2.1, fun h => absurd h hkey.2.2.1,
      fun h => absurd h hkey.2.2.2⟩
  unfold Level.property
  split
  · exact .pure fun _ h => nomatch h
  · refine .map (.ofExcept fun resolved hresolved output houtput => ?_)
    cases houtput
    exact ⟨by decide, fun _ => Level.countProperty_eq_ok hresolved, fun h => absurd h (by decide),
      fun h => absurd h (by decide)⟩
  · exact hplain _ (by decide)
  · exact hplain _ (by decide)
  · refine .map ((level.schedulerHints_ensures value scope).imp
      fun hints hhints output houtput => ?_)
    cases houtput
    exact ⟨by decide, fun h => absurd h (by decide), fun h => absurd h (by decide), fun _ => hhints⟩
  · refine .pure fun output houtput => ?_
    cases houtput
    exact ⟨by decide, fun h => absurd h (by decide), fun _ => level.metadata_groupNamesOnly value _,
      fun h => absurd h (by decide)⟩
  · exact hplain _ (by simp_all)

/-- **Properties are resolved into this shape.** -/
theorem Level.properties_ensures (level : Level) (scope own : Fields Json) :
    (level.properties scope own).Ensures fun resolved =>
      ∀ entry ∈ resolved, ResolvedProperty entry.1 entry.2 := by
  refine .foldlM (fun entry hentry => absurd hentry List.not_mem_nil)
    fun resolved hresolved property _ => ?_
  refine (level.property_ensures scope property.1 property.2).bind fun output houtput => ?_
  cases output with
  | none => exact .pure hresolved
  | some value =>
    refine .pure fun entry hentry => ?_
    rcases Fields.mem_of_mem_insert hentry with rfl | hentry
    · exact houtput value rfl
    · exact hresolved entry hentry

/-! ### Resolved resources -/

/-- **The shape of a resolved resource**: an interpreted one with resolved properties. -/
structure ResolvedResource (kind : ResourceKind) (resource properties : Fields Json) : Prop where
  type : ResourceKind.ofResource? resource = some kind
  own : Fields.get? resource "properties" = some (.obj properties)
  resolved : ∀ entry ∈ properties, ResolvedProperty entry.1 entry.2

/-- A resource that is not expanded is resolved into one of this shape and of its own kind. -/
theorem walkResource_resolved {sources : Sources} {members resource scope own : Fields Json}
    {here : Position} {kind : ResourceKind} {output : Json}
    (hkind : ResourceKind.ofResource? resource = some kind) (hexpand : expandable? resource = none)
    (hown : Fields.get? resource "properties" = some (.obj own))
    (h : (walkResource sources members resource scope).outcome here = .ok output) :
    ∃ resolved properties, output = .obj resolved ∧ ResolvedResource kind resolved properties := by
  obtain ⟨-, properties, hproperties, rfl⟩ :=
    (walkResource_eq_ok_iff_of_unexpanded hkind hexpand hown).mp h
  refine ⟨_, properties, rfl, ?_, Fields.get?_insert_self _ _ _, ?_⟩
  · exact (ofResource?_insert_properties _ _).trans hkind
  · exact Level.properties_ensures _ scope own _ properties hproperties

/-- A replica has the shape of the resource that it is made of, and allowed properties only. -/
theorem ResolvedResource.replica {kind : ResourceKind} {resource properties : Fields Json}
    (h : ResolvedResource kind resource properties) (name : String) (cursor : Nat) :
    ∃ replica, replicaEntry cursor (name, .obj resource) = (replicaName name cursor, .obj replica) ∧
      ResolvedResource kind replica (Fields.restrict properties replicaProperties) := by
  have hproperties : keptProperties resource = Fields.restrict properties replicaProperties := by
    rw [keptProperties, propertiesOf, h.own]
    rfl
  refine ⟨_, rfl, ?_, ?_, fun entry hentry => h.resolved entry (List.mem_filter.mp hentry).1⟩
  · exact (ofResource?_insert_properties _ _).trans h.type
  · rw [Fields.get?_insert_self, ← hproperties]
    rfl

/-! ### Entries of a result -/

/-- **Where an entry of a result comes from**, with its kind, its name and its properties: it is a
resource of the template, or a replica of one of its groups. -/
inductive Origin (sources : Sources) (members : Fields Json) (parent : Option (Fields Json)) :
    ResourceKind → String → Fields Json → Prop where
  /-- The resource with this name and of this kind, which is no server group at the top. -/
  | kept {kind : ResourceKind} {name : String} {original properties : Fields Json} :
      (name, .obj original) ∈ members → ResourceKind.ofResource? original = some kind →
      (kind = .serverGroup → parent ≠ none) → Origin sources members parent kind name properties
  /-- The replica with a number below the count of the group, which keeps allowed properties
  only. -/
  | replica {kind : ResourceKind} {name node : String}
      {group definition nested properties : Fields Json} {count cursor : Nat} :
      (name, .obj group) ∈ members →
      GroupOf sources (mergedProperties parent group)
        (Fields.insert group "properties" (.obj (mergedProperties parent group))) definition nested
        count →
      cursor < count → (∀ key ∈ Fields.names properties, key ∈ replicaProperties) →
      Origin sources members parent kind (replicaName node cursor) properties

/-- **An entry of a result**: an interpreted resource with resolved properties, and its origin. -/
def ResolvedEntry (sources : Sources) (members : Fields Json) (parent : Option (Fields Json))
    (entry : String × Json) : Prop :=
  ∃ kind resource properties, entry.2 = .obj resource ∧ ResolvedResource kind resource properties ∧
    Origin sources members parent kind entry.1 properties

/-- A group that is expanded gives nothing, or has a count and a nested template. -/
theorem Level.expandGroup_ensures (level : Level) (own scope : Fields Json) :
    (level.expandGroup own scope).Ensures fun output =>
      output = .obj [] ∨ ∃ file injected count nested,
        definition? own = some (file, injected) ∧
          level.sources.scopes.replicaCount (Fields.get? own "count") scope = .ok count ∧
          level.sources.nested? file = .ok (some nested) := by
  unfold Level.expandGroup
  cases hdefinition : definition? own with
  | none => exact .pure (.inl rfl)
  | some found =>
    obtain ⟨file, injected⟩ := found
    refine (Walk.Ensures.ofExcept fun count hcount => hcount).bind fun count hcount => ?_
    refine (Walk.Ensures.ofExcept fun nested hnested => hnested).bind fun nested hnested => ?_
    cases nested with
    | none => exact .pure (.inl rfl)
    | some nested =>
      exact .map fun _ _ _ => .inr ⟨file, injected, count, nested, rfl, hcount, hnested⟩

/-- A group that is expanded gives nothing, or is one of replicas of a nested template. -/
theorem walkResource_of_expandable {sources : Sources} {members resource scope own : Fields Json}
    {here : Position} {kind : ResourceKind} {output : Json}
    (hkind : ResourceKind.ofResource? resource = some kind)
    (hexpand : expandable? resource = some own)
    (h : (walkResource sources members resource scope).outcome here = .ok output) :
    output = .obj [] ∨
      ∃ definition nested count, GroupOf sources scope resource definition nested count := by
  have hdepth := depth_lt_of_walkResource_eq_ok h
  have hlevel : (Level.whole sources members).resource resource scope =
      (Level.whole sources members).expandGroup own scope := by
    simp only [Level.resource, hexpand]
  rw [walkResource_eq, Walk.outcome_descend hdepth, hlevel] at h
  obtain ⟨hown, hgroup, -⟩ := (expandable?_eq_some_iff hkind).mp hexpand
  refine (Level.expandGroup_ensures _ own scope _ output h).imp_right ?_
  rintro ⟨file, injected, count, nested, hdefinition, hcount, hnested⟩
  obtain ⟨definition, hresource, htype, hfile, -⟩ := Level.definition?_eq_some_iff.mp hdefinition
  exact ⟨definition, nested, count, ⟨kind, hkind, hgroup⟩,
    ⟨own, hown, hresource, Scopes.replicaCount_eq_ok_iff.mp hcount⟩,
    ⟨file, htype, hfile, Sources.nested?_eq_some_iff.mp hnested⟩⟩

/-- What is hoisted from a map that is no resource is some of its entries, in order. -/
theorem sublist_hoisted {name : String} {fields : Fields Json}
    (hkind : ResourceKind.ofResource? fields = none) :
    (hoisted name (.obj fields)).Sublist fields := by
  simp only [hoisted, hkind, Option.isSome_none, Bool.false_eq_true, if_false]
  exact List.filter_sublist.trans (List.takeWhile_sublist _)

/-- The map of the replicas is no resource: none of them is called `type`. -/
theorem ofResource?_replicaEntries (resolved : Nat → Fields Json) (count : Nat) :
    ResourceKind.ofResource? (replicaEntries resolved count) = none := by
  have htype : Fields.get? (replicaEntries resolved count) "type" = none := by
    rw [Fields.get?_eq_none_iff, Fields.names, List.mem_map]
    rintro ⟨entry, hentry, htype⟩
    obtain ⟨i, -, hentry⟩ := List.mem_filterMap.mp hentry
    obtain ⟨first, -, rfl⟩ := Option.map_eq_some_iff.mp hentry
    exact replicaName_ne_type _ _ htype
  rw [ResourceKind.ofResource?, htype]
  rfl

/-- An entry of the replicas of a group is the replica of the first entry of one of the results. -/
theorem mem_replicaEntries_iff {resolved : Nat → Fields Json} {count : Nat}
    {entry : String × Json} :
    entry ∈ replicaEntries resolved count ↔
      ∃ i < count, ∃ first ∈ (resolved i).head?, replicaEntry i first = entry := by
  simp only [replicaEntries, List.mem_filterMap, List.mem_range, Option.map_eq_some_iff,
    Option.mem_def]

section Entries

variable {sources : Sources} {parent : Option (Fields Json)}

/-- **What one resource can give**: nothing, itself, or the replicas of its group. -/
inductive Gives (sources : Sources) (members : Fields Json) (parent : Option (Fields Json))
    (here : Position) : String × Json → Fields Json → Prop where
  | nothing {member : String × Json} : Gives sources members parent here member []
  | itself {kind : ResourceKind} {name : String} {original resolved : Fields Json} :
      ResourceKind.ofResource? original = some kind → (kind = .serverGroup → parent ≠ none) →
      expandable? (Fields.insert original "properties"
        (.obj (mergedProperties parent original))) = none →
      memberResolution sources members parent here original = .ok (.obj resolved) →
      Gives sources members parent here (name, .obj original) [(name, .obj resolved)]
  | replicas {name : String} {group definition nested : Fields Json} {count : Nat}
      {resolved : Nat → Fields Json} :
      GroupOf sources (mergedProperties parent group)
        (Fields.insert group "properties" (.obj (mergedProperties parent group))) definition nested
        count →
      (∀ i < count, replicaResolution sources here members (mergedProperties parent group)
        definition nested i = .ok (resolved i)) →
      Gives sources members parent here (name, .obj group)
        (hoisted name (.obj (replicaEntries resolved count)))

/-- Inside a template, a resource gives nothing else. -/
theorem gives_of_givenBy {members entries : Fields Json} {member : String × Json} {here : Position}
    (hne : here.stack.frames ≠ [])
    (h : givenBy sources members parent here member = .ok entries) :
    Gives sources members parent here member entries := by
  by_cases hplaced : ∀ kind, ResourceKind.ofValue? member.2 = some kind →
      kind = .serverGroup ∧ parent = none
  · rw [givenBy_of_unplaced hplaced] at h
    cases h
    exact .nothing
  push Not at hplaced
  obtain ⟨kind, hkind, hplaced⟩ := hplaced
  obtain ⟨name, value⟩ := member
  cases value with
  | obj original =>
    let merged := mergedProperties parent original
    have hmerged : ResourceKind.ofResource? (Fields.insert original "properties" (.obj merged)) =
        some kind := (ofResource?_insert_properties _ _).trans hkind
    cases hexpand : expandable? (Fields.insert original "properties" (.obj merged)) with
    | none =>
      obtain ⟨resolved, hresolved, rfl, -⟩ := givenBy_of_unexpanded hkind hplaced hexpand h
      exact .itself hkind hplaced hexpand hresolved
    | some own =>
      rw [givenBy_of_kind hkind hplaced] at h
      obtain ⟨output, houtput, rfl⟩ := map_eq_ok_iff.mp h
      rcases walkResource_of_expandable hmerged hexpand houtput with rfl | ⟨definition, nested,
        count, hgroup⟩
      · exact .nothing
      · obtain ⟨resolved, hresolved, rfl⟩ := (walkResource_eq_ok_iff_of_group hgroup hne
          (depth_lt_of_walkResource_eq_ok houtput)).mp houtput
        exact .replicas hgroup hresolved
  | _ => cases hkind

/-- **What one resource gives has the shape** and an origin, if the results of the templates below
have the shape. -/
theorem givenBy_shape {members entries : Fields Json} {member : String × Json} {here : Position}
    (hne : here.stack.frames ≠ []) (hmember : member ∈ members)
    (hnested : ∀ nested parent there resolved, here.depth < Position.depth there →
      (walkTemplate sources nested parent).outcome there = .ok resolved →
        ∀ entry ∈ resolved, ∃ kind resource properties,
          entry.2 = .obj resource ∧ ResolvedResource kind resource properties)
    (h : givenBy sources members parent here member = .ok entries) :
    ∀ entry ∈ entries, ResolvedEntry sources members parent entry := by
  intro entry hentry
  cases gives_of_givenBy hne h with
  | nothing => exact absurd hentry List.not_mem_nil
  | @itself kind name original resolved hkind hplaced hexpand hresolved =>
    obtain ⟨resource, properties, hresource, hshape⟩ := walkResource_resolved
      ((ofResource?_insert_properties _ _).trans hkind) hexpand (Fields.get?_insert_self _ _ _)
      hresolved
    cases List.mem_singleton.mp hentry
    exact ⟨kind, resource, properties, hresource, hshape, .kept hmember hkind hplaced⟩
  | @replicas name group definition nested count resolved hgroup hresolved =>
    -- Replicas are hoisted, each from the result of a nested template two levels deeper.
    have hentry := (sublist_hoisted (ofResource?_replicaEntries resolved count)).mem hentry
    obtain ⟨i, hi, ⟨node, value⟩, hfirst, rfl⟩ := mem_replicaEntries_iff.mp hentry
    obtain ⟨kind, resource, properties, rfl, hshape⟩ := hnested nested _ (here.replica i) _
      (Nat.lt_succ_self _) (hresolved i hi) _ (List.mem_of_mem_head? hfirst)
    obtain ⟨replica, hreplica, hshape⟩ := hshape.replica node i
    refine ⟨kind, replica, _, congrArg Prod.snd hreplica, hshape, ?_⟩
    refine .replica hmember hgroup hi fun key hkey => ?_
    obtain ⟨entry, hentry, rfl⟩ := List.mem_map.mp hkey
    exact List.contains_iff_mem.mp (List.mem_filter.mp hentry).2

/-- The entries of a result have the shape, with so many levels left below the depth limit. -/
theorem walkTemplate_shape {room : Nat} {template result : Fields Json} {here : Position}
    (hroom : depthLimit ≤ here.depth + room)
    (hok : (walkTemplate sources template parent).outcome here = .ok result) :
    ∃ members, resourcesOf? template = some members ∧
      ∀ entry ∈ result, ResolvedEntry sources members parent entry := by
  induction room generalizing template parent here result with
  | zero =>
    obtain ⟨members, hmembers⟩ := resourcesOf?_of_walkTemplate_eq_ok hok
    exact absurd ((walkTemplate_eq_ok_iff hmembers).mp hok).1 (Nat.not_lt.mpr hroom)
  | succ room ih =>
    obtain ⟨members, hmembers⟩ := resourcesOf?_of_walkTemplate_eq_ok hok
    obtain ⟨-, entries, hentries, rfl⟩ := (walkTemplate_eq_ok_iff hmembers).mp hok
    obtain ⟨give, hgive, rfl⟩ := given_eq_ok_iff.mp hentries
    refine ⟨members, hmembers, fun entry hentry => ?_⟩
    have hentry := (Fields.mem_of_mem_extend hentry).resolve_left List.not_mem_nil
    obtain ⟨member, hmember, hentry⟩ := List.mem_flatMap.mp hentry
    refine givenBy_shape (here.inside_ne_nil members) hmember ?_ (hgive member hmember) entry hentry
    -- The results of nested templates have the shape; where their entries come from is forgotten.
    intro nested parent there resolved hdepth hok entry hentry
    have hdepth : here.depth + 1 < there.depth := hdepth
    obtain ⟨_, -, hshape⟩ := ih (by omega) hok
    obtain ⟨kind, resource, properties, hresource, hshape, -⟩ := hshape entry hentry
    exact ⟨kind, resource, properties, hresource, hshape⟩

/-- **The shape of a result.** Every entry of the result of a template is an interpreted resource
with resolved properties. It stands for a resource of the template under its own name and of its own
kind, or it is a replica of one of the groups of the template, with a number below the count and
with allowed properties only. -/
theorem resolved_tree_shape {template result : Fields Json} {here : Position}
    (hok : (walkTemplate sources template parent).outcome here = .ok result) :
    ∃ members, resourcesOf? template = some members ∧
      ∀ entry ∈ result, ResolvedEntry sources members parent entry :=
  walkTemplate_shape (Nat.le_add_left depthLimit here.depth) hok

end Entries

/-- A server beside a group of two replicas. The networks, the other metadata and the key of the
replicas are gone. -/
theorem resolved_tree_shape_of_replicas :
    let own : Fields Json := [("name", .str "db"), ("networks", .arr []),
      ("metadata", .obj [("valet_groups", .str "g1"), ("owner", .str "ops")])]
    let node := serverOf [("name", .str "vm"), ("key_name", .str "ops")]
    let sources : Sources :=
      ⟨Yaml.read?, [("node.yaml", .obj (templateOf [("node", .obj node)]))], ⟨[], []⟩⟩
    let members : Fields Json :=
      [("db", .obj (serverOf own)), ("vms", .obj (replicaGroup (.ofNat 2) "node.yaml"))]
    let result : Fields Json :=
      [("db", .obj (serverOf [("name", .str "db"),
          ("metadata", .single "valet_groups" (.str "g1"))])),
        ("node_0", .obj (namedServer "vm")), ("node_1", .obj (namedServer "vm"))]
    (walkTemplate sources (templateOf members) none).outcome .start = .ok result ∧
      ∀ entry ∈ result, ResolvedEntry sources members none entry := by
  have hok : (walkTemplate
      ⟨Yaml.read?, [("node.yaml", .obj (templateOf [("node", .obj
        (serverOf [("name", .str "vm"), ("key_name", .str "ops")]))]))], ⟨[], []⟩⟩
      (templateOf [("db", .obj (serverOf [("name", .str "db"), ("networks", .arr []),
        ("metadata", .obj [("valet_groups", .str "g1"), ("owner", .str "ops")])])),
        ("vms", .obj (replicaGroup (.ofNat 2) "node.yaml"))]) none).outcome .start =
      .ok [("db", .obj (serverOf [("name", .str "db"),
          ("metadata", .single "valet_groups" (.str "g1"))])),
        ("node_0", .obj (namedServer "vm")), ("node_1", .obj (namedServer "vm"))] := by
    decide +kernel
  intro own node sources members result
  obtain ⟨members', hmembers, hshape⟩ := resolved_tree_shape hok
  cases hmembers
  exact ⟨hok, hshape⟩

end HeatPlacement.Heat
