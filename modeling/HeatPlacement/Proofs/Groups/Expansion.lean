import HeatPlacement.Proofs.Groups.Names
import HeatPlacement.Proofs.Walk.Members
import HeatPlacement.Proofs.Walk.Restoration

/-!
# Expansion of groups

A group is resolved by one resolution of its nested template for each replica, all at the same
position but for the cursor.

* `Scopes.CountsTo`: the number of replicas that a count stands for
* `GroupOf`: a resource that is a group of so many replicas of a nested template
* `replicaResolution`: the resolution of the nested template for one replica
* `walkResource_outcome_of_group`: **a group is the list of its replicas**
* `replicaEntries`: the entries that replicas give
* `group_expands_into_replicas`: **when a group is resolved**, into which entries, and that a
  smaller count gives the first of them
* `null_file_gives_no_replica`: a null file is no template of a group
-/

namespace HeatPlacement.Heat

/-! ### Counts -/

/-- The number of replicas that a count stands for: one if it is absent, null or a parameter without
value, else the integer that it or its parameter holds. -/
inductive Scopes.CountsTo (scopes : Scopes) (scope : Fields Json) : Option Json → Nat → Prop where
  | absent : CountsTo scopes scope none 1
  | null : CountsTo scopes scope (some .null) 1
  | integer {value : Json} {n : Nat} : asIndex? value = some n →
      CountsTo scopes scope (some value) n
  | unresolved {value : Json} {name : String} : paramName? value = some name →
      (scopes.resolvePlain name (some scope)).getD .null = .null →
      CountsTo scopes scope (some value) 1
  | parameter {value resolved : Json} {name : String} {n : Nat} : paramName? value = some name →
      scopes.resolvePlain name (some scope) = some resolved → asIndex? resolved = some n →
      CountsTo scopes scope (some value) n

theorem integerCount_eq_ok_iff {value : Json} {n : Nat} :
    integerCount value = .ok n ↔ asIndex? value = some n := by
  unfold integerCount
  cases asIndex? value <;> simp

theorem asIndex?_null : asIndex? .null = none := rfl

/-- Integers are no calls of a function. -/
theorem paramName?_of_asIndex? {value : Json} {n : Nat} (h : asIndex? value = some n) :
    paramName? value = none := by
  cases value with
  | num => rfl
  | str => rfl
  | _ => cases h

/-- A count that is not null is an integer itself or refers to a parameter. -/
theorem Scopes.replicaCount_some {scopes : Scopes} {scope : Fields Json} {value : Json}
    (h : value ≠ .null) :
    scopes.replicaCount (some value) scope =
      match paramName? value with
      | none => integerCount value
      | some name =>
        match (scopes.resolvePlain name (some scope)).getD .null with
        | .null => .ok 1
        | resolved => integerCount resolved := by
  cases value with
  | null => exact absurd rfl h
  | _ => rfl

/-- **The number of replicas** is the one that the count stands for. -/
theorem Scopes.replicaCount_eq_ok_iff {scopes : Scopes} {scope : Fields Json} {count : Option Json}
    {n : Nat} : scopes.replicaCount count scope = .ok n ↔ scopes.CountsTo scope count n := by
  constructor
  · intro h
    cases count with
    | none =>
      cases h
      exact .absent
    | some value =>
      by_cases hnull : value = .null
      · subst hnull
        cases h
        exact .null
      · rw [replicaCount_some hnull] at h
        cases hname : paramName? value with
        | none =>
          rw [hname] at h
          exact .integer (integerCount_eq_ok_iff.mp h)
        | some name =>
          simp only [hname] at h
          cases hplain : scopes.resolvePlain name (some scope) with
          | none =>
            rw [hplain] at h
            cases h
            exact .unresolved hname (by rw [hplain]; rfl)
          | some resolved =>
            rw [hplain, Option.getD_some] at h
            split at h
            · cases h
              exact .unresolved hname (by rw [hplain]; rfl)
            · exact .parameter hname hplain (integerCount_eq_ok_iff.mp h)
  · intro h
    cases h with
    | absent => rfl
    | null => rfl
    | @integer value n hvalue =>
      have hnull : value ≠ .null := fun h => by rw [h, asIndex?_null] at hvalue; cases hvalue
      rw [replicaCount_some hnull, paramName?_of_asIndex? hvalue]
      exact integerCount_eq_ok_iff.mpr hvalue
    | @unresolved value name hname hresolved =>
      have hnull : value ≠ .null := fun h => by rw [h] at hname; cases hname
      simp only [replicaCount_some hnull, hname, hresolved]
    | @parameter value resolved name n hname hresolved hindex =>
      have hnull : value ≠ .null := fun h => by rw [h] at hname; cases hname
      simp only [replicaCount_some hnull, hname, hresolved, Option.getD_some]
      cases resolved with
      | null => cases hindex
      | _ => exact integerCount_eq_ok_iff.mpr hindex

/-! ### The replicas of a group -/

/-- **A group of replicas**: a server group or resource group with `properties` whose `resource_def`
names a nested template file, which is not null and holds a template, and whose count stands for so
many replicas. -/
structure GroupOf (sources : Sources) (scope group definition nested : Fields Json) (count : Nat) :
    Prop where
  kind : ∃ kind, ResourceKind.ofResource? group = some kind ∧ kind.isGroup = true
  properties : ∃ own, Fields.get? group "properties" = some (.obj own) ∧
    Fields.get? own "resource_def" = some (.obj definition) ∧
    sources.scopes.CountsTo scope (Fields.get? own "count") count
  template : ∃ name, Fields.get? definition "type" = some (.str name) ∧
    namesNestedTemplate name = true ∧ ∃ document, Fields.get? sources.files name = some document ∧
      document ≠ .null ∧ normalize sources.reader name document = .ok nested

/-- The group with a count and a nested template file is one of the replicas of this file. -/
theorem groupOf_replicaGroup {sources : Sources} {scope nested : Fields Json} {count : Json}
    {n : Nat} {file : String} (hcount : sources.scopes.CountsTo scope (some count) n)
    (hfile : namesNestedTemplate file = true)
    (hnested : sources.nested? file = .ok (some nested)) :
    GroupOf sources scope (replicaGroup count file) [("type", .str file)] nested n :=
  ⟨⟨.resourceGroup, ResourceKind.ofName?_name .resourceGroup, rfl⟩, ⟨_, rfl, rfl, hcount⟩,
    ⟨file, rfl, hfile, Sources.nested?_eq_some_iff.mp hnested⟩⟩

/-- What a group injects into its nested template for one replica. -/
def replicaParent (scopes : Scopes) (here : Position) (resources scope definition : Fields Json)
    (cursor : Nat) : Fields Json :=
  (⟨scopes, here.stack, some cursor⟩ : Context).injected (propertiesOf definition) (some scope)
    resources

/-- Where the nested template of a group is resolved for a replica: one level deeper, on the same
stack, under the cursor of the replica. -/
def Position.replica (here : Position) (cursor : Nat) : Position :=
  { here with cursor := some cursor, depth := here.depth + 1 }

/-- The resolution of the nested template of a group for one replica. -/
def replicaResolution (sources : Sources) (here : Position)
    (resources scope definition nested : Fields Json) (cursor : Nat) :
    Except TemplateError (Fields Json) :=
  (walkTemplate sources nested
      (some (replicaParent sources.scopes here resources scope definition cursor))).outcome
    (here.replica cursor)

/-- One replica is what the nested template gives under its cursor. -/
theorem Level.replica_outcome (level : Level) (nested properties scope : Fields Json)
    (cursor : Nat) (here : Position) :
    (level.replica nested properties scope cursor).outcome here =
      replicaOf? cursor <$> (level.deeper.template nested (some ((⟨level.sources.scopes, here.stack,
          some cursor⟩ : Context).injected properties (some scope) level.resources))).outcome
        { here with cursor := some cursor } := by
  unfold Level.replica Level.context
  rw [Walk.outcome_withCursor, Walk.outcome_bind_of_eq rfl, Walk.outcome_look, ← Walk.outcome_map,
    map_eq_pure_bind]
  rfl

/-- **The loop over the replicas** is a traversal of their numbers, all at one position. -/
theorem Level.replicas_outcome {level : Level} {nested properties scope : Fields Json}
    {here : Position}
    (hreplica : ∀ cursor, (level.replica nested properties scope cursor).Restoring)
    (hne : here.stack.frames ≠ []) (count cursor : Nat) (done : Fields Json) :
    (level.replicas nested properties scope count cursor done).outcome here =
      (fun found => Fields.extend done found.reduceOption) <$>
        (List.range' cursor count).mapM fun i =>
          (level.replica nested properties scope i).outcome here := by
  -- Each replica comes back, so the next one starts where it did; what is done and the number of
  -- the next replica change.
  induction count generalizing cursor done with
  | zero => rfl
  | succ count ih =>
    unfold Level.replicas
    rw [Walk.outcome_bind (hreplica cursor) hne, List.range'_succ, List.mapM_cons]
    cases (level.replica nested properties scope cursor).outcome here with
    | error e => rfl
    | ok replica =>
      show (level.replicas nested properties scope count (cursor + 1) _).outcome here = _
      rw [ih]
      cases (List.range' (cursor + 1) count).mapM fun i =>
        (level.replica nested properties scope i).outcome here with
      | error e => rfl
      | ok found =>
        show Except.ok (Fields.extend (Fields.extend done replica.toList) found.reduceOption) =
          Except.ok (Fields.extend done (replica :: found).reduceOption)
        rw [← Fields.extend_append]
        cases replica <;> rfl

/-- **A group is the list of its replicas**: inside a template and below the depth limit, a group
resolves its nested template once for each replica, and binds what this gives. -/
theorem walkResource_outcome_of_group {sources : Sources} {here : Position}
    {resources scope group definition nested : Fields Json} {count : Nat}
    (h : GroupOf sources scope group definition nested count) (hne : here.stack.frames ≠ [])
    (hdepth : here.depth < depthLimit) :
    (walkResource sources resources group scope).outcome here =
      (fun found => Json.obj (Fields.extend [] found.reduceOption)) <$>
        (List.range count).mapM fun i =>
          replicaOf? i <$> replicaResolution sources here resources scope definition nested i := by
  obtain ⟨⟨kind, hkind, hgroup⟩, ⟨own, hown, hdefinition, hcount⟩,
    ⟨name, hname, hyaml, hdocument⟩⟩ := h
  have hnested : sources.nested? name = .ok (some nested) :=
    Sources.nested?_eq_some_iff.mpr hdocument
  have hexpandable : expandable? group = some own := by
    simp [expandable?, hown, Json.asObj?, typeOf_of_ofResource? hkind, hgroup, Fields.has,
      hdefinition]
  have hdefinition? : Level.definition? own = some (name, propertiesOf definition) := by
    simp [Level.definition?, hdefinition, hname, hyaml, Json.asObj?, Json.asStr?]
  have hreplica : ∀ i, ((Level.whole sources resources).replica nested (propertiesOf definition)
      scope i).Restoring := fun i =>
    Level.replica_restoring (walkTemplate_restoring sources) nested (propertiesOf definition) scope
      i
  let there : Position := { here with depth := here.depth + 1 }
  have hthere : there.stack.frames ≠ [] := hne
  have hloop := Level.replicas_outcome hreplica hthere count 0 []
  have hcount' := Scopes.replicaCount_eq_ok_iff.mpr hcount
  -- The count and the template are looked up first; neither moves the position.
  rw [walkResource_eq, Walk.outcome_descend hdepth]
  simp only [Level.resource, hexpandable, Level.expandGroup, hdefinition?, Level.whole] at hloop ⊢
  rw [Walk.outcome_bind_of_eq rfl, Walk.outcome_ofExcept, hcount']
  show Walk.outcome _ _ = _
  rw [Walk.outcome_bind_of_eq rfl]
  show (Walk.ofExcept (sources.nested? name)).outcome _ >>= _ = _
  rw [Walk.outcome_ofExcept, hnested]
  show Walk.outcome (Json.obj <$> _) _ = _
  rw [Walk.outcome_map, hloop, List.range_eq_range']
  simp only [Level.replica_outcome]
  rw [← comp_map]
  rfl

/-! ### The replica law -/

/-- The entry of a replica: the first entry that its nested template gives, under its name with the
number of the replica. Six of its properties are kept, and all else that it has. -/
def replicaEntry (cursor : Nat) (first : String × Json) : String × Json :=
  let resource := first.2.asObj?.getD []
  let kept := (propertiesOf resource).filter fun property =>
    ["name", "flavor", "image", "metadata", "availability_zone", "scheduler_hints"].contains
      property.1
  (first.1 ++ "_" ++ toString cursor, .obj (Fields.insert resource "properties" (.obj kept)))

/-- The entries of so many replicas, in order: one for each replica whose nested template gives
anything. -/
def replicaEntries (resolved : Nat → Fields Json) (count : Nat) : Fields Json :=
  (List.range count).filterMap fun i => (resolved i).head?.map (replicaEntry i)

/-- A nested template that gives anything gives a replica, since all its entries are mappings. -/
theorem replicaOf?_of_interpreted {resolved : Fields Json}
    (h : ∀ entry ∈ resolved, (ResourceKind.ofValue? entry.2).isSome = true) (cursor : Nat) :
    replicaOf? cursor resolved = resolved.head?.map (replicaEntry cursor) := by
  cases resolved with
  | nil => rfl
  | cons first rest =>
    obtain ⟨name, value⟩ := first
    cases value with
    | obj fields => rfl
    | _ => cases h _ List.mem_cons_self

/-- **Replicas never share a name**, whatever their nested templates call them. -/
theorem nodup_names_replicaEntries (resolved : Nat → Fields Json) (count : Nat) :
    (Fields.names (replicaEntries resolved count)).Nodup := by
  rw [replicaEntries, Fields.names, List.map_filterMap]
  refine List.Nodup.filterMap ?_ List.nodup_range
  -- The number of a replica is read off its name, whatever the name in front of it is.
  intro i j name hi hj
  rw [Option.map_map] at hi hj
  obtain ⟨first, -, hfirst⟩ := Option.map_eq_some_iff.mp hi
  obtain ⟨second, -, hsecond⟩ := Option.map_eq_some_iff.mp hj
  have hname : replicaName first.1 i = replicaName second.1 j := hfirst.trans hsecond.symm
  exact (replicaName_inj.mp hname).2

/-- Fewer replicas are the first of more. -/
theorem replicaEntries_prefix (resolved : Nat → Fields Json) {fewer more : Nat}
    (h : fewer ≤ more) : replicaEntries resolved fewer <+: replicaEntries resolved more := by
  refine List.IsPrefix.filterMap _ ?_
  rw [← Nat.min_eq_left h, ← List.take_range]
  exact List.take_prefix fewer _

/-- **When a group is resolved**, and into which entries. -/
theorem walkResource_eq_ok_iff_of_group {sources : Sources} {here : Position}
    {resources scope group definition nested : Fields Json} {count : Nat}
    (h : GroupOf sources scope group definition nested count) (hne : here.stack.frames ≠ [])
    (hdepth : here.depth < depthLimit) {output : Json} :
    (walkResource sources resources group scope).outcome here = .ok output ↔
      ∃ resolved : Nat → Fields Json,
        (∀ i < count,
          replicaResolution sources here resources scope definition nested i = .ok (resolved i)) ∧
          output = .obj (replicaEntries resolved count) := by
  -- Binding the replicas loses none, since their names are distinct.
  have hentries : ∀ resolved : Nat → Fields Json,
      (∀ i < count,
        replicaResolution sources here resources scope definition nested i = .ok (resolved i)) →
      Fields.extend [] ((List.range count).map fun i => replicaOf? i (resolved i)).reduceOption =
        replicaEntries resolved count := by
    intro resolved hresolved
    have hreduce : ((List.range count).map fun i => replicaOf? i (resolved i)).reduceOption =
        replicaEntries resolved count := by
      rw [List.reduceOption, List.filterMap_map, replicaEntries]
      refine List.filterMap_congr fun i hi => ?_
      exact replicaOf?_of_interpreted
        (walkTemplate_interpreted (hresolved i (List.mem_range.mp hi))) i
    rw [hreduce]
    exact Fields.extend_of_nodup (nodup_names_replicaEntries resolved count)
  rw [walkResource_outcome_of_group h hne hdepth, map_eq_ok_iff]
  constructor
  · rintro ⟨found, hfound, rfl⟩
    obtain ⟨give, hgive, rfl⟩ := mapM_eq_ok_iff.mp hfound
    have hresolved : ∀ i < count, ∃ resolved,
        replicaResolution sources here resources scope definition nested i = .ok resolved ∧
          replicaOf? i resolved = give i :=
      fun i hi => map_eq_ok_iff.mp (hgive i (List.mem_range.mpr hi))
    choose! resolved hresolved using hresolved
    refine ⟨resolved, fun i hi => (hresolved i hi).1, ?_⟩
    rw [← hentries resolved fun i hi => (hresolved i hi).1]
    have hgive : (List.range count).map give =
        (List.range count).map fun i => replicaOf? i (resolved i) :=
      List.map_congr_left fun i hi => (hresolved i (List.mem_range.mp hi)).2.symm
    rw [hgive]
  · rintro ⟨resolved, hresolved, rfl⟩
    refine ⟨_, mapM_eq_ok (g := fun i => replicaOf? i (resolved i)) fun i hi => ?_, ?_⟩
    · rw [hresolved i (List.mem_range.mp hi)]
      rfl
    · rw [hentries resolved hresolved]

/-- **A group expands into its replicas.** Inside a template and below the depth limit, a group
whose file is not null is resolved iff its nested template is under the cursor of each replica. The
result is one entry for each replica whose nested template gives anything, in order and under
distinct names, and the replicas of a smaller count are the first of these. -/
theorem group_expands_into_replicas {sources : Sources} {here : Position}
    {resources scope group definition nested : Fields Json} {count : Nat}
    (h : GroupOf sources scope group definition nested count) (hne : here.stack.frames ≠ [])
    (hdepth : here.depth < depthLimit) :
    ((∃ output, (walkResource sources resources group scope).outcome here = .ok output) ↔
      ∀ i < count, ∃ resolved,
        replicaResolution sources here resources scope definition nested i = .ok resolved) ∧
    ∀ output, (walkResource sources resources group scope).outcome here = .ok output →
      ∃ resolved : Nat → Fields Json,
        (∀ i < count,
          replicaResolution sources here resources scope definition nested i = .ok (resolved i)) ∧
        output = .obj (replicaEntries resolved count) ∧
        (Fields.names (replicaEntries resolved count)).Nodup ∧
        ∀ smaller fewer, GroupOf sources scope smaller definition nested fewer → fewer ≤ count →
          (walkResource sources resources smaller scope).outcome here =
              .ok (.obj (replicaEntries resolved fewer)) ∧
            replicaEntries resolved fewer <+: replicaEntries resolved count := by
  refine ⟨⟨?_, ?_⟩, ?_⟩
  · rintro ⟨output, houtput⟩ i hi
    obtain ⟨resolved, hresolved, -⟩ := (walkResource_eq_ok_iff_of_group h hne hdepth).mp houtput
    exact ⟨resolved i, hresolved i hi⟩
  · intro hall
    choose! resolved hresolved using hall
    exact ⟨_, (walkResource_eq_ok_iff_of_group h hne hdepth).mpr ⟨resolved, hresolved, rfl⟩⟩
  · intro output houtput
    obtain ⟨resolved, hresolved, rfl⟩ := (walkResource_eq_ok_iff_of_group h hne hdepth).mp houtput
    refine ⟨resolved, hresolved, rfl, nodup_names_replicaEntries resolved count, ?_⟩
    intro smaller fewer hsmaller hle
    refine ⟨?_, replicaEntries_prefix resolved hle⟩
    exact (walkResource_eq_ok_iff_of_group hsmaller hne hdepth).mpr
      ⟨resolved, fun i hi => hresolved i (Nat.lt_of_lt_of_le hi hle), rfl⟩

/-- A server with a name. -/
def namedServer (name : String) : Fields Json :=
  [("type", .str ResourceKind.server.name), ("properties", .obj [("name", .str name)])]

/-- A server with a name, and with data of its user that no replica keeps. -/
def startedServer (name : String) : Fields Json :=
  [("type", .str ResourceKind.server.name),
    ("properties", .obj [("name", .str name), ("user_data", .str "start"),
      ("image", .str "centos")]),
    ("depends_on", .str "net")]

/-- Two replicas, since the parameter of the count holds the text of a number. They keep the name
and the image of the server, and what it depends on. -/
theorem group_expands_into_replicas_of_parameter :
    let count : Json := .single "get_param" (.str "n")
    let nested := templateOf [("node", .obj (startedServer "vm"))]
    let sources : Sources := ⟨Yaml.read?, [("node.yaml", .obj nested)], ⟨[], [("n", .str "2")]⟩⟩
    let group := replicaGroup count "node.yaml"
    let resources : Fields Json := [("vms", .obj group)]
    let here : Position := ⟨⟨[resources]⟩, none, 1⟩
    let replica : Json := .obj [("type", .str "OS::Nova::Server"),
      ("properties", .obj [("name", .str "vm"), ("image", .str "centos")]),
      ("depends_on", .str "net")]
    GroupOf sources [] group [("type", .str "node.yaml")] nested 2 ∧
      here.stack.frames ≠ [] ∧ here.depth < depthLimit ∧
      (walkResource sources resources group []).outcome here =
        .ok (.obj [("node_0", replica), ("node_1", replica)]) := by
  have hreplica : ∀ i < 2, replicaResolution
      ⟨Yaml.read?, [("node.yaml", .obj (templateOf [("node", .obj (startedServer "vm"))]))],
        ⟨[], [("n", .str "2")]⟩⟩
      ⟨⟨[[("vms", .obj (replicaGroup (.single "get_param" (.str "n")) "node.yaml"))]]⟩, none, 1⟩
      [("vms", .obj (replicaGroup (.single "get_param" (.str "n")) "node.yaml"))] []
      [("type", .str "node.yaml")] (templateOf [("node", .obj (startedServer "vm"))]) i =
        .ok [("node", .obj (startedServer "vm"))] := by
    decide +kernel
  intro count nested sources group resources here replica
  have hgroup : GroupOf sources [] group [("type", .str "node.yaml")] nested 2 := by
    have hname : paramName? count = some "n" := by cbv
    have hvalue : sources.scopes.resolvePlain "n" (some []) = some (.str "2") := by cbv
    exact groupOf_replicaGroup (.parameter hname hvalue (by decide +kernel)) (by cbv) (by cbv)
  have hne : here.stack.frames ≠ [] := List.cons_ne_nil _ _
  have hdepth : here.depth < depthLimit := by decide
  refine ⟨hgroup, hne, hdepth, ?_⟩
  obtain ⟨hresolves, hexpands⟩ := group_expands_into_replicas hgroup hne hdepth
  obtain ⟨output, houtput⟩ := hresolves.mpr fun i hi => ⟨_, hreplica i hi⟩
  obtain ⟨resolved, hresolved, hentries, -⟩ := hexpands output houtput
  -- Both nested templates give the server.
  have hserver : ∀ i < 2, resolved i = [("node", .obj (startedServer "vm"))] := fun i hi =>
    Except.ok.inj ((hresolved i hi).symm.trans (hreplica i hi))
  have htwo : replicaEntries resolved 2 = [replicaEntry 0 ("node", .obj (startedServer "vm")),
      replicaEntry 1 ("node", .obj (startedServer "vm"))] := by
    simp [replicaEntries, List.range_succ, hserver]
  rw [houtput, hentries, htwo]
  decide +kernel

/-- **A null file gives no replica.** It stands for the empty template, which does not resolve, and
yet a group of it is resolved, into nothing: there is no template for it. -/
theorem null_file_gives_no_replica :
    let sources : Sources := ⟨Yaml.read?, [("node.yaml", .null)], ⟨[], []⟩⟩
    let group := replicaGroup (.ofNat 1) "node.yaml"
    let resources : Fields Json := [("vms", .obj group)]
    let here : Position := ⟨⟨[resources]⟩, none, 1⟩
    let definition : Fields Json := [("type", .str "node.yaml")]
    here.stack.frames ≠ [] ∧ here.depth < depthLimit ∧
      Fields.get? sources.files "node.yaml" = some .null ∧
      normalize sources.reader "node.yaml" .null = .ok [] ∧
      sources.scopes.CountsTo [] (some (.ofNat 1)) 1 ∧
      (walkResource sources resources group []).outcome here = .ok (.obj []) ∧
      replicaResolution sources here resources [] definition [] 0 = .error .missingResources ∧
      ¬ ((∃ output, (walkResource sources resources group []).outcome here = .ok output) ↔
        ∀ i < 1, ∃ resolved,
          replicaResolution sources here resources [] definition [] i = .ok resolved) := by
  intro sources group resources here definition
  have hresource : (walkResource sources resources group []).outcome here = .ok (.obj []) := by
    decide +kernel
  have hreplica : replicaResolution sources here resources [] definition [] 0 =
      .error .missingResources := by
    decide +kernel
  refine ⟨List.cons_ne_nil _ _, by decide, rfl, rfl, .integer (by decide), hresource, hreplica,
    fun h => ?_⟩
  obtain ⟨resolved, hresolved⟩ := h.mp ⟨_, hresource⟩ 0 Nat.one_pos
  cases hreplica.symm.trans hresolved

end HeatPlacement.Heat
