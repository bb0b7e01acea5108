import HeatPlacement.Proofs.Groups.Servers

/-!
# Collisions of replicas

The replicas of a group stand beside the other servers of the template under a name that the nested
template chooses. Two groups of one nested template choose the same names, and the later replicas
replace the earlier ones.

* `GroupsOfServers`: a template whose groups have one server each in their nested templates
* `Apart`: no two servers of the result have one name
* `servers_kept_iff`: **when every server is kept**
* `servers_lost_between_groups`: two groups of one nested template
-/

namespace HeatPlacement.Heat

/-! ### The replicas of a group of servers -/

/-- The kind of a replica is the kind of its resource. -/
theorem ofValue?_replicaEntry (cursor : Nat) (name : String) (resource : Fields Json) :
    ResourceKind.ofValue? (replicaEntry cursor (name, .obj resource)).2 =
      ResourceKind.ofResource? resource :=
  ofResource?_insert_properties resource (.obj (keptProperties resource))

/-- All replicas of servers are hoisted. -/
theorem hoisted_serverReplicas {node : String} {servers : Nat → Fields Json} {count : Nat}
    (hservers : ∀ i < count, ResourceKind.ofResource? (servers i) = some .server)
    (name : String) :
    hoisted name (.obj (serverReplicas node servers count)) =
      serverReplicas node servers count := by
  have hkind : ∀ entry ∈ serverReplicas node servers count,
      ResourceKind.ofValue? entry.2 = some .server := by
    intro entry hentry
    obtain ⟨i, hi, rfl⟩ := List.mem_map.mp hentry
    rw [ofValue?_replicaEntry]
    exact hservers i (List.mem_range.mp hi)
  -- The map of the replicas is no resource itself: none of them is called `type`.
  have htype : Fields.get? (serverReplicas node servers count) "type" = none := by
    rw [Fields.get?_eq_none_iff, names_serverReplicas, List.mem_map]
    rintro ⟨i, -, hi⟩
    exact replicaName_ne_type node i hi
  have hnone : ResourceKind.ofResource? (serverReplicas node servers count) = none := by
    rw [ResourceKind.ofResource?, htype]
    rfl
  have hobjects : ∀ entry ∈ serverReplicas node servers count, entry.2.asObj?.isSome = true := by
    intro entry hentry
    obtain ⟨i, -, rfl⟩ := List.mem_map.mp hentry
    rfl
  simp only [hoisted, hnone, Option.isSome_none, Bool.false_eq_true, if_false]
  rw [List.takeWhile_eq_self_iff.mpr hobjects, List.filter_eq_self]
  intro entry hentry
  rw [hkind entry hentry]
  rfl

/-- A group of a nested template with a single server gives its replicas. -/
theorem walkResource_of_singleServer {sources : Sources} {here : Position}
    {resources scope group definition nested server : Fields Json} {node : String} {count : Nat}
    {output : Json} (h : GroupOf sources scope group definition nested count)
    (hmembers : resourcesOf? nested = some [(node, .obj server)])
    (hserver : ResourceKind.ofResource? server = some .server) (hne : here.stack.frames ≠ [])
    (hok : (walkResource sources resources group scope).outcome here = .ok output) :
    ∃ servers, output = .obj (serverReplicas node servers count) ∧
      ∀ i < count, ResourceKind.ofResource? (servers i) = some .server := by
  have hone : OneServer [] server [] := ⟨hserver, fun _ hmember => absurd hmember List.not_mem_nil⟩
  obtain ⟨servers, first, last, hreplica, hleads⟩ :=
    walkResource_of_oneServer h hmembers hone hne hok
  refine ⟨servers, hleads.mpr fun i hi => ?_, fun i hi => (hreplica i hi).2.1⟩
  obtain ⟨-, -, hfirst, hlast⟩ := hreplica i hi
  have hnofirst : first i = [] := (Except.ok.inj hfirst).symm
  have hnolast : last i = [] := (Except.ok.inj hlast).symm
  rw [hnofirst, hnolast]
  exact ⟨fun entry hentry => absurd hentry (by simp), fun value hvalue => absurd hvalue (by simp)⟩

/-! ### Names in the result -/

/-- **Groups of servers**: each resource group of a template has so many replicas, and its nested
template has a single resource, a server with the given name. -/
structure GroupsOfServers (sources : Sources) (members : Fields Json) (count : String → Nat)
    (node : String → String) : Prop where
  group : ∀ name fields, (name, Json.obj fields) ∈ members →
    ResourceKind.ofResource? fields = some .resourceGroup →
      ∃ definition nested server,
        GroupOf sources (propertiesOf fields) fields definition nested (count name) ∧
          resourcesOf? nested = some [(node name, .obj server)] ∧
          ResourceKind.ofResource? server = some .server

/-- The names that a resource gives to the result: a server its own, and a group those of its
replicas. -/
def givenNames (count : String → Nat) (node : String → String) (member : String × Json) :
    List String :=
  match ResourceKind.ofValue? member.2 with
  | some .server => [member.1]
  | some .resourceGroup => (List.range (count member.1)).map (replicaName (node member.1))
  | some .serverGroup | none => []

/-- A group stays one when it is resolved with its own properties. -/
theorem GroupOf.insert_properties {sources : Sources} {group definition nested : Fields Json}
    {count : Nat} (h : GroupOf sources (propertiesOf group) group definition nested count) :
    GroupOf sources (propertiesOf group)
      (Fields.insert group "properties" (.obj (propertiesOf group))) definition nested count := by
  obtain ⟨hkind, ⟨own, hown, hdefinition, hcount⟩, htemplate⟩ := h
  have hproperties : propertiesOf group = own := by
    simp [propertiesOf, hown, Json.asObj?]
  refine ⟨?_, ⟨propertiesOf group, Fields.get?_insert_self _ _ _, ?_⟩, htemplate⟩
  · rw [ofResource?_insert_properties]
    exact hkind
  · rw [hproperties] at hcount ⊢
    exact ⟨hdefinition, hcount⟩

/-- **What a resource at the top gives** stands under these names. -/
theorem names_givenBy {sources : Sources} {members entries : Fields Json} {count : String → Nat}
    {node : String → String} {here : Position} {member : String × Json}
    (hgroups : GroupsOfServers sources members count node) (hne : here.stack.frames ≠ [])
    (hmember : member ∈ members)
    (h : givenBy sources members none here member = .ok entries) :
    Fields.names entries = givenNames count node member := by
  obtain ⟨name, value⟩ := member
  unfold givenNames
  cases hkind : ResourceKind.ofValue? value with
  | none =>
    rw [givenBy_of_unplaced fun kind h => by rw [hkind] at h; cases h] at h
    cases h
    rfl
  | some kind =>
    cases value with
    | obj fields =>
      cases kind with
      | server =>
        have hexpand := expandable?_of_server ((ofResource?_insert_properties fields
          (.obj (mergedProperties none fields))).trans hkind)
        obtain ⟨resolved, -, rfl, -⟩ := givenBy_of_unexpanded hkind (by simp) hexpand h
        rfl
      | serverGroup =>
        rw [givenBy_of_unplaced fun kind h =>
          ⟨(Option.some.inj (hkind.symm.trans h)).symm, rfl⟩] at h
        cases h
        rfl
      | resourceGroup =>
        obtain ⟨definition, nested, server, hgroup, hnested, hserver⟩ :=
          hgroups.group name fields hmember hkind
        rw [givenBy_of_kind hkind (by simp)] at h
        obtain ⟨output, houtput, rfl⟩ := map_eq_ok_iff.mp h
        obtain ⟨servers, rfl, hservers⟩ :=
          walkResource_of_singleServer hgroup.insert_properties hnested hserver hne houtput
        rw [hoisted_serverReplicas hservers, names_serverReplicas]
    | _ => cases hkind

/-- The names of the entries that a template gives at the top, in order. -/
theorem names_given {sources : Sources} {members entries : Fields Json} {count : String → Nat}
    {node : String → String} {here : Position}
    (hgroups : GroupsOfServers sources members count node) (hne : here.stack.frames ≠ [])
    (h : given sources members none here members = .ok entries) :
    Fields.names entries = members.flatMap (givenNames count node) := by
  obtain ⟨give, hgive, rfl⟩ := given_eq_ok_iff.mp h
  rw [Fields.names, List.map_flatMap]
  exact List.flatMap_congr fun member hmember =>
    names_givenBy hgroups hne hmember (hgive member hmember)

/-! ### Servers that are kept -/

/-- The resources of a kind. -/
def ofKind (kind : ResourceKind) (members : Fields Json) : Fields Json :=
  members.filter fun member => ResourceKind.ofValue? member.2 = some kind

theorem mem_ofKind {kind : ResourceKind} {members : Fields Json} {member : String × Json} :
    member ∈ ofKind kind members ↔
      member ∈ members ∧ ResourceKind.ofValue? member.2 = some kind := by
  rw [ofKind, List.mem_filter, decide_eq_true_iff]

/-- The number of servers at the top and of all replicas. -/
def serverCount (members : Fields Json) (count : String → Nat) : Nat :=
  (ofKind .server members).length + ((ofKind .resourceGroup members).map fun g => count g.1).sum

/-- **No two servers have one name**: groups with replicas take different servers, and no server at
the top is named like a replica. -/
structure Apart (members : Fields Json) (count : String → Nat) (node : String → String) : Prop where
  groups : ∀ a ∈ ofKind .resourceGroup members, ∀ b ∈ ofKind .resourceGroup members,
    a.1 ≠ b.1 → 0 < count a.1 → 0 < count b.1 → node a.1 ≠ node b.1
  servers : ∀ a ∈ ofKind .server members, ∀ b ∈ ofKind .resourceGroup members,
    ∀ i < count b.1, a.1 ≠ replicaName (node b.1) i

/-- As many names are given as there are servers. -/
theorem length_flatMap_givenNames (count : String → Nat) (node : String → String)
    (members : Fields Json) :
    (members.flatMap (givenNames count node)).length = serverCount members count := by
  induction members with
  | nil => rfl
  | cons member rest ih =>
    rw [List.flatMap_cons, List.length_append, ih]
    unfold givenNames serverCount ofKind
    cases hkind : ResourceKind.ofValue? member.2 with
    | none => simp [hkind]
    | some kind =>
      cases kind <;> simp [hkind] <;> omega

section Names

variable {count : String → Nat} {node : String → String}

theorem mem_givenNames {member : String × Json} {name : String} :
    name ∈ givenNames count node member ↔
      (ResourceKind.ofValue? member.2 = some .server ∧ name = member.1) ∨
        (ResourceKind.ofValue? member.2 = some .resourceGroup ∧
          ∃ i < count member.1, name = replicaName (node member.1) i) := by
  unfold givenNames
  cases hkind : ResourceKind.ofValue? member.2 with
  | none => simp
  | some kind => cases kind <;> simp [eq_comm]

/-- A resource gives no name twice. -/
theorem nodup_givenNames (member : String × Json) : (givenNames count node member).Nodup := by
  unfold givenNames
  split
  · exact List.nodup_singleton _
  · refine List.Nodup.map (fun i j h => ?_) List.nodup_range
    exact (replicaName_inj.mp h).2
  · exact List.nodup_nil
  · exact List.nodup_nil

/-- Resources with different names give different names if the servers are apart. -/
theorem Apart.disjoint {members : Fields Json} (h : Apart members count node) {a b : String × Json}
    (ha : a ∈ members) (hb : b ∈ members) (hne : a.1 ≠ b.1) :
    List.Disjoint (givenNames count node a) (givenNames count node b) := by
  intro name hnamea hnameb
  rcases mem_givenNames.mp hnamea with ⟨hkinda, rfl⟩ | ⟨hkinda, i, hi, rfl⟩
  · rcases mem_givenNames.mp hnameb with ⟨-, hname⟩ | ⟨hkindb, j, hj, hname⟩
    · exact hne hname
    · exact h.servers a (mem_ofKind.mpr ⟨ha, hkinda⟩) b (mem_ofKind.mpr ⟨hb, hkindb⟩) j hj hname
  · rcases mem_givenNames.mp hnameb with ⟨hkindb, hname⟩ | ⟨hkindb, j, hj, hname⟩
    · exact h.servers b (mem_ofKind.mpr ⟨hb, hkindb⟩) a (mem_ofKind.mpr ⟨ha, hkinda⟩) i hi
        hname.symm
    · exact h.groups a (mem_ofKind.mpr ⟨ha, hkinda⟩) b (mem_ofKind.mpr ⟨hb, hkindb⟩) hne
        (Nat.zero_lt_of_lt hi) (Nat.zero_lt_of_lt hj) (replicaName_inj.mp hname).1

/-- **Names are given once** iff the servers are apart. -/
theorem nodup_flatMap_givenNames_iff {members : Fields Json}
    (hnames : (Fields.names members).Nodup) :
    (members.flatMap (givenNames count node)).Nodup ↔ Apart members count node := by
  rw [List.nodup_flatMap]
  constructor
  · rintro ⟨-, hpairwise⟩
    have hsymm : Std.Symm (Function.onFun List.Disjoint (givenNames count node)) :=
      ⟨fun _ _ h => List.Disjoint.symm h⟩
    -- Disjointness is symmetric, so it holds of any two resources and not only in order.
    have hdisjoint : ∀ a ∈ members, ∀ b ∈ members, a ≠ b →
        List.Disjoint (givenNames count node a) (givenNames count node b) :=
      fun a ha b hb hne => hpairwise.forall ha hb hne
    refine ⟨fun a ha b hb hne hcounta hcountb hnode => ?_, fun a ha b hb i hi hname => ?_⟩
    · obtain ⟨ha, hkinda⟩ := mem_ofKind.mp ha
      obtain ⟨hb, hkindb⟩ := mem_ofKind.mp hb
      have hnamea : replicaName (node b.1) 0 ∈ givenNames count node a :=
        mem_givenNames.mpr (.inr ⟨hkinda, 0, hcounta, by rw [hnode]⟩)
      have hnameb : replicaName (node b.1) 0 ∈ givenNames count node b :=
        mem_givenNames.mpr (.inr ⟨hkindb, 0, hcountb, rfl⟩)
      exact hdisjoint a ha b hb (fun h => hne (congrArg Prod.fst h)) hnamea hnameb
    · obtain ⟨ha, hkinda⟩ := mem_ofKind.mp ha
      obtain ⟨hb, hkindb⟩ := mem_ofKind.mp hb
      have hab : a ≠ b := by
        rintro rfl
        rw [hkinda] at hkindb
        cases hkindb
      exact hdisjoint a ha b hb hab (mem_givenNames.mpr (.inl ⟨hkinda, rfl⟩))
        (mem_givenNames.mpr (.inr ⟨hkindb, i, hi, hname⟩))
  · intro hapart
    refine ⟨fun member _ => nodup_givenNames member, ?_⟩
    have hne : members.Pairwise fun a b => a.1 ≠ b.1 := List.pairwise_map.mp hnames
    exact hne.imp_of_mem fun ha hb hab => hapart.disjoint ha hb hab

end Names

/-- **When every server is kept.** Each group of a template has a nested template with a single
server. Resolved at the top, the template gives as many entries as there are servers and replicas
iff no two of them have one name. -/
theorem servers_kept_iff {sources : Sources} {template members result : Fields Json}
    {count : String → Nat} {node : String → String} {here : Position}
    (hmembers : resourcesOf? template = some members) (hnames : (Fields.names members).Nodup)
    (hgroups : GroupsOfServers sources members count node)
    (hok : (walkTemplate sources template none).outcome here = .ok result) :
    result.length = serverCount members count ↔ Apart members count node := by
  obtain ⟨-, entries, hentries, rfl⟩ := (walkTemplate_eq_ok_iff hmembers).mp hok
  have hgiven := names_given hgroups (here.inside_ne_nil members) hentries
  have hlength : entries.length = serverCount members count := by
    rw [← length_flatMap_givenNames count node, ← hgiven, Fields.names, List.length_map]
  rw [← hlength, Fields.length_extend_nil_eq_iff, hgiven]
  exact nodup_flatMap_givenNames_iff hnames

/-- A group of one replica of a file that holds a template with one server. -/
theorem groupOf_singleServer {sources : Sources} {scope : Fields Json} {file node : String}
    (hfile : namesNestedTemplate file = true)
    (hnested : sources.nested? file = .ok (some (templateOf [(node, .obj (namedServer "vm"))]))) :
    ∃ definition nested server,
      GroupOf sources scope (replicaGroup (.ofNat 1) file) definition nested 1 ∧
        resourcesOf? nested = some [(node, .obj server)] ∧
        ResourceKind.ofResource? server = some .server :=
  ⟨_, _, namedServer "vm", groupOf_replicaGroup (.integer rfl) hfile hnested, rfl,
    ResourceKind.ofName?_name .server⟩

/-- Two groups of different nested templates beside a server: all three servers are kept. -/
theorem servers_kept_between_templates :
    let nested (node : String) := templateOf [(node, .obj (namedServer "vm"))]
    let sources : Sources :=
      ⟨Yaml.read?, [("a.yaml", .obj (nested "a")), ("b.yaml", .obj (nested "b"))], ⟨[], []⟩⟩
    let members : Fields Json := [("a", .obj (replicaGroup (.ofNat 1) "a.yaml")),
      ("b", .obj (replicaGroup (.ofNat 1) "b.yaml")), ("c", .obj (namedServer "vm"))]
    resourcesOf? (templateOf members) = some members ∧ (Fields.names members).Nodup ∧
      GroupsOfServers sources members (fun _ => 1) id ∧ Apart members (fun _ => 1) id ∧
      ∃ result, (walkTemplate sources (templateOf members) none).outcome .start = .ok result ∧
        result.length = serverCount members fun _ => 1 := by
  have hresult : ∃ result, (walkTemplate
      ⟨Yaml.read?, [("a.yaml", .obj (templateOf [("a", .obj (namedServer "vm"))])),
        ("b.yaml", .obj (templateOf [("b", .obj (namedServer "vm"))]))], ⟨[], []⟩⟩
      (templateOf [("a", .obj (replicaGroup (.ofNat 1) "a.yaml")),
        ("b", .obj (replicaGroup (.ofNat 1) "b.yaml")), ("c", .obj (namedServer "vm"))])
      none).outcome .start = .ok result :=
    ⟨[("a_0", .obj (namedServer "vm")), ("b_0", .obj (namedServer "vm")),
      ("c", .obj (namedServer "vm"))], by decide +kernel⟩
  intro nested sources members
  have hnodup : (Fields.names members).Nodup := by
    show ["a", "b", "c"].Nodup
    decide
  have hgroups : GroupsOfServers sources members (fun _ => 1) id := by
    refine ⟨fun name fields hmember hkind => ?_⟩
    rcases List.mem_cons.mp hmember with h | hmember
    · cases h
      exact groupOf_singleServer (by cbv) (by cbv)
    rcases List.mem_cons.mp hmember with h | hmember
    · cases h
      exact groupOf_singleServer (by cbv) (by cbv)
    · cases List.mem_singleton.mp hmember
      cases (ResourceKind.ofName?_name .server).symm.trans hkind
  have hapart : Apart members (fun _ => 1) id := by
    rw [← nodup_flatMap_givenNames_iff hnodup]
    have hgiven : members.flatMap (givenNames (fun _ => 1) id) = ["a_0", "b_0", "c"] := by cbv
    rw [hgiven]
    decide
  obtain ⟨result, hok⟩ := hresult
  exact ⟨rfl, hnodup, hgroups, hapart, result, hok,
    (servers_kept_iff rfl hnodup hgroups hok).mpr hapart⟩

/-- Two groups of one nested template: the server of the first is lost. -/
theorem servers_lost_between_groups :
    let sources : Sources :=
      ⟨Yaml.read?, [("node.yaml", .obj (templateOf [("node", .obj (namedServer "vm"))]))], ⟨[], []⟩⟩
    let group := replicaGroup (.ofNat 1) "node.yaml"
    let members : Fields Json := [("a", .obj group), ("b", .obj group)]
    resourcesOf? (templateOf members) = some members ∧ (Fields.names members).Nodup ∧
      GroupsOfServers sources members (fun _ => 1) (fun _ => "node") ∧
      (walkTemplate sources (templateOf members) none).outcome .start =
        .ok [("node_0", .obj (namedServer "vm"))] ∧
      serverCount members (fun _ => 1) = 2 := by
  have hresult : (walkTemplate
      ⟨Yaml.read?, [("node.yaml", .obj (templateOf [("node", .obj (namedServer "vm"))]))], ⟨[], []⟩⟩
      (templateOf [("a", .obj (replicaGroup (.ofNat 1) "node.yaml")),
        ("b", .obj (replicaGroup (.ofNat 1) "node.yaml"))]) none).outcome .start =
          .ok [("node_0", .obj (namedServer "vm"))] := by
    decide +kernel
  intro sources group members
  refine ⟨rfl, ?_, ⟨fun name fields hmember hkind => ?_⟩, hresult, by cbv⟩
  · show ["a", "b"].Nodup
    decide
  · rcases List.mem_cons.mp hmember with h | hmember
    · cases h
      exact groupOf_singleServer (by cbv) (by cbv)
    · cases List.mem_singleton.mp hmember
      exact groupOf_singleServer (by cbv) (by cbv)

end HeatPlacement.Heat
