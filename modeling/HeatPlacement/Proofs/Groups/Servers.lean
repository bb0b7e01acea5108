import HeatPlacement.Proofs.Groups.Expansion
import HeatPlacement.Proofs.Parameters.Merging

/-!
# Replicas of servers

A replica is the first entry that its nested template gives. Server groups of a nested template are
resolved like servers, so that it depends on the order of the resources whether this is the server.

* `OneServer`: a nested template with one server among server groups
* `Leads`: the server's own entry makes the replica
* `replicas_are_servers_iff`: **when the replicas are the servers** of the nested template
* `replicas_are_server_groups`: a server group in front of the server takes its place
-/

namespace HeatPlacement.Heat

/-! ### The leading entry -/

/-- The entry of a server makes the replica: no entry under another name stands in front of all, and
no later entry under the server's name makes another replica. -/
structure Leads (cursor : Nat) (first : Fields Json) (server : String × Json)
    (last : Fields Json) : Prop where
  foremost : ∀ entry, first.head? = some entry → entry.1 = server.1
  kept : ∀ value, Fields.get? last.reverse server.1 = some value →
    replicaEntry cursor (server.1, value) = replicaEntry cursor server

/-- A last value makes the replica of the server iff there is none or it makes the same. -/
theorem replicaEntry_getD_iff {cursor : Nat} {name : String} {value : Json} {last : Option Json} :
    replicaEntry cursor (name, last.getD value) = replicaEntry cursor (name, value) ↔
      ∀ later, last = some later →
        replicaEntry cursor (name, later) = replicaEntry cursor (name, value) := by
  cases last with
  | none => simp
  | some later => simp

/-- **The first entry that is bound** makes the replica of the server iff the server leads. -/
theorem head?_replica_iff {cursor : Nat} {first last : Fields Json} {server : String × Json} :
    (Fields.extend [] (first ++ server :: last)).head?.map (replicaEntry cursor) =
        some (replicaEntry cursor server) ↔
      Leads cursor first server last := by
  obtain ⟨name, value⟩ := server
  rw [Fields.head?_extend_nil, Option.map_map]
  cases first with
  -- The server's entry is the first one; a later one under its name takes its value.
  | nil =>
    show some (replicaEntry cursor (name, (Fields.get? last.reverse name).getD value)) = _ ↔ _
    rw [Option.some_inj, replicaEntry_getD_iff]
    constructor
    · intro h
      exact ⟨fun entry hentry => absurd hentry (by simp), h⟩
    · intro h
      exact h.kept
  -- Another entry is the first one. It makes the replica of the server only under the server's
  -- name, and then the server has replaced its value.
  | cons entry rest =>
    obtain ⟨key, old⟩ := entry
    show some (replicaEntry cursor
      (key, (Fields.get? (rest ++ (name, value) :: last).reverse key).getD old)) = _ ↔ _
    have hname : ∀ later, replicaEntry cursor (key, later) = replicaEntry cursor (name, value) →
        key = name := by
      intro later h
      have hreplica : replicaName key cursor = replicaName name cursor := congrArg Prod.fst h
      exact (replicaName_inj.mp hreplica).1
    have hlast : Fields.get? (rest ++ (name, value) :: last).reverse name =
        some ((Fields.get? last.reverse name).getD value) := by
      rw [List.reverse_append, List.reverse_cons, List.append_assoc, Fields.get?_append]
      cases Fields.get? last.reverse name with
      | none => simp [Fields.get?_cons]
      | some later => rfl
    rw [Option.some_inj]
    constructor
    · intro h
      have hkey := hname _ h
      subst hkey
      rw [hlast, Option.getD_some, replicaEntry_getD_iff] at h
      refine ⟨fun entry hentry => ?_, h⟩
      cases hentry
      rfl
    · intro h
      have hkey : key = name := h.foremost _ rfl
      subst hkey
      rw [hlast, Option.getD_some, replicaEntry_getD_iff]
      exact h.kept

/-! ### Templates with one server -/

/-- **One server among server groups**: around the server stand server groups and resources that are
not interpreted, in any order. -/
structure OneServer (before : Fields Json) (server : Fields Json) (after : Fields Json) : Prop where
  server : ResourceKind.ofResource? server = some .server
  others : ∀ member ∈ before ++ after, ∀ kind, ResourceKind.ofValue? member.2 = some kind →
    kind = .serverGroup

/-- What some resources of the nested template give in one replica. -/
def replicaGiven (sources : Sources) (here : Position)
    (resources scope definition members : Fields Json) (cursor : Nat) (part : Fields Json) :
    Except TemplateError (Fields Json) :=
  given sources members
    (some (replicaParent sources.scopes here resources scope definition cursor))
    ((here.replica cursor).inside members) part

/-- The resolution of a resource of the nested template in one replica. -/
def replicaMember (sources : Sources) (here : Position)
    (resources scope definition members : Fields Json) (cursor : Nat) (resource : Fields Json) :
    Except TemplateError Json :=
  memberResolution sources members
    (some (replicaParent sources.scopes here resources scope definition cursor))
    ((here.replica cursor).inside members) resource

section OneServer

variable {sources : Sources} {here : Position}
  {resources scope group definition nested : Fields Json} {before after server : Fields Json}
  {name : String} {cursor : Nat}

/-- In each replica the server gives itself, between what stands around it gives. -/
theorem replicaResolution_of_oneServer {resolved : Fields Json}
    (hmembers : resourcesOf? nested = some (before ++ (name, .obj server) :: after))
    (hserver : OneServer before server after)
    (h : replicaResolution sources here resources scope definition nested cursor = .ok resolved) :
    ∃ own first last,
      replicaMember sources here resources scope definition
          (before ++ (name, .obj server) :: after) cursor server = .ok (.obj own) ∧
        ResourceKind.ofResource? own = some .server ∧
        replicaGiven sources here resources scope definition
          (before ++ (name, .obj server) :: after) cursor before = .ok first ∧
        replicaGiven sources here resources scope definition
          (before ++ (name, .obj server) :: after) cursor after = .ok last ∧
        resolved = Fields.extend [] (first ++ (name, .obj own) :: last) := by
  obtain ⟨-, entries, hentries, rfl⟩ := (walkTemplate_eq_ok_iff hmembers).mp h
  obtain ⟨give, hgive, rfl⟩ := given_eq_ok_iff.mp hentries
  have hexpand := expandable?_of_server ((ofResource?_insert_properties server
    (.obj (mergedProperties (some (replicaParent sources.scopes here resources scope definition
      cursor)) server))).trans hserver.server)
  obtain ⟨own, hown, hentry, hkind⟩ := givenBy_of_unexpanded hserver.server (by simp) hexpand
    (hgive (name, .obj server) (by simp))
  refine ⟨own, before.flatMap give, after.flatMap give, hown, hkind, ?_, ?_, ?_⟩
  · exact given_eq_ok_iff.mpr ⟨give, fun member hmember => hgive member (by simp [hmember]), rfl⟩
  · exact given_eq_ok_iff.mpr ⟨give, fun member hmember => hgive member (by simp [hmember]), rfl⟩
  · rw [List.flatMap_append, List.flatMap_cons, hentry, List.singleton_append]

/-- No server group of some resources is expanded: neither its own properties nor the injected ones
hold a `resource_def`. -/
structure Unexpanded (definition part : Fields Json) : Prop where
  injected : "resource_def" ∉ Fields.names (propertiesOf definition)
  own : ∀ member ∈ part, ∀ group, member.2 = .obj group →
    ResourceKind.ofResource? group = some .serverGroup →
      "resource_def" ∉ Fields.names (propertiesOf group)

/-- A server group that is not expanded gives one entry under its name, and a resource that is not
interpreted gives none. -/
theorem givenBy_of_serverGroup {members entries : Fields Json} {member : String × Json}
    (hkind : ∀ kind, ResourceKind.ofValue? member.2 = some kind → kind = .serverGroup)
    (hplain : Unexpanded definition [member])
    (h : givenBy sources members
      (some (replicaParent sources.scopes here resources scope definition cursor))
      ((here.replica cursor).inside members) member = .ok entries) :
    (ResourceKind.ofValue? member.2 = none ∧ entries = []) ∨
      (ResourceKind.ofValue? member.2 ≠ none ∧ ∃ value, entries = [(member.1, value)]) := by
  obtain ⟨name, value⟩ := member
  cases hvalue : ResourceKind.ofValue? value with
  | none =>
    rw [givenBy_of_unplaced fun kind h => by rw [hvalue] at h; cases h] at h
    cases h
    exact .inl ⟨rfl, rfl⟩
  | some kind =>
    cases value with
    | obj fields =>
      have hgroup : ResourceKind.ofResource? fields = some .serverGroup := by
        rw [← hkind kind hvalue]
        exact hvalue
      have hnodef : "resource_def" ∉ Fields.names (mergedProperties
          (some (replicaParent sources.scopes here resources scope definition cursor)) fields) := by
        rw [mergedProperties, Option.map_some, Option.getD_some, mem_names_mergeParent, not_or,
          replicaParent, Context.injected, Fields.names_mapValues]
        exact ⟨hplain.own _ List.mem_cons_self fields rfl hgroup, hplain.injected⟩
      obtain ⟨resolved, -, hentries, -⟩ := givenBy_of_unexpanded hgroup (by simp)
        (expandable?_of_no_definition hnodef) h
      exact .inr ⟨by simp, _, hentries⟩
    | _ => cases hvalue

/-- **Server groups that are not expanded** give entries under their own names, and none iff there
are none. -/
theorem replicaGiven_of_serverGroups {members part entries : Fields Json}
    (hkind : ∀ member ∈ part, ∀ kind, ResourceKind.ofValue? member.2 = some kind →
      kind = .serverGroup)
    (hplain : Unexpanded definition part)
    (h : replicaGiven sources here resources scope definition members cursor part = .ok entries) :
    (∀ entry ∈ entries, entry.1 ∈ Fields.names part) ∧
      (entries = [] ↔ ∀ member ∈ part, ResourceKind.ofValue? member.2 = none) := by
  obtain ⟨give, hgive, rfl⟩ := given_eq_ok_iff.mp h
  have hcases : ∀ member ∈ part,
      (ResourceKind.ofValue? member.2 = none ∧ give member = []) ∨
        (ResourceKind.ofValue? member.2 ≠ none ∧ ∃ value, give member = [(member.1, value)]) := by
    intro member hmember
    refine givenBy_of_serverGroup (hkind member hmember) ⟨hplain.injected, ?_⟩
      (hgive member hmember)
    intro other hother
    rw [List.mem_singleton.mp hother]
    exact hplain.own member hmember
  constructor
  · intro entry hentry
    obtain ⟨member, hmember, hentry⟩ := List.mem_flatMap.mp hentry
    rcases hcases member hmember with ⟨-, hnil⟩ | ⟨-, value, hvalue⟩
    · rw [hnil] at hentry
      exact absurd hentry List.not_mem_nil
    · rw [hvalue] at hentry
      rw [List.mem_singleton.mp hentry]
      show member.1 ∈ Fields.names part
      exact List.mem_map_of_mem hmember
  · rw [List.flatMap_eq_nil_iff]
    refine forall₂_congr fun member hmember => ?_
    rcases hcases member hmember with ⟨hnone, hnil⟩ | ⟨hsome, value, hvalue⟩
    · exact iff_of_true hnil hnone
    · exact iff_of_false (by simp [hvalue]) hsome

/-- Among server groups that are not expanded, the server leads iff none stands in front of it. -/
theorem leads_iff_of_unexpanded {members first last : Fields Json} {value : Json}
    (hserver : OneServer before server after) (hplain : Unexpanded definition (before ++ after))
    (hnames : (Fields.names (before ++ (name, .obj server) :: after)).Nodup)
    (hfirst : replicaGiven sources here resources scope definition members cursor before =
      .ok first)
    (hlast : replicaGiven sources here resources scope definition members cursor after = .ok last) :
    Leads cursor first (name, value) last ↔
      ∀ member ∈ before, ResourceKind.ofValue? member.2 = none := by
  -- What stands around the server gives entries under its own names only, and these are not the
  -- server's.
  have hbefore := replicaGiven_of_serverGroups
    (fun member hmember => hserver.others member (List.mem_append_left _ hmember))
    ⟨hplain.injected, fun member hmember => hplain.own member (List.mem_append_left _ hmember)⟩
    hfirst
  have hafter := replicaGiven_of_serverGroups
    (fun member hmember => hserver.others member (List.mem_append_right _ hmember))
    ⟨hplain.injected, fun member hmember => hplain.own member (List.mem_append_right _ hmember)⟩
    hlast
  rw [Fields.names_append, Fields.names_cons, List.nodup_append'] at hnames
  obtain ⟨-, hnodup, hdisjoint⟩ := hnames
  have hnotbefore : name ∉ Fields.names before := fun h => hdisjoint h List.mem_cons_self
  have hnotafter : name ∉ Fields.names after := (List.nodup_cons.mp hnodup).1
  rw [← hbefore.2]
  constructor
  · intro hleads
    cases first with
    | nil => rfl
    | cons entry rest =>
      have hentry : entry.1 = name := hleads.foremost entry rfl
      exact absurd (hentry ▸ hbefore.1 entry List.mem_cons_self) hnotbefore
  · rintro rfl
    have hnone : Fields.get? last.reverse name = none := by
      rw [Fields.get?_eq_none_iff, Fields.names, List.map_reverse, List.mem_reverse, List.mem_map]
      rintro ⟨entry, hentry, rfl⟩
      exact hnotafter (hafter.1 entry hentry)
    refine ⟨fun entry hentry => absurd hentry (by simp), fun later hlater => ?_⟩
    rw [hnone] at hlater
    cases hlater

end OneServer

/-! ### Replicas -/

/-- The servers of the nested template, as the replicas of a group. -/
def serverReplicas (name : String) (servers : Nat → Fields Json) (count : Nat) : Fields Json :=
  (List.range count).map fun i => replicaEntry i (name, .obj (servers i))

/-- The replicas of the servers are numbered from zero. -/
theorem names_serverReplicas (name : String) (servers : Nat → Fields Json) (count : Nat) :
    Fields.names (serverReplicas name servers count) =
      (List.range count).map (replicaName name) := by
  rw [serverReplicas, Fields.names, List.map_map]
  rfl

/-- The replicas are the servers iff each replica is. -/
theorem replicaEntries_eq_serverReplicas_iff {resolved servers : Nat → Fields Json} {count : Nat}
    {name : String} (hne : ∀ i < count, resolved i ≠ []) :
    replicaEntries resolved count = serverReplicas name servers count ↔
      ∀ i < count, (resolved i).head?.map (replicaEntry i) =
        some (replicaEntry i (name, .obj (servers i))) := by
  have hentries : replicaEntries resolved count =
      (List.range count).map fun i => replicaEntry i ((resolved i).headD default) := by
    rw [← List.filterMap_eq_map, replicaEntries]
    refine List.filterMap_congr fun i hi => ?_
    obtain ⟨first, rest, hresolved⟩ := List.exists_cons_of_ne_nil (hne i (List.mem_range.mp hi))
    show _ = some (replicaEntry i ((resolved i).headD default))
    rw [hresolved]
    rfl
  rw [hentries, serverReplicas, List.map_inj_left]
  refine forall_congr' fun i => ?_
  rw [List.mem_range]
  refine forall_congr' fun hi => ?_
  obtain ⟨first, rest, hresolved⟩ := List.exists_cons_of_ne_nil (hne i hi)
  rw [hresolved]
  exact Option.some_inj.symm

/-- **A group of servers**: in each replica the server gives itself between what stands around it
gives, and the replicas are the servers iff they lead. -/
theorem walkResource_of_oneServer {sources : Sources} {here : Position}
    {resources scope group definition nested before server after : Fields Json} {name : String}
    {count : Nat} {output : Json} (h : GroupOf sources scope group definition nested count)
    (hmembers : resourcesOf? nested = some (before ++ (name, .obj server) :: after))
    (hserver : OneServer before server after) (hne : here.stack.frames ≠ [])
    (hok : (walkResource sources resources group scope).outcome here = .ok output) :
    ∃ servers first last : Nat → Fields Json,
      (∀ i < count,
        replicaMember sources here resources scope definition
            (before ++ (name, .obj server) :: after) i server = .ok (.obj (servers i)) ∧
          ResourceKind.ofResource? (servers i) = some .server ∧
          replicaGiven sources here resources scope definition
            (before ++ (name, .obj server) :: after) i before = .ok (first i) ∧
          replicaGiven sources here resources scope definition
            (before ++ (name, .obj server) :: after) i after = .ok (last i)) ∧
      (output = .obj (serverReplicas name servers count) ↔
        ∀ i < count, Leads i (first i) (name, .obj (servers i)) (last i)) := by
  have hdepth := depth_lt_of_walkResource_eq_ok hok
  obtain ⟨resolved, hresolved, rfl⟩ := (walkResource_eq_ok_iff_of_group h hne hdepth).mp hok
  have hreplica := fun i hi => replicaResolution_of_oneServer hmembers hserver (hresolved i hi)
  choose! servers first last hreplica using hreplica
  -- The server gives an entry, so no replica is missing.
  have hne : ∀ i < count, resolved i ≠ [] := by
    intro i hi hnil
    have hhead := congrArg List.head? ((hreplica i hi).2.2.2.2.symm.trans hnil)
    rw [Fields.head?_extend_nil] at hhead
    cases hfirst : first i <;> simp [hfirst] at hhead
  refine ⟨servers, first, last, fun i hi => ?_, ?_⟩
  · obtain ⟨hown, hkind, hfirst, hlast, -⟩ := hreplica i hi
    exact ⟨hown, hkind, hfirst, hlast⟩
  · rw [Json.obj.injEq, replicaEntries_eq_serverReplicas_iff hne]
    refine forall₂_congr fun i hi => ?_
    rw [(hreplica i hi).2.2.2.2]
    exact head?_replica_iff

/-- **When the replicas are the servers.** The nested template of a group has one server among
server groups. The replicas are its servers iff in each replica the server leads what the resources
around it give. If no server group is expanded itself, this is so iff there are no replicas or no
server group stands in front of the server. -/
theorem replicas_are_servers_iff {sources : Sources} {here : Position}
    {resources scope group definition nested before server after : Fields Json} {name : String}
    {count : Nat} {output : Json} (h : GroupOf sources scope group definition nested count)
    (hmembers : resourcesOf? nested = some (before ++ (name, .obj server) :: after))
    (hserver : OneServer before server after) (hne : here.stack.frames ≠ [])
    (hok : (walkResource sources resources group scope).outcome here = .ok output) :
    ∃ servers first last : Nat → Fields Json,
      (∀ i < count,
        replicaMember sources here resources scope definition
            (before ++ (name, .obj server) :: after) i server = .ok (.obj (servers i)) ∧
          ResourceKind.ofResource? (servers i) = some .server ∧
          replicaGiven sources here resources scope definition
            (before ++ (name, .obj server) :: after) i before = .ok (first i) ∧
          replicaGiven sources here resources scope definition
            (before ++ (name, .obj server) :: after) i after = .ok (last i)) ∧
      (output = .obj (serverReplicas name servers count) ↔
        ∀ i < count, Leads i (first i) (name, .obj (servers i)) (last i)) ∧
      (Unexpanded definition (before ++ after) →
        (Fields.names (before ++ (name, .obj server) :: after)).Nodup →
          (output = .obj (serverReplicas name servers count) ↔
            count = 0 ∨ ∀ member ∈ before, ResourceKind.ofValue? member.2 = none)) := by
  obtain ⟨servers, first, last, hreplica, hleads⟩ :=
    walkResource_of_oneServer h hmembers hserver hne hok
  refine ⟨servers, first, last, hreplica, hleads, fun hplain hnames => ?_⟩
  have hplainly : ∀ i < count, (Leads i (first i) (name, .obj (servers i)) (last i) ↔
      ∀ member ∈ before, ResourceKind.ofValue? member.2 = none) := by
    intro i hi
    obtain ⟨-, -, hfirst, hlast⟩ := hreplica i hi
    exact leads_iff_of_unexpanded hserver hplain hnames hfirst hlast
  rw [hleads, forall₂_congr hplainly]
  constructor
  · intro hall
    rcases Nat.eq_zero_or_pos count with hzero | hpos
    · exact .inl hzero
    · exact .inr (hall 0 hpos)
  · rintro (rfl | hnone) i hi
    · exact absurd hi (Nat.not_lt_zero i)
    · exact hnone

/-- A server group that keeps its servers apart. -/
def antiAffinity : Fields Json :=
  [("type", .str ResourceKind.serverGroup.name),
    ("properties", .obj [("policies", .arr [.str "anti-affinity"])])]

/-- The server stands in front of the server group, so that both replicas are servers. -/
theorem replicas_are_servers_of_foremost :
    let nested := templateOf [("node", .obj (namedServer "vm")), ("anti", .obj antiAffinity)]
    let sources : Sources := ⟨Yaml.read?, [("node.yaml", .obj nested)], ⟨[], []⟩⟩
    let group := replicaGroup (.ofNat 2) "node.yaml"
    let definition : Fields Json := [("type", .str "node.yaml")]
    let resources : Fields Json := [("vms", .obj group)]
    let here : Position := ⟨⟨[resources]⟩, none, 1⟩
    GroupOf sources [] group definition nested 2 ∧
      resourcesOf? nested =
        some ([] ++ ("node", .obj (namedServer "vm")) :: [("anti", .obj antiAffinity)]) ∧
      OneServer [] (namedServer "vm") [("anti", .obj antiAffinity)] ∧
      here.stack.frames ≠ [] ∧
      ∃ output, (walkResource sources resources group []).outcome here = .ok output ∧
        ∃ servers, output = .obj (serverReplicas "node" servers 2) := by
  have houtput : ∃ output, (walkResource
      ⟨Yaml.read?, [("node.yaml", .obj (templateOf
        [("node", .obj (namedServer "vm")), ("anti", .obj antiAffinity)]))], ⟨[], []⟩⟩
      [("vms", .obj (replicaGroup (.ofNat 2) "node.yaml"))]
      (replicaGroup (.ofNat 2) "node.yaml") []).outcome
        ⟨⟨[[("vms", .obj (replicaGroup (.ofNat 2) "node.yaml"))]]⟩, none, 1⟩ = .ok output :=
    ⟨.obj [("node_0", .obj (namedServer "vm")), ("node_1", .obj (namedServer "vm"))],
      by decide +kernel⟩
  intro nested sources group definition resources here
  have hgroup : GroupOf sources [] group definition nested 2 :=
    groupOf_replicaGroup (.integer (by cbv)) (by cbv) (by cbv)
  have hserver : OneServer [] (namedServer "vm") [("anti", .obj antiAffinity)] := by
    refine ⟨by cbv, fun member hmember kind hkind => ?_⟩
    rw [List.nil_append, List.mem_singleton] at hmember
    rw [hmember] at hkind
    exact (Option.some.inj hkind).symm
  have hplain : Unexpanded definition ([] ++ [("anti", .obj antiAffinity)]) := by
    refine ⟨List.not_mem_nil, fun member hmember group hgroup _ => ?_⟩
    rw [List.nil_append, List.mem_singleton] at hmember
    rw [hmember] at hgroup
    cases hgroup
    decide
  have hne : here.stack.frames ≠ [] := List.cons_ne_nil _ _
  obtain ⟨output, hok⟩ := houtput
  obtain ⟨servers, -, -, -, -, hiff⟩ := replicas_are_servers_iff hgroup rfl hserver hne hok
  refine ⟨hgroup, rfl, hserver, hne, output, hok, servers, ?_⟩
  exact (hiff hplain (by decide)).mpr (.inr fun _ h => absurd h List.not_mem_nil)

/-- A server group in front of the server takes its place: both replicas are server groups. -/
theorem replicas_are_server_groups :
    let nested := templateOf [("anti", .obj antiAffinity), ("node", .obj (namedServer "vm"))]
    let sources : Sources := ⟨Yaml.read?, [("node.yaml", .obj nested)], ⟨[], []⟩⟩
    let group := replicaGroup (.ofNat 2) "node.yaml"
    let resources : Fields Json := [("vms", .obj group)]
    let here : Position := ⟨⟨[resources]⟩, none, 1⟩
    let kept : Fields Json :=
      [("type", .str ResourceKind.serverGroup.name), ("properties", .obj [])]
    let replicas : Fields Json := [("anti_0", .obj kept), ("anti_1", .obj kept)]
    GroupOf sources [] group [("type", .str "node.yaml")] nested 2 ∧
      resourcesOf? nested =
        some ([("anti", .obj antiAffinity)] ++ ("node", .obj (namedServer "vm")) :: []) ∧
      OneServer [("anti", .obj antiAffinity)] (namedServer "vm") [] ∧ here.stack.frames ≠ [] ∧
      (walkResource sources resources group []).outcome here = .ok (.obj replicas) ∧
      ∀ servers, Json.obj replicas ≠ .obj (serverReplicas "node" servers 2) := by
  have houtput : (walkResource
      ⟨Yaml.read?, [("node.yaml", .obj (templateOf
        [("anti", .obj antiAffinity), ("node", .obj (namedServer "vm"))]))], ⟨[], []⟩⟩
      [("vms", .obj (replicaGroup (.ofNat 2) "node.yaml"))]
      (replicaGroup (.ofNat 2) "node.yaml") []).outcome
        ⟨⟨[[("vms", .obj (replicaGroup (.ofNat 2) "node.yaml"))]]⟩, none, 1⟩ =
      .ok (.obj
        [("anti_0", .obj [("type", .str ResourceKind.serverGroup.name), ("properties", .obj [])]),
          ("anti_1", .obj [("type", .str ResourceKind.serverGroup.name),
            ("properties", .obj [])])]) := by
    decide +kernel
  intro nested sources group resources here kept replicas
  have hne : here.stack.frames ≠ [] := List.cons_ne_nil _ _
  refine ⟨?_, rfl, ⟨by cbv, fun member hmember kind hkind => ?_⟩, hne, houtput, fun servers h => ?_⟩
  · exact groupOf_replicaGroup (.integer (by cbv)) (by cbv) (by cbv)
  · rw [List.append_nil, List.mem_singleton] at hmember
    rw [hmember] at hkind
    exact (Option.some.inj hkind).symm
  · have hnames := congrArg Fields.names (Json.obj.inj h)
    rw [names_serverReplicas] at hnames
    exact absurd hnames (by decide)

end HeatPlacement.Heat
