import HeatPlacement.Proofs.Groups.Collisions
import HeatPlacement.Proofs.Groups.Hosts
import HeatPlacement.Proofs.Parameters.Siblings

/-!
# Zones of replicas

A group may inject an output of another resource into its servers, as the pair of this resource and
the name of the output. A server that looks up its zone there with the number of its replica as the
index selects an item of this pair, before the pair is followed to the output.

* `Context.get?_injected_getAttr`: the pair that a group injects
* `Level.assignedZone_of_item`: a zone that is no pair is kept
* `ZoneByIndex`, `InjectsOutput`: such a server, and such a group
* `replicas_take_zones_from_pair`: **the zones of the replicas** are the items of the pair
-/

namespace HeatPlacement.Heat

/-! ### The injected pair -/

/-- An output that is injected is the pair of its resource and its name. -/
theorem Context.get?_injected_getAttr {ctx : Context} {properties : Fields Json}
    {property zones output : String} {target : Json}
    (hproperty : Fields.get? properties property =
      some (.single "get_attr" (.arr [.str zones, .str output])))
    (htarget : ctx.stack.find? zones = some target) (parent : Option (Fields Json))
    (resources : Fields Json) :
    Fields.get? (ctx.injected properties parent resources) property =
      some (.arr [target, .str output]) := by
  have hshape : Shape.of (.single "get_attr" (.arr [.str zones, .str output])) =
      .reference (.getAttr [.str zones, .str output]) := Shape.of_single .getAttr _
  rw [Context.injected, Fields.get?_mapValues, hproperty, Option.map_some, hshape]
  simp only [evaluate, getAttr, htarget, Option.map_some, Option.getD_some]

/-- An injected property that the server lacks is found beside its other properties. -/
theorem get?_mergedProperties_of_injected {server parent : Fields Json} {property : String}
    {value : Json} (hnames : (Fields.names parent).Nodup)
    (hvalue : Fields.get? parent property = some value)
    (hnone : Fields.get? (propertiesOf server) property = none) :
    Fields.get? (mergedProperties (some parent) server) property = some value := by
  refine get?_mergeParent_of_injected hnames hvalue ?_
  rw [hnone]
  exact nofun

/-! ### The zone of a server -/

/-- The zone of an indexed parameter is the item that is found, unless this is a pair itself. -/
theorem Level.assignedZone_of_item {level : Level} {params scope : Fields Json} {ref : ParamRef}
    {here : Position} {zone : Option Json}
    (hparams : (Fields.get? params zoneMarker).map Shape.of = some (.reference (.getParam ref)))
    (hindex : ref.index ≠ .absent)
    (hzone : level.sources.scopes.resolve ref.name (some scope) zoneMarker
      ((⟨level.sources.scopes, here.stack, here.cursor⟩ : Context).indexOf (some scope) ref.index) =
        zone)
    (hpair : ∀ target output more, zone ≠ some (.arr (.obj target :: .str output :: more))) :
    level.assignedZone params scope here = (.ok zone, here) := by
  have hkept : level.zoneFromOutputs zone scope = pure zone := by
    unfold Level.zoneFromOutputs
    split
    · rename_i target output more
      exact absurd rfl (hpair target output more)
    · rfl
  unfold Level.assignedZone Level.context
  rw [Walk.bind_apply]
  simp only [hparams, if_neg hindex]
  show level.zoneFromOutputs (level.sources.scopes.resolve ref.name (some scope) zoneMarker
    ((⟨level.sources.scopes, here.stack, here.cursor⟩ : Context).indexOf (some scope) ref.index))
      scope here = _
  rw [hzone, hkept]
  rfl

/-! ### Servers and groups -/

/-- A server that looks up its zone under a name, with the number of its replica as the index, and
has no property of this name. -/
structure ZoneByIndex (property : String) (server : Fields Json) : Prop where
  kind : ResourceKind.ofResource? server = some .server
  names : (Fields.names (propertiesOf server)).Nodup
  absent : Fields.get? (propertiesOf server) property = none
  zone : ∃ body params,
    Fields.get? (propertiesOf server) "availability_zone" =
        some (.single "str_replace" (.obj body)) ∧
      Fields.get? body "params" = some (.obj params) ∧
      Fields.get? params zoneMarker = some (.single "get_param"
        (.arr [.str property, .single "get_param" (.str "index")]))

/-- A group of replicas into which the output of another resource is injected under a name. -/
structure InjectsOutput (sources : Sources) (members group definition nested : Fields Json)
    (count : Nat) (property output : String) (target : Fields Json) : Prop where
  kind : ResourceKind.ofResource? group = some .resourceGroup
  group : GroupOf sources (propertiesOf group) group definition nested count
  names : (Fields.names (propertiesOf definition)).Nodup
  injected : ∃ zones, Fields.get? members zones = some (.obj target) ∧
    Fields.get? (propertiesOf definition) property =
      some (.single "get_attr" (.arr [.str zones, .str output]))

/-- What the pair of a resource and the name of its output holds for the number of a replica. -/
def pairZone (target : Fields Json) (output : String) (cursor : Nat) : Json :=
  ([Json.obj target, .str output][cursor]?).getD .null

/-- Only the second replica gets a text, and this is the name of the output. -/
theorem pairZone_eq_str_iff {target : Fields Json} {output zone : String} {cursor : Nat} :
    pairZone target output cursor = .str zone ↔ cursor = 1 ∧ zone = output := by
  rcases cursor with _ | _ | cursor
  · simp [pairZone]
  · simp [pairZone, eq_comm]
  · simp [pairZone]

/-- **The zone of a server beside an injected pair** is the item for the cursor. -/
theorem ZoneByIndex.zone_of_pair {sources : Sources}
    {members parent server properties target : Fields Json} {property output : String}
    {cursor : Nat} {here : Position} (h : ZoneByIndex property server)
    (hnames : (Fields.names parent).Nodup)
    (hpair : Fields.get? parent property = some (.arr [.obj target, .str output]))
    (hne : here.stack.frames ≠ []) (hcursor : here.cursor = some cursor)
    (hok : ((Level.whole sources members).properties (mergedProperties (some parent) server)
      (mergedProperties (some parent) server)).outcome here = .ok properties) :
    ∃ rest, Fields.get? properties "availability_zone" =
      some (.arr (pairZone target output cursor :: rest)) := by
  obtain ⟨body, params, hown, hbody, hzone⟩ := h.zone
  let merged := mergedProperties (some parent) server
  let level := Level.whole sources members
  have hvalue : Fields.get? merged "availability_zone" = some (.single "str_replace" (.obj body)) :=
    get?_mergedProperties hown (isSelfReference_of_not_mem (by simp))
  have hresolved := Level.hostAssignment_of_properties_eq_ok hne
    (nodup_names_mergeParent h.names parent) hok hvalue (Shape.of_single .strReplace _)
  -- The parameter is the injected pair, of which the cursor selects an item.
  have hshape : (Fields.get? params zoneMarker).map Shape.of = some (.reference (.getParam
      ⟨property, .reference [("get_param", .str "index")]⟩)) := by
    rw [hzone, Option.map_some, Shape.of_readsParameter ⟨_, rfl, .followed property _ []⟩]
    rfl
  have hitem : sources.scopes.resolve property (some merged) zoneMarker
      ((⟨sources.scopes, here.stack, here.cursor⟩ : Context).indexOf (some merged)
        (.reference [("get_param", .str "index")])) =
      [Json.obj target, .str output][cursor]? := by
    have hindex : (⟨sources.scopes, here.stack, here.cursor⟩ : Context).indexOf (some merged)
        (.reference [("get_param", .str "index")]) = some cursor := by
      have hnumber : Context.Numbers ⟨sources.scopes, here.stack, here.cursor⟩ (some merged)
          (.single "get_param" (.str "index")) cursor := .replica ⟨_, rfl, .alone "index"⟩ hcursor
      exact Context.indexOf_ofJson_eq_some_iff.mpr hnumber
    rw [hindex, Scopes.resolve_of_beside (by decide)
      (get?_mergedProperties_of_injected hnames hpair h.absent) rfl rfl]
    rfl
  have hpairs : ∀ target' output' more,
      [Json.obj target, .str output][cursor]? ≠
        some (.arr (.obj target' :: .str output' :: more)) := by
    rcases cursor with _ | _ | cursor
    · simp
    · simp
    · simp
  have hassigned : level.assignedZone params merged here = (.ok _, here) :=
    Level.assignedZone_of_item hshape (by simp) hitem hpairs
  rw [Level.hostAssignment_of_zone (bind_asObj?_eq_some_iff.mpr hbody) hassigned] at hresolved
  exact ⟨_, (Except.ok.inj hresolved).symm⟩

/-! ### The replicas -/

/-- Resources that are not interpreted give nothing. -/
theorem given_of_uninterpreted {sources : Sources} {members part : Fields Json}
    {parent : Option (Fields Json)} {here : Position}
    (h : ∀ member ∈ part, ResourceKind.ofValue? member.2 = none) :
    given sources members parent here part = .ok [] := by
  refine given_eq_ok_iff.mpr ⟨fun _ => [], fun member hmember => ?_, ?_⟩
  · refine givenBy_of_unplaced fun kind hkind => ?_
    rw [h member hmember] at hkind
    cases hkind
  · simp

/-- Where nothing but the server is interpreted, the replicas are the servers. -/
theorem walkResource_of_loneServer {sources : Sources} {here : Position}
    {resources scope group definition nested before after server : Fields Json} {name : String}
    {count : Nat} {output : Json} {servers : Nat → Fields Json}
    (h : GroupOf sources scope group definition nested count)
    (hmembers : resourcesOf? nested = some (before ++ (name, .obj server) :: after))
    (hkind : ResourceKind.ofResource? server = some .server)
    (hothers : ∀ member ∈ before ++ after, ResourceKind.ofValue? member.2 = none)
    (hne : here.stack.frames ≠ [])
    (hservers : ∀ i < count, replicaMember sources here resources scope definition
      (before ++ (name, .obj server) :: after) i server = .ok (.obj (servers i)))
    (hok : (walkResource sources resources group scope).outcome here = .ok output) :
    output = .obj (serverReplicas name servers count) := by
  have hone : OneServer before server after := by
    refine ⟨hkind, fun member hmember kind hmemberKind => ?_⟩
    rw [hothers member hmember] at hmemberKind
    cases hmemberKind
  obtain ⟨found, first, last, hfound, hleads⟩ :=
    walkResource_of_oneServer h hmembers hone hne hok
  have houtput : output = .obj (serverReplicas name found count) := by
    refine hleads.mpr fun i hi => ?_
    obtain ⟨-, -, hfirst, hlast⟩ := hfound i hi
    rw [replicaGiven, given_of_uninterpreted fun member hmember =>
      hothers member (List.mem_append_left _ hmember)] at hfirst
    rw [replicaGiven, given_of_uninterpreted fun member hmember =>
      hothers member (List.mem_append_right _ hmember)] at hlast
    rw [← Except.ok.inj hfirst, ← Except.ok.inj hlast]
    exact ⟨nofun, nofun⟩
  have hsame : serverReplicas name found count = serverReplicas name servers count := by
    refine List.map_congr_left fun i hi => ?_
    have hserver := (hfound i (List.mem_range.mp hi)).1.symm.trans
      (hservers i (List.mem_range.mp hi))
    rw [Json.obj.inj (Except.ok.inj hserver)]
  rw [houtput, hsame]

/-- **The zones of the replicas.** A resource group at the top injects an output of another resource
into its servers, which look up their zone there with the number of their replica as the index. The
zone of a replica is then the item of the pair that was injected: the resource itself, the name of
the output, or nothing. It is a zone of the output only in the second replica, if this zone has the
name of the output. -/
theorem replicas_take_zones_from_pair {sources : Sources}
    {template members group definition nested before after server target result : Fields Json}
    {name node property output : String} {count : Nat} {here : Position}
    (hmembers : resourcesOf? template = some members) (hgroup : (name, .obj group) ∈ members)
    (hinjects : InjectsOutput sources members group definition nested count property output target)
    (hnested : resourcesOf? nested = some (before ++ (node, .obj server) :: after))
    (hserver : ZoneByIndex property server)
    (hok : (walkTemplate sources template none).outcome here = .ok result) :
    ∃ servers : Nat → Fields Json,
      (∀ i < count,
        replicaMember sources (here.inside members) members (propertiesOf group) definition
            (before ++ (node, .obj server) :: after) i server = .ok (.obj (servers i)) ∧
          (∃ rest, Fields.get? (keptProperties (servers i)) "availability_zone" =
            some (.arr (pairZone target output i :: rest))) ∧
          ∀ zone, pairZone target output i = .str zone ↔ i = 1 ∧ zone = output) ∧
      ((∀ member ∈ before ++ after, ResourceKind.ofValue? member.2 = none) →
        memberResolution sources members none (here.inside members) group =
          .ok (.obj (serverReplicas node servers count))) := by
  obtain ⟨groupOutput, hresolution⟩ :=
    memberResolution_of_walkTemplate_eq_ok hmembers hgroup hinjects.kind nofun hok
  have hne := here.inside_ne_nil members
  have hgroupOf := hinjects.group.insert_properties
  have hdepth := depth_lt_of_walkResource_eq_ok hresolution
  obtain ⟨resolved, hresolved, -⟩ :=
    (walkResource_eq_ok_iff_of_group hgroupOf hne hdepth).mp hresolution
  obtain ⟨zones, htarget, hproperty⟩ := hinjects.injected
  -- The innermost template on the stack is the one in which the group stands.
  have hfind : (here.inside members).stack.find? zones = some (.obj target) := by
    rw [Position.inside, ResourceStack.find?_push, htarget, Option.some_or]
  have hreplica : ∀ i < count, ∃ own,
      replicaMember sources (here.inside members) members (propertiesOf group) definition
          (before ++ (node, .obj server) :: after) i server = .ok (.obj own) ∧
        ∃ rest, Fields.get? (keptProperties own) "availability_zone" =
          some (.arr (pairZone target output i :: rest)) := by
    intro i hi
    obtain ⟨own, hown⟩ := memberResolution_of_walkTemplate_eq_ok hnested
      (List.mem_append_right before List.mem_cons_self) hserver.kind (fun h => nomatch h)
      (hresolved i hi)
    obtain ⟨properties, hproperties, rfl⟩ := memberResolution_of_server hserver.kind hown
    have hnames : (Fields.names (replicaParent sources.scopes (here.inside members) members
        (propertiesOf group) definition i)).Nodup := by
      rw [replicaParent, Context.injected, Fields.names_mapValues]
      exact hinjects.names
    obtain ⟨rest, hrest⟩ := hserver.zone_of_pair hnames
      (Context.get?_injected_getAttr hproperty hfind _ _) (List.cons_ne_nil _ _) rfl hproperties
    refine ⟨_, hown, rest, ?_⟩
    rw [keptProperties, Fields.get?_restrict (by decide), propertiesOf,
      Fields.get?_insert_self]
    exact hrest
  choose! servers hmember hzone using hreplica
  refine ⟨servers, fun i hi => ⟨hmember i hi, hzone i hi, fun _ => pairZone_eq_str_iff⟩, ?_⟩
  intro hothers
  rw [hresolution, walkResource_of_loneServer hgroupOf hnested hserver.kind hothers hne hmember
    hresolution]

/-- A server that looks up its zone under a name, with the number of its replica as the index. -/
def zoneServer : Fields Json :=
  serverOf [("availability_zone", .single "str_replace" (.obj [("template", .str zoneMarker),
    ("params", .single zoneMarker (.single "get_param"
      (.arr [.str "zone_names", .single "get_param" (.str "index")])))]))]

/-- The `resource_def` that injects the output of another resource under this name. -/
def zoneDefinition : Fields Json :=
  [("type", .str "node.yaml"), ("properties", .single "zone_names"
    (.single "get_attr" (.arr [.str "zones", .str "names"])))]

/-- The group of two such servers. -/
def zoneGroup : Fields Json :=
  [("type", .str ResourceKind.resourceGroup.name),
    ("properties", .obj [("count", .ofNat 2), ("resource_def", .obj zoneDefinition)])]

/-- The other resource. -/
def zoneResource : Fields Json := [("type", .str "zones.yaml")]

/-- Both, in their order. -/
def zoneMembers : Fields Json := [("zones", .obj zoneResource), ("vms", .obj zoneGroup)]

/-- The files of both, with a zone for each replica in the output. -/
def zoneFiles : Fields Json :=
  [("zones.yaml", .obj [("resources", .obj []), ("outputs", .single "names"
      (.single "value" (.arr [.str "az-a", .str "names"])))]),
    ("node.yaml", .obj (templateOf [("node", .obj zoneServer)]))]

/-- The zone of the second replica has the name of the output, so that it is found. -/
theorem replicas_take_zones_from_pair_of_two :
    let sources : Sources := ⟨Yaml.read?, zoneFiles, ⟨[], []⟩⟩
    let nested := templateOf [("node", .obj zoneServer)]
    resourcesOf? (templateOf zoneMembers) = some zoneMembers ∧
      ("vms", Json.obj zoneGroup) ∈ zoneMembers ∧
      InjectsOutput sources zoneMembers zoneGroup zoneDefinition nested 2 "zone_names" "names"
        zoneResource ∧
      resourcesOf? nested = some ([] ++ ("node", .obj zoneServer) :: []) ∧
      ZoneByIndex "zone_names" zoneServer ∧
      ∃ result servers rest,
        (walkTemplate sources (templateOf zoneMembers) none).outcome .start = .ok result ∧
        memberResolution sources zoneMembers none (Position.start.inside zoneMembers) zoneGroup =
          .ok (.obj (serverReplicas "node" servers 2)) ∧
        Fields.get? (keptProperties (servers 1)) "availability_zone" =
          some (.arr (.str "names" :: rest)) := by
  have hok : ∃ result, (walkTemplate ⟨Yaml.read?, zoneFiles, ⟨[], []⟩⟩ (templateOf zoneMembers)
      none).outcome .start = .ok result :=
    ⟨[("node_0", .obj (serverOf [("availability_zone", .arr [.obj zoneResource, .null])])),
      ("node_1", .obj (serverOf [("availability_zone", .arr [.str "names", .null])]))],
      by decide +kernel⟩
  intro sources nested
  have hgroup : ("vms", Json.obj zoneGroup) ∈ zoneMembers :=
    List.mem_cons_of_mem _ List.mem_cons_self
  have hinjects : InjectsOutput sources zoneMembers zoneGroup zoneDefinition nested 2 "zone_names"
      "names" zoneResource := by
    refine ⟨ResourceKind.ofName?_name .resourceGroup, ⟨?_, ?_, ?_⟩, ?_, "zones", rfl, rfl⟩
    · exact ⟨.resourceGroup, ResourceKind.ofName?_name .resourceGroup, rfl⟩
    · exact ⟨_, rfl, rfl, .integer rfl⟩
    · exact ⟨"node.yaml", rfl, by decide +kernel, by decide +kernel⟩
    · exact List.nodup_singleton "zone_names"
  have hserver : ZoneByIndex "zone_names" zoneServer :=
    ⟨ResourceKind.ofName?_name .server, List.nodup_singleton "availability_zone", rfl,
      _, _, rfl, rfl, rfl⟩
  have hnested : resourcesOf? nested = some ([] ++ ("node", .obj zoneServer) :: []) := rfl
  obtain ⟨result, hresult⟩ := hok
  obtain ⟨servers, hservers, hlone⟩ :=
    replicas_take_zones_from_pair rfl hgroup hinjects hnested hserver hresult
  obtain ⟨-, ⟨rest, hrest⟩, hzone⟩ := hservers 1 (by decide)
  rw [(hzone "names").mpr ⟨rfl, rfl⟩] at hrest
  exact ⟨rfl, hgroup, hinjects, hnested, hserver, result, servers, rest, hresult, hlone nofun,
    hrest⟩

/-- The first replica gets the resource in place of its zone in the output. -/
theorem zone_of_first_replica_lost :
    let sources : Sources := ⟨Yaml.read?, zoneFiles, ⟨[], []⟩⟩
    resourcesOf? (templateOf zoneMembers) = some zoneMembers ∧
      Fields.get? zoneMembers "zones" = some (.obj zoneResource) ∧
      Level.outputZone? sources.scopes (.obj [("resources", .obj []), ("outputs", .single "names"
        (.single "value" (.arr [.str "az-a", .str "names"])))]) "names" 0 = some (.str "az-a") ∧
      (walkTemplate sources (templateOf zoneMembers) none).outcome .start =
        .ok [("node_0", .obj (serverOf
            [("availability_zone", .arr [.obj zoneResource, .null])])),
          ("node_1", .obj (serverOf [("availability_zone", .arr [.str "names", .null])]))] := by
  decide +kernel

end HeatPlacement.Heat
