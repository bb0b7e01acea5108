import HeatPlacement.Proofs.Groups.Expandable
import HeatPlacement.Proofs.Groups.Servers
import HeatPlacement.Proofs.Parameters.Precedence
import HeatPlacement.Proofs.Parameters.References
import HeatPlacement.Proofs.Walk.Properties

/-!
# Hosts of replicas

The zone of a server may be a `str_replace` of a zone and a host. The zone is looked up like any
parameter, except that it is never absent. The host is the name of its parameter, and what follows
the name may number it, such as by the replica under expansion.

* `Scopes.resolve_zone`: the zone is never null
* `Level.hostAssignment_of_zone`, `Level.hostAssignment_of_properties_eq_ok`: what a zone is
  resolved into
* `AssignsHost`: parameters of a `str_replace` that assign a host; `AssignsHost.hostAssignment`:
  **the zone, the host and its number**
* `HostZone`: what the zone and the number are; `exists_hostZone`: those of a resolved server
* `zoneOf`, `zoneOf_renumbered`: replicas keep their zone in the groups around them
* `replicas_are_assigned_hosts`: **the hosts of the replicas** of a group
-/

namespace HeatPlacement.Heat

/-! ### Zones and hosts -/

/-- What counts in a scope is not null. -/
theorem Counts.ne_null {key : String} {scope : Scope} {value : Json} (h : Counts key scope value) :
    value ≠ .null := by
  cases h with
  | injected hnull => exact hnull
  | request hblank => exact fun hnull => hblank (hnull ▸ .null)
  | environment hnull => exact hnull

/-- **A zone is never null**: it is what the winning scope holds, or unresolved if none wins. -/
theorem Scopes.resolve_zone (scopes : Scopes) (parent : Option (Fields Json)) (key : String) :
    ∃ zone, scopes.resolve key parent zoneMarker none = some zone ∧ zone ≠ .null ∧
      ((∀ scope value, ¬ scopes.Wins parent key scope value) → zone = unresolvedZone) := by
  have hroot : zoneMarker ≠ hostMarker := by decide
  by_cases hwins : ∃ scope value, scopes.Wins parent key scope value
  · obtain ⟨scope, value, hwins⟩ := hwins
    refine ⟨value, ?_, hwins.counts.ne_null, fun hnone => absurd hwins (hnone scope value)⟩
    rw [resolve_of_wins hwins hroot, select_none]
  · have hnone : ∀ scope value, ¬ scopes.Wins parent key scope value :=
      fun scope value h => hwins ⟨scope, value, h⟩
    refine ⟨unresolvedZone, ?_, nofun, fun _ => rfl⟩
    rw [resolve_of_no_wins hnone hroot, if_pos rfl]

/-- The zone stands first, in front of the host and its number. -/
theorem Level.hostAssignment_of_zone {level : Level} {body params scope : Fields Json}
    {here : Position} {zone : Option Json}
    (hparams : (Fields.get? body "params").bind Json.asObj? = some params)
    (hzone : level.assignedZone params scope here = (.ok zone, here)) :
    let assigned :=
      Context.assignedHost ⟨level.sources.scopes, here.stack, here.cursor⟩ params scope
    (level.hostAssignment body scope).outcome here = .ok (.arr
      ([zone.getD .null, assigned.1.getD .null] ++ (assigned.2.map Json.ofNat).toList)) := by
  unfold Level.hostAssignment Level.context
  simp only [hparams, Option.getD_some]
  rw [Walk.outcome_bind_of_eq (by rw [hzone]), Walk.outcome, hzone]
  show Walk.outcome _ here = _
  rw [Walk.outcome_bind_of_eq rfl]
  rfl

/-- A zone that is a `str_replace` is resolved as the assignment of a host. -/
theorem Level.hostAssignment_of_properties_eq_ok {sources : Sources}
    {members scope own resolved body : Fields Json} {value : Json} {here : Position}
    (hne : here.stack.frames ≠ []) (hnames : (Fields.names own).Nodup)
    (h : ((Level.whole sources members).properties scope own).outcome here = .ok resolved)
    (hvalue : Fields.get? own "availability_zone" = some value)
    (hshape : Shape.of value = .reference (.strReplace body)) :
    some <$> ((Level.whole sources members).hostAssignment body scope).outcome here =
      .ok (Fields.get? resolved "availability_zone") := by
  have hproperty : ((Level.whole sources members).property scope "availability_zone" value).outcome
      here = some <$> ((Level.whole sources members).hostAssignment body scope).outcome here := by
    show (some <$> (Level.whole sources members).availabilityZone value scope).outcome here = _
    rw [Walk.outcome_map]
    unfold Level.availabilityZone
    simp only [hshape]
  rw [← hproperty]
  exact Level.property_of_properties_eq_ok hne hnames h hvalue

/-- **The parameters of a `str_replace` that assign a host**: the zone by its name, and the host
with what follows its name. -/
structure AssignsHost (params : Fields Json) (zone host : String) (following : Option Json) :
    Prop where
  zone : ∃ value, Fields.get? params zoneMarker = some value ∧ ReadsParameter value zone none
  host : ∃ value, Fields.get? params hostMarker = some value ∧ ReadsParameter value host following

namespace AssignsHost

variable {params : Fields Json} {zone host : String} {following : Option Json}
  (h : AssignsHost params zone host following)

include h

/-- The zone is looked up as it is. -/
theorem assignedZone (level : Level) (scope : Fields Json) (here : Position) :
    level.assignedZone params scope here =
      (.ok (level.sources.scopes.resolve zone (some scope) zoneMarker none), here) := by
  obtain ⟨value, hvalue, hreads⟩ := h.zone
  have hshape : (Fields.get? params zoneMarker).map Shape.of =
      some (.reference (.getParam ⟨zone, .absent⟩)) := by
    rw [hvalue, Option.map_some, Shape.of_readsParameter hreads]
    rfl
  unfold Level.assignedZone Level.context
  rw [Walk.bind_apply]
  simp only [hshape, if_true]
  rfl

/-- The host is the name of its parameter, whatever this holds. -/
theorem assignedHost (ctx : Context) (scope : Fields Json) :
    ctx.assignedHost params scope =
      (some (.str host), ctx.indexOf (some scope) (.given following)) := by
  obtain ⟨value, hvalue, hreads⟩ := h.host
  have hshape : (Fields.get? params hostMarker).map Shape.of =
      some (.reference (.getParam ⟨host, .given following⟩)) := by
    rw [hvalue, Option.map_some, Shape.of_readsParameter hreads]
  simp only [Context.assignedHost, hshape, Scopes.resolve, if_true]

/-- **The zone, the host and its number.** -/
theorem hostAssignment {body : Fields Json}
    (hparams : (Fields.get? body "params").bind Json.asObj? = some params) (level : Level)
    (scope : Fields Json) (here : Position) :
    (level.hostAssignment body scope).outcome here =
      .ok (.arr ([(level.sources.scopes.resolve zone (some scope) zoneMarker none).getD .null,
        .str host] ++ (((⟨level.sources.scopes, here.stack, here.cursor⟩ : Context).indexOf
          (some scope) (.given following)).map Json.ofNat).toList)) := by
  rw [Level.hostAssignment_of_zone hparams (h.assignedZone level scope here), h.assignedHost]
  rfl

end AssignsHost

/-! ### Zones of entries -/

/-- The parameters of the `str_replace` that is the zone of some properties, if it is one. -/
def zoneParams? (properties : Fields Json) : Option (Fields Json) :=
  match (Fields.get? properties "availability_zone").map Shape.of with
  | some (.reference (.strReplace body)) => (Fields.get? body "params").bind Json.asObj?
  | _ => none

theorem zoneParams?_eq_some_iff {properties params : Fields Json} :
    zoneParams? properties = some params ↔
      ∃ value body, Fields.get? properties "availability_zone" = some value ∧
        Shape.of value = .reference (.strReplace body) ∧
        (Fields.get? body "params").bind Json.asObj? = some params := by
  unfold zoneParams?
  split
  · rename_i body hshape
    obtain ⟨value, hvalue, hbody⟩ := Option.map_eq_some_iff.mp hshape
    constructor
    · exact fun h => ⟨value, body, hvalue, hbody, h⟩
    · rintro ⟨_, _, hvalue', hbody', h⟩
      cases hvalue.symm.trans hvalue'
      cases hbody.symm.trans hbody'
      exact h
  · rename_i hshape
    refine iff_of_false nofun ?_
    rintro ⟨value, body, hvalue, hbody, -⟩
    exact hshape body (by rw [hvalue, Option.map_some, hbody])

/-- The zone of an entry of a result. -/
def zoneOf (entry : String × Json) : Option Json :=
  Fields.get? (propertiesOf (entry.2.asObj?.getD [])) "availability_zone"

/-- A replica has the zone of its server. -/
theorem zoneOf_replicaEntry (cursor : Nat) (entry : String × Json) :
    zoneOf (replicaEntry cursor entry) = zoneOf entry := by
  show Fields.get? (propertiesOf (Fields.insert _ "properties" _)) _ = _
  rw [propertiesOf, Fields.get?_insert_self]
  show Fields.get? (keptProperties _) _ = _
  rw [keptProperties, Fields.get?_restrict (by decide), zoneOf]

/-- A replica keeps its zone where the groups around it number it again. -/
theorem zoneOf_renumbered (cursors : List Nat) (entry : String × Json) :
    zoneOf (cursors.foldl (fun entry cursor => replicaEntry cursor entry) entry) =
      zoneOf entry := by
  induction cursors generalizing entry with
  | nil => rfl
  | cons cursor rest ih => rw [List.foldl_cons, ih, zoneOf_replicaEntry]

/-- The replica of a nested template stands under its own name. -/
theorem get?_replicaEntries {resolved : Nat → Fields Json} {count i : Nat} (hi : i < count)
    {first : String × Json} (hfirst : (resolved i).head? = some first) :
    Fields.get? (replicaEntries resolved count) (replicaName first.1 i) =
      some (replicaEntry i first).2 := by
  refine Fields.get?_of_mem (nodup_names_replicaEntries resolved count) ?_
  refine List.mem_filterMap.mpr ⟨i, List.mem_range.mpr hi, ?_⟩
  rw [hfirst]
  rfl

/-! ### Replicas -/

/-- **The zone and the number of an assigned host**, beside some properties. The zone is what its
name gives, and unresolved if no scope holds it. The number is what follows the name of the host, if
this stands for a number. -/
structure HostZone (ctx : Context) (properties : Fields Json) (zone : String)
    (following : Option Json) (place : Json) (index : Option Nat) : Prop where
  resolved : ctx.scopes.resolve zone (some properties) zoneMarker none = some place
  ne_null : place ≠ .null
  unresolved : (∀ scope value, ¬ ctx.scopes.Wins (some properties) zone scope value) →
    place = .str "None"
  numbered : ∀ n, index = some n ↔ ∃ spelled, following = some spelled ∧
    ctx.Numbers (some properties) spelled n

/-- **The zone of a resolved server** that is assigned a host. -/
theorem exists_hostZone {sources : Sources} {members merged properties params : Fields Json}
    {zone host : String} {following : Option Json} {here : Position}
    (hne : here.stack.frames ≠ []) (hnames : (Fields.names merged).Nodup)
    (hparams : zoneParams? merged = some params) (h : AssignsHost params zone host following)
    (hok : ((Level.whole sources members).properties merged merged).outcome here =
      .ok properties) :
    ∃ place index,
      Fields.get? properties "availability_zone" =
        some (.arr ([place, .str host] ++ (index.map Json.ofNat).toList)) ∧
      HostZone ⟨sources.scopes, here.stack, here.cursor⟩ merged zone following place index := by
  obtain ⟨value, body, hvalue, hshape, hbody⟩ := zoneParams?_eq_some_iff.mp hparams
  obtain ⟨place, hplace, hnull, hnone⟩ := sources.scopes.resolve_zone (some merged) zone
  have hassigned := Level.hostAssignment_of_properties_eq_ok hne hnames hok hvalue hshape
  rw [h.hostAssignment hbody] at hassigned
  have hzone := (Except.ok.inj hassigned).symm
  have hlevel : (Level.whole sources members).sources = sources := rfl
  rw [hlevel, hplace, Option.getD_some] at hzone
  exact ⟨place, _, hzone, hplace, hnull, hnone, fun n => Context.indexOf_given_eq_some_iff⟩

/-- **The hosts of the replicas.** A group is expanded anywhere inside a template, such as in the
replicas of other groups. Where a server of its nested template becomes a replica, and is assigned a
host by its properties together with the injected ones, its zone is the zone that is looked up among
these properties, which is never null and unresolved if no scope holds it, the name of the host, and
a number if one follows the name: its own, that of this replica, or that of another parameter. The
groups around number the replica again and keep its zone. -/
theorem replicas_are_assigned_hosts {sources : Sources} {here : Position}
    {resources scope group definition nested before after server : Fields Json} {name : String}
    {count : Nat} {output : Json} (h : GroupOf sources scope group definition nested count)
    (hmembers : resourcesOf? nested = some (before ++ (name, .obj server) :: after))
    (hkind : ResourceKind.ofResource? server = some .server)
    (hnames : (Fields.names (propertiesOf server)).Nodup) (hne : here.stack.frames ≠ [])
    (hok : (walkResource sources resources group scope).outcome here = .ok output) :
    let members := before ++ (name, .obj server) :: after
    let merged (i : Nat) : Fields Json := mergedProperties
      (some (replicaParent sources.scopes here resources scope definition i)) server
    ∃ resolved servers : Nat → Fields Json,
      output = .obj (replicaEntries resolved count) ∧
      ∀ i < count,
        replicaResolution sources here resources scope definition nested i = .ok (resolved i) ∧
        replicaMember sources here resources scope definition members i server =
          .ok (.obj (servers i)) ∧
        ((resolved i).head? = some (name, .obj (servers i)) →
          ∀ params zone host following, zoneParams? (merged i) = some params →
            AssignsHost params zone host following →
            ∃ replica place index,
              Fields.get? (replicaEntries resolved count) (replicaName name i) = some replica ∧
              (∀ cursors : List Nat, zoneOf (cursors.foldl
                  (fun entry cursor => replicaEntry cursor entry) (replicaName name i, replica)) =
                some (.arr ([place, .str host] ++ (index.map Json.ofNat).toList))) ∧
              HostZone ⟨sources.scopes, here.stack.push members, some i⟩ (merged i) zone following
                place index) := by
  intro members merged
  have hdepth := depth_lt_of_walkResource_eq_ok hok
  obtain ⟨resolved, hresolved, rfl⟩ := (walkResource_eq_ok_iff_of_group h hne hdepth).mp hok
  have hserver : ∀ i < count, ∃ properties,
      ((Level.whole sources members).properties (merged i) (merged i)).outcome
          { (here.replica i).inside members with
            depth := ((here.replica i).inside members).depth + 1 } = .ok properties ∧
        replicaMember sources here resources scope definition members i server =
          .ok (.obj (Fields.insert server "properties" (.obj properties))) := by
    intro i hi
    obtain ⟨own, hown⟩ := memberResolution_of_walkTemplate_eq_ok hmembers
      (List.mem_append_right before List.mem_cons_self) hkind (fun h => nomatch h) (hresolved i hi)
    obtain ⟨properties, hproperties, rfl⟩ := memberResolution_of_server hkind hown
    exact ⟨properties, hproperties, hown⟩
  choose! properties hproperties hmember using hserver
  refine ⟨resolved, fun i => Fields.insert server "properties" (.obj (properties i)), rfl,
    fun i hi => ⟨hresolved i hi, hmember i hi, ?_⟩⟩
  intro hfirst params zone host following hparams hassigns
  have hmerged : (Fields.names (merged i)).Nodup := nodup_names_mergeParent hnames _
  obtain ⟨place, index, hzone, hplace⟩ :=
    exists_hostZone (List.cons_ne_nil _ _) hmerged hparams hassigns (hproperties i hi)
  refine ⟨_, place, index, get?_replicaEntries hi hfirst, fun cursors => ?_, hplace⟩
  -- The replica keeps the zone of the server, whose properties are the resolved ones.
  rw [zoneOf_renumbered]
  show zoneOf (replicaEntry i _) = _
  rw [zoneOf_replicaEntry, zoneOf]
  show Fields.get? (propertiesOf (Fields.insert server "properties" (.obj (properties i)))) _ = _
  rw [propertiesOf, Fields.get?_insert_self]
  exact hzone

/-- A server whose host is numbered by its replica. -/
def hostedServer : Fields Json :=
  serverOf [("availability_zone", .single "str_replace" (.obj [("template", .str zoneMarker),
    ("params", .obj [(zoneMarker, .single "get_param" (.str "zone")),
      (hostMarker, .single "get_param"
        (.arr [.str "hosts", .single "get_param" (.str "index")]))])]))]

/-- The server after its resolution, without a zone. -/
def unzonedServer (number : Nat) : Fields Json :=
  serverOf [("availability_zone", .arr [unresolvedZone, .str "hosts", .ofNat number])]

/-- A group of two such servers, in the sixth replica of another group: the number is that of the
inner replica, whatever the parameters of these names hold. -/
theorem replicas_are_assigned_hosts_of_nested :
    let sources : Sources :=
      ⟨Yaml.read?, [("node.yaml", .obj (templateOf [("node", .obj hostedServer)]))],
        ⟨[], [("hosts", .arr [.str "a", .str "b"]), ("index", .ofNat 7)]⟩⟩
    let nested := templateOf [("node", .obj hostedServer)]
    let group := replicaGroup (.ofNat 2) "node.yaml"
    let here : Position := ⟨⟨[[("vms", .obj group)], []]⟩, some 5, 3⟩
    GroupOf sources [] group [("type", .str "node.yaml")] nested 2 ∧
      resourcesOf? nested = some ([] ++ ("node", .obj hostedServer) :: []) ∧
      ResourceKind.ofResource? hostedServer = some .server ∧
      (Fields.names (propertiesOf hostedServer)).Nodup ∧ here.stack.frames ≠ [] ∧
      ∃ replicas replica,
        (walkResource sources [("vms", .obj group)] group []).outcome here =
          .ok (.obj replicas) ∧
        Fields.get? replicas (replicaName "node" 1) = some replica ∧
        zoneOf (replicaName "node" 1, replica) =
          some (.arr [unresolvedZone, .str "hosts", .ofNat 1]) := by
  intro sources nested group here
  have hgroup : GroupOf sources [] group [("type", .str "node.yaml")] nested 2 :=
    groupOf_replicaGroup (.integer rfl) (by decide +kernel) (by decide +kernel)
  have hkind : ResourceKind.ofResource? hostedServer = some .server :=
    ResourceKind.ofName?_name .server
  have hnames : (Fields.names (propertiesOf hostedServer)).Nodup :=
    List.nodup_singleton "availability_zone"
  have hne : here.stack.frames ≠ [] := List.cons_ne_nil _ _
  have hok : (walkResource sources [("vms", .obj group)] group []).outcome here =
      .ok (.obj [("node_0", .obj (unzonedServer 0)), ("node_1", .obj (unzonedServer 1))]) := by
    decide +kernel
  have hnested : resourcesOf? nested = some ([] ++ ("node", .obj hostedServer) :: []) := rfl
  obtain ⟨resolved, servers, houtput, hreplicas⟩ :=
    replicas_are_assigned_hosts hgroup hnested hkind hnames hne hok
  obtain ⟨hresolved, hserver, hassigned⟩ := hreplicas 1 (by decide)
  have hresolved' : replicaResolution sources here [("vms", .obj group)] []
      [("type", .str "node.yaml")] nested 1 = .ok [("node", .obj (unzonedServer 1))] := by
    decide +kernel
  have hserver' : replicaMember sources here [("vms", .obj group)] []
      [("type", .str "node.yaml")] [("node", .obj hostedServer)] 1 hostedServer =
        .ok (.obj (unzonedServer 1)) := by
    decide +kernel
  have hfirst : (resolved 1).head? = some ("node", .obj (servers 1)) := by
    rw [← Except.ok.inj (hresolved'.symm.trans hresolved),
      Except.ok.inj (hserver.symm.trans hserver')]
    rfl
  have hassigns : AssignsHost [(zoneMarker, .single "get_param" (.str "zone")),
      (hostMarker, .single "get_param" (.arr [.str "hosts", .single "get_param" (.str "index")]))]
      "zone" "hosts" (some (.single "get_param" (.str "index"))) :=
    ⟨⟨_, rfl, _, rfl, .alone "zone"⟩, ⟨_, rfl, _, rfl, .followed "hosts" _ []⟩⟩
  obtain ⟨replica, place, index, hreplica, hzone, hplace⟩ :=
    hassigned hfirst _ _ _ _ rfl hassigns
  have hunresolved : place = .str "None" :=
    hplace.unresolved (Scopes.winning?_eq_none_iff.mp (by decide +kernel))
  have hnumber : index = some 1 :=
    (hplace.numbered 1).mpr ⟨_, rfl, .replica ⟨_, rfl, .alone "index"⟩ rfl⟩
  refine ⟨hgroup, hnested, hkind, hnames, hne, _, replica, houtput ▸ hok, hreplica, ?_⟩
  have hzone := hzone []
  rw [hnumber, hunresolved] at hzone
  exact hzone

end HeatPlacement.Heat
