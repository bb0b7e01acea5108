import HeatPlacement.Proofs.Groups.Expandable
import HeatPlacement.Proofs.Parameters.References
import HeatPlacement.Proofs.Walk.Ensures
import Mathlib.Data.Set.Basic

/-!
# Cycles

Templates may refer to each other in a circle, and so may servers through their scheduler hints. On
no level is there an answer then: each level asks for one below, and the lowest one has none.

* `Recurring`: the properties of a group that are replicas of a file in a set
* `CyclicFiles`: files that each have a group of replicas of another
* `CyclicHints`: servers whose scheduler hints each refer to another
* `cycles_never_resolve`: **no cycle is resolved**, whatever its length
-/

namespace HeatPlacement.Heat

/-! ### Cycles of files -/

/-- A literal count of some replicas: a number or a text, but not zero. -/
structure LiteralCount (value : Json) : Prop where
  literal : (∃ n, value = .num n) ∨ ∃ s, value = .str s
  nonzero : asIndex? value ≠ some 0

/-- **Replicas of a file in a set**: properties with a literal count and a `resource_def` whose
`type` is in the set. -/
structure Recurring (cycle : Set String) (own : Fields Json) : Prop where
  count : ∃ count, Fields.get? own "count" = some count ∧ LiteralCount count
  definition : ∃ definition file, Fields.get? own "resource_def" = some (.obj definition) ∧
    "get_param" ∉ Fields.names definition ∧ Fields.get? definition "type" = some (.str file) ∧
    file ∈ cycle

/-- **A cycle of files**: each of the files has a resource group of replicas of another one. -/
structure CyclicFiles (reader : Reader) (files : Fields Json) (cycle : Set String) : Prop where
  named : ∀ file ∈ cycle, namesNestedTemplate file = true
  document : ∀ file ∈ cycle, ∃ document template members, Fields.get? files file = some document ∧
    normalize reader file document = .ok template ∧ resourcesOf? template = some members ∧
    ∃ name group own, (name, .obj group) ∈ members ∧
      ResourceKind.ofResource? group = some .resourceGroup ∧
      Fields.get? group "properties" = some (.obj own) ∧ Recurring cycle own

/-- A literal count calls no function. -/
theorem LiteralCount.paramName? {value : Json} (h : LiteralCount value) :
    paramName? value = none ∧ ∀ key, isSelfReference value key = false := by
  rcases h.literal with ⟨n, rfl⟩ | ⟨s, rfl⟩
  · exact ⟨rfl, fun _ => rfl⟩
  · exact ⟨rfl, fun _ => rfl⟩

/-- A literal count gives at least one replica, if any number. -/
theorem LiteralCount.replicaCount_ne {value : Json} (h : LiteralCount value) (scopes : Scopes)
    (scope : Fields Json) : scopes.replicaCount (some value) scope ≠ .ok 0 := by
  have hcount : scopes.replicaCount (some value) scope = integerCount value := by
    rcases h.literal with ⟨n, rfl⟩ | ⟨s, rfl⟩ <;> rfl
  have hnonzero := h.nonzero
  rw [hcount, integerCount]
  cases hindex : asIndex? value with
  | none =>
    intro hzero
    cases hzero
  | some n =>
    intro hzero
    cases hzero
    exact hnonzero hindex

/-- Injected properties leave replicas of a file what they are. -/
theorem Recurring.mergedProperties {cycle : Set String} {group : Fields Json}
    (h : Recurring cycle (propertiesOf group)) (parent : Option (Fields Json)) :
    Recurring cycle (mergedProperties parent group) := by
  obtain ⟨⟨count, hcount, hliteral⟩, definition, file, hdefinition, hparam, hrest⟩ := h
  refine ⟨⟨count, ?_, hliteral⟩, definition, file, ?_, hparam, hrest⟩
  · exact get?_mergedProperties hcount (hliteral.paramName?.2 "count")
  · exact get?_mergedProperties hdefinition (isSelfReference_of_not_mem hparam)

/-- **A group fails** on one level if the files of its replicas have no answer on the levels
below. -/
theorem Level.resource_fails {level : Level} {cycle : Set String} {group own : Fields Json}
    (hkind : ResourceKind.ofResource? group = some .resourceGroup)
    (hown : Fields.get? group "properties" = some (.obj own)) (hrecurring : Recurring cycle own)
    (hnamed : ∀ file ∈ cycle, namesNestedTemplate file = true)
    (hfile : ∀ file ∈ cycle, ∃ template, level.sources.nested? file = .ok (some template) ∧
      ∀ parent, (level.deeper.template template parent).Fails) (scope : Fields Json) :
    (level.resource group scope).Fails := by
  obtain ⟨⟨count, hcount, hliteral⟩, definition, file, hdefinition, -, htype, hmem⟩ := hrecurring
  obtain ⟨template, htemplate, hfails⟩ := hfile file hmem
  have hexpandable : expandable? group = some own := by
    refine (expandable?_eq_some_iff hkind).mpr ⟨hown, rfl, ?_⟩
    rw [← Fields.has_iff_mem, Fields.has, hdefinition]
    rfl
  have hdefinition? : Level.definition? own = some (file, propertiesOf definition) :=
    Level.definition?_eq_some_iff.mpr ⟨definition, hdefinition, htype, hnamed file hmem, rfl⟩
  have hreplica : ∀ cursor,
      (level.replica template (propertiesOf definition) scope cursor).Fails := fun cursor =>
    (Walk.Ensures.of_next fun _ => (hfails _).bind _).withCursor cursor
  simp only [Level.resource, hexpandable, Level.expandGroup, hdefinition?, Level.nested?, htemplate]
  -- The count is an error or there is a first replica, and this one has no answer.
  refine (Walk.Ensures.ofExcept fun n hn => hn).bind fun n hn => ?_
  refine (Walk.Ensures.ofExcept fun nested hnested => hnested).bind fun nested hnested => ?_
  cases hnested
  refine Walk.Fails.map ?_ _
  cases n with
  | zero =>
    rw [hcount] at hn
    exact (hliteral.replicaCount_ne _ _ hn).elim
  | succ n =>
    unfold Level.replicas
    exact (hreplica 0).bind _

/-- On no number of levels is there an answer for a file of a cycle, or for a group of its
replicas. -/
theorem resolver_fails_of_cyclicFiles {sources : Sources} {cycle : Set String}
    (h : CyclicFiles sources.reader sources.files cycle) (room : Nat) :
    (∀ file ∈ cycle, ∀ document template, Fields.get? sources.files file = some document →
      normalize sources.reader file document = .ok template →
        ∀ parent, ((resolver sources room).template template parent).Fails) ∧
      ∀ group own, ResourceKind.ofResource? group = some .resourceGroup →
        Fields.get? group "properties" = some (.obj own) → Recurring cycle own →
          ∀ resources scope, ((resolver sources room).resource resources group scope).Fails := by
  induction room with
  | zero => exact ⟨fun _ _ _ _ _ _ _ => .throw _, fun _ _ _ _ _ _ _ => .throw _⟩
  | succ room ih =>
    obtain ⟨htemplate, hresource⟩ := ih
    constructor
    · intro file hfile document template hdocument hnormal parent
      obtain ⟨document', template', members, hdocument', hnormal', hmembers, name, group, own,
        hmember, hkind, hown, hrecurring⟩ := h.document file hfile
      cases hdocument.symm.trans hdocument'
      cases hnormal.symm.trans hnormal'
      have hproperties : propertiesOf group = own := by
        simp [propertiesOf, hown, Json.asObj?]
      rw [← hproperties] at hrecurring
      simp only [resolver, hmembers]
      -- The resources in front of the group may fail themselves, or give whatever they like.
      refine Walk.Ensures.descend (Walk.Ensures.within (Walk.Fails.foldlM hmember ?_ _) _)
      intro resolved
      refine Walk.Fails.bind ?_ _
      simp only [Level.place, hkind]
      refine Walk.Fails.bind (hresource _ (mergedProperties parent group) ?_ ?_ ?_ _ _) _
      · rw [ofResource?_insert_properties]
        exact hkind
      · exact Fields.get?_insert_self _ _ _
      · exact hrecurring.mergedProperties parent
    · intro group own hkind hown hrecurring resources scope
      refine Walk.Ensures.descend (Level.resource_fails hkind hown hrecurring h.named ?_ scope)
      intro file hfile
      obtain ⟨document, template, members, hdocument, hnormal, hmembers, -⟩ := h.document file hfile
      have hne := ne_null_of_normalize hnormal hmembers
      exact ⟨template, Sources.nested?_eq_some_iff.mpr ⟨document, hdocument, hne, hnormal⟩,
        htemplate file hfile document template hdocument hnormal⟩

/-! ### Cycles of servers -/

/-- **A cycle of servers**: the scheduler hints of each of the servers refer to another one. -/
structure CyclicHints (resources : Fields Json) (cycle : Set String) : Prop where
  server : ∀ name ∈ cycle, ∃ server own hints target,
    Fields.get? resources name = some (.obj server) ∧
      ResourceKind.ofResource? server = some .server ∧
      Fields.get? server "properties" = some (.obj own) ∧
      Fields.get? own "scheduler_hints" = some hints ∧
      hints.member? "group" = some (.single "get_resource" (.str target)) ∧ target ∈ cycle

theorem shapeOf_getResource (name : String) :
    Shape.of (.single "get_resource" (.str name)) = .reference (.getResource name) :=
  Shape.of_single .getResource _

/-- **A server fails** on one level if its scheduler hints refer to one without an answer on the
level below. -/
theorem Level.server_fails (level : Level) {server own target : Fields Json} {hints : Json}
    {name : String} (hkind : ResourceKind.ofResource? server = some .server)
    (hown : Fields.get? server "properties" = some (.obj own))
    (hhints : Fields.get? own "scheduler_hints" = some hints)
    (hgroup : hints.member? "group" = some (.single "get_resource" (.str name)))
    (htarget : Fields.get? level.resources name = some (.obj target))
    (hfails : ∀ scope, (level.sibling target scope).Fails) (scope : Fields Json) :
    (level.resource server scope).Fails := by
  have hsibling : (level.schedulerHints hints scope).Fails := by
    simp only [Level.schedulerHints, hgroup, shapeOf_getResource, htarget, Option.bind_some,
      Json.asObj?, Level.siblingOr]
    exact (hfails scope).map _
  rw [Level.resource_of_unexpanded (namesNestedTemplate_of_ofResource? hkind)
    (expandable?_of_server hkind), hown]
  -- The other properties come before or after the hints, and may fail themselves.
  refine Walk.Fails.map (Walk.Fails.foldlM (Fields.mem_of_get? hhints) (fun resolved => ?_) _) _
  exact (hsibling.map some).bind _

/-- On no number of levels is there an answer for a server of a cycle. -/
theorem resolver_fails_of_cyclicHints {resources : Fields Json} {cycle : Set String}
    (h : CyclicHints resources cycle) (sources : Sources) (room : Nat) :
    ∀ name ∈ cycle, ∀ server, Fields.get? resources name = some (.obj server) →
      ∀ scope, ((resolver sources room).resource resources server scope).Fails := by
  induction room with
  | zero => exact fun _ _ _ _ _ => .throw _
  | succ room ih =>
    intro name hname server hserver scope
    obtain ⟨server', own, hints, target, hserver', hkind, hown, hhints, hgroup, hmem⟩ :=
      h.server name hname
    cases hserver.symm.trans hserver'
    obtain ⟨next, -, -, -, hnext, -⟩ := h.server target hmem
    refine Walk.Ensures.descend (Level.server_fails ⟨sources, resolver sources room, resources⟩
      hkind hown hhints hgroup hnext (ih target hmem next hnext) scope)

/-- **No cycle is resolved.** Among files that each have a group of replicas of another, no file is
resolved, from any position and with any injected properties. Among servers that each refer to
another in their scheduler hints, no server is resolved, from any position and in any scope. -/
theorem cycles_never_resolve (sources : Sources) :
    (∀ cycle, CyclicFiles sources.reader sources.files cycle → ∀ file ∈ cycle,
      ∀ document template, Fields.get? sources.files file = some document →
        normalize sources.reader file document = .ok template →
        ∀ parent here, ∃ e, (walkTemplate sources template parent).outcome here = .error e) ∧
      ∀ resources cycle, CyclicHints resources cycle → ∀ name ∈ cycle, ∀ server,
        Fields.get? resources name = some (.obj server) →
          ∀ scope here, ∃ e,
            (walkResource sources resources server scope).outcome here = .error e := by
  constructor
  · intro cycle h file hfile document template hdocument hnormal parent here
    have hfails := (resolver_fails_of_cyclicFiles h (depthLimit + 1)).1 file hfile
    exact (hfails document template hdocument hnormal parent).exists_error here
  · intro resources cycle h name hname server hserver scope here
    have hfails := resolver_fails_of_cyclicHints h sources (depthLimit + 1) name hname
    exact (hfails server hserver scope).exists_error here

/-- The properties of a group of replicas of a file in a set. -/
theorem recurring_of_mem {cycle : Set String} {count : Json} {file : String}
    (hcount : LiteralCount count) (hfile : file ∈ cycle) :
    Recurring cycle [("count", count), ("resource_def", .obj [("type", .str file)])] :=
  ⟨⟨count, rfl, hcount⟩, _, file, rfl, by simp, rfl, hfile⟩

/-- A server whose scheduler hints refer to another. -/
def hintedServer (target : String) : Fields Json :=
  [("type", .str ResourceKind.server.name),
    ("properties", .obj
      [("scheduler_hints", .single "group" (.single "get_resource" (.str target)))])]

/-- Two files with groups of each other, although the injected properties hold other counts, and
two servers with hints to each other. -/
theorem cycles_never_resolve_of_pairs :
    let files : Fields Json :=
      [("a.yaml", .obj (templateOf [("next", .obj (replicaGroup (.ofNat 1) "b.yaml"))])),
        ("b.yaml", .obj (templateOf [("next", .obj (replicaGroup (.str "2") "a.yaml"))]))]
    let resources : Fields Json := [("x", .obj (hintedServer "y")), ("y", .obj (hintedServer "x"))]
    let sources : Sources := ⟨Yaml.read?, files, ⟨[], []⟩⟩
    CyclicFiles Yaml.read? files {"a.yaml", "b.yaml"} ∧ CyclicHints resources {"x", "y"} ∧
      (∃ e, (walkTemplate sources
        (templateOf [("next", .obj (replicaGroup (.ofNat 1) "b.yaml"))])
          (some [("count", .ofNat 0)])).outcome .start = .error e) ∧
      ∃ e, (walkResource sources resources (hintedServer "y") []).outcome .start = .error e := by
  intro files resources sources
  have hfiles : CyclicFiles Yaml.read? files {"a.yaml", "b.yaml"} := by
    have hcount : LiteralCount (.ofNat 1) := ⟨.inl ⟨_, rfl⟩, by decide⟩
    have htext : LiteralCount (.str "2") := ⟨.inr ⟨_, rfl⟩, by decide⟩
    constructor
    · rintro file (rfl | rfl) <;> decide +kernel
    · rintro file (rfl | rfl)
      · exact ⟨_, _, _, rfl, rfl, rfl, "next", _, _, List.mem_singleton_self _,
          ResourceKind.ofName?_name .resourceGroup, rfl, recurring_of_mem hcount (.inr rfl)⟩
      · exact ⟨_, _, _, rfl, rfl, rfl, "next", _, _, List.mem_singleton_self _,
          ResourceKind.ofName?_name .resourceGroup, rfl, recurring_of_mem htext (.inl rfl)⟩
  have hhints : CyclicHints resources {"x", "y"} := by
    constructor
    rintro name (rfl | rfl)
    · exact ⟨_, _, _, "y", rfl, ResourceKind.ofName?_name .server, rfl, rfl, rfl, .inr rfl⟩
    · exact ⟨_, _, _, "x", rfl, ResourceKind.ofName?_name .server, rfl, rfl, rfl, .inl rfl⟩
  refine ⟨hfiles, hhints, ?_, ?_⟩
  · exact (cycles_never_resolve sources).1 _ hfiles "a.yaml" (.inl rfl) _ _ rfl rfl _ _
  · exact (cycles_never_resolve sources).2 _ _ hhints "x" (.inl rfl) _ rfl _ _

end HeatPlacement.Heat
