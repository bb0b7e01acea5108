import HeatPlacement.Proofs.Parameters.References
import HeatPlacement.Proofs.Walk.Properties

/-!
# The innermost template

Resources and scheduler hints are resolved with the resources of their template at hand, and a name
among them is looked up there, or on the stack. The two look-ups find the same, since the innermost
frame of the stack holds the resources at hand wherever a resolution comes to.

What a resolution comes to is observed by a probe, which may do anything around each resolution of a
resource and of scheduler hints, such as to fail where the frame is another one.

* `Position.Innermost`: the resources of the innermost frame
* `Probe`: what is done around the resolutions; `Probe.Unseen`: nothing, where the resources at hand
  are the innermost ones
* `Probe.levels`: the resolution with a probe; `Probe.levels_eq_resolver`: **an unseen probe changes
  nothing**
* `NamesSibling`: the spellings of a group of scheduler hints that name a sibling
* `sibling_spellings_agree`: **both spellings give the sibling**, wherever a resolution comes to
-/

namespace HeatPlacement.Heat

/-! ### Probes -/

/-- The resources are those of the innermost template on the stack. -/
def Position.Innermost (here : Position) (resources : Fields Json) : Prop :=
  here.stack.frames.head? = some resources

theorem Position.Innermost.ne_nil {here : Position} {resources : Fields Json}
    (h : here.Innermost resources) : here.stack.frames ≠ [] := by
  intro hnil
  rw [Innermost, hnil] at h
  cases h

/-- **A probe of a resolution**: what is done around each resolution of a resource and of scheduler
hints, given the resources that this receives. -/
structure Probe where
  resource : Fields Json → Walk Json → Walk Json
  hints : Fields Json → Walk Json → Walk Json

/-- A probe that does nothing where the resources received are the innermost ones. -/
structure Probe.Unseen (probe : Probe) : Prop where
  resource : ∀ (resources : Fields Json) (walk : Walk Json) (here : Position),
    here.Innermost resources → probe.resource resources walk here = walk here
  hints : ∀ (resources : Fields Json) (walk : Walk Json) (here : Position),
    here.Innermost resources → probe.hints resources walk here = walk here

namespace Level

/-- One property, with a probe around scheduler hints. -/
def probedProperty (level : Level) (probe : Probe) (scope : Fields Json) (key : String)
    (value : Json) : Walk (Option Json) :=
  if key = "scheduler_hints" then
    some <$> probe.hints level.resources (level.schedulerHints value scope)
  else level.property scope key value

/-- One resource, with a probe around its scheduler hints. -/
def probedResource (level : Level) (probe : Probe) (resource scope : Fields Json) : Walk Json :=
  level.resourceWith (propertiesWith (level.probedProperty probe scope)) resource scope

end Level

/-- So many levels of the resolution, with a probe. -/
def Probe.levels (probe : Probe) (sources : Sources) : Nat → Resolver
  | 0 => resolver sources 0
  | room + 1 =>
    { template := fun template parent =>
        match resourcesOf? template with
        | none => throw .missingResources
        | some resources =>
          Walk.descend (Walk.within resources
            (Level.template ⟨sources, probe.levels sources room, resources⟩ parent))
      resource := fun resources resource scope =>
        probe.resource resources (Walk.descend
          (Level.probedResource ⟨sources, probe.levels sources room, resources⟩ probe resource
            scope)) }

/-! ### Unseen probes -/

namespace Walk

/-- The first walk is restoring, and inside the template the other one is the same. -/
def Congruence.agreeInside (resources : Fields Json) : Congruence where
  Rel walk walk' :=
    Restoring walk ∧ ∀ here : Position, here.Innermost resources → walk here = walk' here
  ofExcept result _ := ⟨.ofExcept result, fun _ _ => rfl⟩
  look _ := ⟨fun here => .refl here, fun _ _ => rfl⟩
  bind := by
    rintro α β walk walk' next next' ⟨hwalk, hagree⟩ hnext
    refine ⟨hwalk.bind fun a => (hnext a).1, fun here hinner => ?_⟩
    -- The first walk comes back into the template, so that the next ones agree there.
    have hthere := (hwalk here).eq hinner.ne_nil
    rw [bind_apply, bind_apply, ← hagree here hinner]
    split
    · rename_i a there heq
      rw [heq] at hthere
      cases hthere
      exact (hnext a).2 _ hinner
    · rfl
  withCursor := by
    rintro α walk walk' cursor ⟨hwalk, hagree⟩
    refine ⟨hwalk.withCursor cursor, fun here hinner => ?_⟩
    rw [withCursor_apply, withCursor_apply, hagree { here with cursor := some cursor } hinner]

end Walk

section Unseen

variable {probe : Probe} (hprobe : probe.Unseen) {sources : Sources} {deeper deeper' : Resolver}
  {resources : Fields Json}
  (template : ∀ nested parent, (Walk.Congruence.agreeInside resources).Rel
    (deeper.template nested parent) (deeper'.template nested parent))
  (resource : ∀ target scope, (Walk.Congruence.agreeInside resources).Rel
    (deeper.resource resources target scope) (deeper'.resource resources target scope))

include hprobe template resource

/-- An unseen probe does not change a property. -/
theorem Level.probedProperty_agreeInside (scope : Fields Json) (key : String) (value : Json) :
    (Walk.Congruence.agreeInside resources).Rel
      (Level.property ⟨sources, deeper, resources⟩ scope key value)
      (Level.probedProperty ⟨sources, deeper', resources⟩ probe scope key value) := by
  unfold Level.probedProperty
  split
  · rename_i hkey
    subst hkey
    have hhints : (Walk.Congruence.agreeInside resources).Rel
        (Level.schedulerHints ⟨sources, deeper, resources⟩ value scope)
        (Level.schedulerHints ⟨sources, deeper', resources⟩ value scope) :=
      Walk.Congruence.level_schedulerHints _ resource value scope
    refine Walk.Congruence.map _ some ⟨hhints.1, fun here hinner => ?_⟩
    rw [hprobe.hints _ _ _ hinner]
    exact hhints.2 here hinner
  · exact Walk.Congruence.level_property _ template resource scope key value

/-- An unseen probe does not change a resource. -/
theorem Level.probedResource_agreeInside (target scope : Fields Json) :
    (Walk.Congruence.agreeInside resources).Rel
      (Level.resource ⟨sources, deeper, resources⟩ target scope)
      (Level.probedResource ⟨sources, deeper', resources⟩ probe target scope) := by
  rw [Level.resource_eq_resourceWith, Level.probedResource]
  exact Walk.Congruence.level_resourceWith _ template (Walk.Congruence.propertiesWith _
    (Level.probedProperty_agreeInside hprobe template resource scope)) target scope

end Unseen

/-- **An unseen probe changes nothing**: neither the resolution of a template, from any position,
nor that of a resource inside its template. -/
theorem Probe.levels_eq_resolver {probe : Probe} (hprobe : probe.Unseen) (sources : Sources)
    (room : Nat) :
    (∀ template parent here, (resolver sources room).template template parent here =
        (probe.levels sources room).template template parent here) ∧
      ∀ resources resource scope (here : Position), here.Innermost resources →
        (resolver sources room).resource resources resource scope here =
          (probe.levels sources room).resource resources resource scope here := by
  induction room with
  | zero => exact ⟨fun _ _ _ => rfl, fun _ _ _ _ _ => rfl⟩
  | succ room ih =>
    obtain ⟨htemplate, hresource⟩ := ih
    have hbelow : ∀ resources,
        (∀ template parent, (Walk.Congruence.agreeInside resources).Rel
          ((resolver sources room).template template parent)
          ((probe.levels sources room).template template parent)) ∧
        ∀ resource scope, (Walk.Congruence.agreeInside resources).Rel
          ((resolver sources room).resource resources resource scope)
          ((probe.levels sources room).resource resources resource scope) := fun resources =>
      ⟨fun t p => ⟨(resolver_restoring sources room).1 t p, fun here _ => htemplate t p here⟩,
        fun r s => ⟨(resolver_restoring sources room).2 resources r s, hresource resources r s⟩⟩
    constructor
    · intro template parent here
      simp only [resolver, levels]
      cases resourcesOf? template with
      | none => rfl
      | some resources =>
        -- The frame that is entered is the innermost one for the resources of the template.
        refine Walk.descend_congr fun _ => ?_
        have hinner : Position.Innermost
            ⟨here.stack.push resources, here.cursor, here.depth + 1⟩ resources := rfl
        rw [Walk.within_apply, Walk.within_apply,
          (Walk.Congruence.level_template _ (hbelow resources).2 parent).2 _ hinner]
    · intro resources resource scope here hinner
      simp only [resolver, levels]
      rw [hprobe.resource _ _ _ hinner]
      refine Walk.descend_congr fun _ => ?_
      exact (Level.probedResource_agreeInside hprobe (hbelow resources).1 (hbelow resources).2
        resource scope).2 _ hinner

/-! ### Siblings in scheduler hints -/

/-- **The group of scheduler hints that names a sibling**: as a resource or as a parameter. -/
inductive NamesSibling : Json → String → Prop where
  | resource (name : String) : NamesSibling (.single "get_resource" (.str name)) name
  | parameter {group : Json} {name : String} {following : Option Json}
    (hgroup : ReadsParameter group name following) : NamesSibling group name

/-- The innermost frame is searched first. -/
theorem Position.Innermost.find? {here : Position} {resources : Fields Json} {name : String}
    {resource : Json} (h : here.Innermost resources)
    (hresource : Fields.get? resources name = some resource) :
    here.stack.find? name = some resource := by
  obtain ⟨rest, hframes⟩ := List.head?_eq_some_iff.mp h
  rw [ResourceStack.find?, hframes, List.findSome?_cons, hresource]

/-- **A group that names a sibling** is resolved as this sibling and stands under its name. -/
theorem Level.schedulerHints_of_namesSibling {level : Level} {here : Position}
    (hinner : here.Innermost level.resources) {name : String} {target : Fields Json}
    (htarget : Fields.get? level.resources name = some (.obj target)) {hints group : Json}
    (hgroup : hints.member? "group" = some group) (hname : NamesSibling group name)
    (scope : Fields Json) :
    level.schedulerHints hints scope here =
      (namedGroup name <$> level.sibling target scope : Walk Json) here := by
  unfold Level.schedulerHints
  simp only [hgroup]
  cases hname with
  | resource =>
    rw [show Shape.of (.single "get_resource" (.str name)) = .reference (.getResource name) from
      Shape.of_single .getResource _]
    dsimp only
    rw [htarget]
    rfl
  | parameter hreads =>
    rw [Shape.of_readsParameter hreads]
    dsimp only
    rw [Walk.bind_apply]
    show (namedGroup name <$> level.siblingOr ((here.stack.find? name).bind Json.asObj?) scope _ :
      Walk Json) here = _
    rw [hinner.find? htarget]
    rfl

/-- **Both spellings of a sibling group agree.** In a resolution of a template, from any position
and with any injected properties, every resource and all scheduler hints are resolved where the
resources at hand are those of the innermost template: a probe that does anything elsewhere, such as
to fail, does not change the resolution. There, a group that names a sibling gives this sibling
under its name, or fails as the sibling does, whether it is spelled as a resource or as a
parameter. -/
theorem sibling_spellings_agree (sources : Sources) :
    (∀ probe : Probe, probe.Unseen →
      ∀ (template : Fields Json) (parent : Option (Fields Json)) (here : Position),
        (probe.levels sources (depthLimit + 1)).template template parent here =
          walkTemplate sources template parent here) ∧
    ∀ (level : Level) (here : Position), here.Innermost level.resources →
      ∀ (name : String) (target scope : Fields Json),
        Fields.get? level.resources name = some (.obj target) →
        ∀ hints group : Json, hints.member? "group" = some group → NamesSibling group name →
          level.schedulerHints hints scope here =
            (Level.namedGroup name <$> level.sibling target scope : Walk Json) here :=
  ⟨fun _ hprobe template parent here =>
      ((Probe.levels_eq_resolver hprobe sources _).1 template parent here).symm,
    fun _ _ hinner _ _ scope htarget _ _ hgroup hname =>
      Level.schedulerHints_of_namesSibling hinner htarget hgroup hname scope⟩

/-- The probe that fails where the resources received are not the innermost ones. -/
def Probe.guard (e : TemplateError) : Probe where
  resource resources walk here :=
    if here.stack.frames.head? = some resources then walk here else (.error e, here)
  hints resources walk here :=
    if here.stack.frames.head? = some resources then walk here else (.error e, here)

theorem Probe.guard_unseen (e : TemplateError) : (Probe.guard e).Unseen :=
  ⟨fun _ _ _ hinner => if_pos hinner, fun _ _ _ hinner => if_pos hinner⟩

/-- A server group with a name. -/
def rack (name : String) : Fields Json :=
  [("type", .str ResourceKind.serverGroup.name), ("properties", .single "name" (.str name))]

/-- A server with a group in its scheduler hints. -/
def rackedServer (group : Json) : Fields Json :=
  serverOf [("scheduler_hints", .single "group" group)]

/-- A server that names the group of servers beside it as an item of a parameter. -/
def innerRack : Fields Json :=
  [("node", .obj (rackedServer (.single "get_param" (.arr [.str "rack", .ofNat 1])))),
    ("rack", .obj (rack "inner"))]

/-- A server behind a replica of this template, with another group of servers of the same name. -/
def outerRack : Fields Json :=
  [("rack", .obj (rack "outer")), ("nodes", .obj (replicaGroup (.ofNat 1) "node.yaml")),
    ("vm", .obj (rackedServer (.single "get_param" (.str "rack"))))]

/-- The file of the replica, and a parameter of the same name too. -/
def rackSources : Sources :=
  ⟨Yaml.read?, [("node.yaml", .obj (templateOf innerRack))],
    ⟨[], [("rack", .arr [.str "a", .str "b"])]⟩⟩

/-- The replica and the server behind it are each placed with the group beside them, however it is
spelled. -/
theorem sibling_spellings_agree_of_shadowed :
    let here : Position := ⟨⟨[innerRack, outerRack]⟩, some 0, 4⟩
    (Probe.guard .missingResources).Unseen ∧ here.Innermost innerRack ∧
      Fields.get? innerRack "rack" = some (.obj (rack "inner")) ∧
      (((Probe.guard .missingResources).levels rackSources (depthLimit + 1)).template
          (templateOf outerRack) none).outcome .start =
        .ok [("node_0", .obj (rackedServer (.single "rack" (.obj (rack "inner"))))),
          ("vm", .obj (rackedServer (.single "rack" (.obj (rack "outer")))))] ∧
      ∀ group, NamesSibling group "rack" →
        ((Level.whole rackSources innerRack).schedulerHints (.single "group" group) []).outcome
          here = .ok (.single "group" (.single "rack" (.obj (rack "inner")))) := by
  have hok : (walkTemplate rackSources (templateOf outerRack) none).outcome .start =
      .ok [("node_0", .obj (rackedServer (.single "rack" (.obj (rack "inner"))))),
        ("vm", .obj (rackedServer (.single "rack" (.obj (rack "outer")))))] := by
    decide +kernel
  intro here
  have hinner : here.Innermost innerRack := rfl
  have htarget : Fields.get? innerRack "rack" = some (.obj (rack "inner")) := by decide
  obtain ⟨hprobe, hhints⟩ := sibling_spellings_agree rackSources
  refine ⟨Probe.guard_unseen _, hinner, htarget, ?_, fun group hgroup => ?_⟩
  · rw [Walk.outcome, hprobe _ (Probe.guard_unseen _)]
    exact hok
  · have hsibling : ((Level.whole rackSources innerRack).sibling (rack "inner") []).outcome here =
        .ok (.obj (rack "inner")) := by
      decide +kernel
    rw [Walk.outcome, hhints (.whole rackSources innerRack) here hinner "rack" (rack "inner") []
      htarget (.single "group" group) group rfl hgroup]
    show Walk.outcome _ here = _
    rw [Walk.outcome_map, hsibling]
    rfl

/-- A probe that always fails is seen, around resources and around scheduler hints. -/
example : ∀ probe ∈ [Probe.mk (fun _ _ => throw .recursionLimit) (fun _ walk => walk),
      Probe.mk (fun _ walk => walk) (fun _ _ => throw .recursionLimit)],
    ((probe.levels rackSources (depthLimit + 1)).template (templateOf outerRack) none).outcome
      .start = .error .recursionLimit := by
  decide +kernel

end HeatPlacement.Heat
