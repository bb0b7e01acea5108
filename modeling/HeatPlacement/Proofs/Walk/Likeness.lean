import HeatPlacement.Heat.Resolution

/-!
# Likenesses of walks

A resolution sees its documents and its position through look-ups only: of a parameter, of a nested
template, of a resource by its name. Where two sides answer these look-ups alike, each function of
one level does the same on both.

* `Context.Alike`, `Sources.Alike`: contexts and documents that answer look-ups alike
* `Context.Alike.evaluate`, `Context.Alike.ordinary?`: **evaluation is the same** in them
* `Walk.Likeness`: a relation between walks that every step of a walk respects
* `Walk.Likeness.level_template`, `Walk.Likeness.level_resource`: **a level inherits** the relation
  from the levels below
* `resolver_eq_of_alike`: **a resolution sees documents through look-ups only**
-/

namespace HeatPlacement.Heat

/-! ### Scopes and contexts -/

section Scopes

variable {scopes scopes' : Scopes} (h : scopes.resolve = scopes'.resolve)

include h

theorem Scopes.resolvePlain_congr : scopes.resolvePlain = scopes'.resolvePlain := by
  funext key parent
  rw [Scopes.resolvePlain, Scopes.resolvePlain, h]

theorem Scopes.replicaCount_congr : scopes.replicaCount = scopes'.replicaCount := by
  funext count scope
  simp only [Scopes.replicaCount, Scopes.resolvePlain_congr h]

theorem GroupNames.resolve_congr : GroupNames.resolve scopes = GroupNames.resolve scopes' := by
  have hitem : GroupNames.itemText scopes = GroupNames.itemText scopes' := by
    funext scope item
    simp only [GroupNames.itemText, Scopes.resolvePlain_congr h]
  funext scope value
  cases value <;> simp only [GroupNames.resolve, hitem]

end Scopes

/-- **Contexts alike**: they answer look-ups alike, under the same cursor. -/
structure Context.Alike (ctx ctx' : Context) : Prop where
  resolve : ctx.scopes.resolve = ctx'.scopes.resolve
  find? : ctx.stack.find? = ctx'.stack.find?
  cursor : ctx.cursor = ctx'.cursor

namespace Context.Alike

variable {ctx ctx' : Context} (h : ctx.Alike ctx')

theorem refl (ctx : Context) : ctx.Alike ctx := ⟨rfl, rfl, rfl⟩

include h

theorem indexOf : ctx.indexOf = ctx'.indexOf := by
  funext parent index
  cases index <;> simp only [Context.indexOf, Scopes.resolvePlain_congr h.resolve, h.cursor]

theorem getParam : ctx.getParam = ctx'.getParam := by
  funext ref parent mode
  simp only [Context.getParam, h.indexOf, Scopes.resolvePlain_congr h.resolve, h.resolve, h.cursor]

theorem getAttr : ctx.getAttr = ctx'.getAttr := by
  funext path
  unfold Context.getAttr
  rw [h.find?]

theorem assignedHost : ctx.assignedHost = ctx'.assignedHost := by
  funext params scope
  simp only [Context.assignedHost, h.indexOf, h.resolve]

variable {resources resources' : Fields Json}
  (hresources : Fields.get? resources = Fields.get? resources')

include hresources

/-- **The value of a call** is the same. -/
theorem evaluate (call : Intrinsic) (parent : Option (Fields Json)) (mode : CursorMode) :
    ctx.evaluate call resources parent mode = ctx'.evaluate call resources' parent mode := by
  cases call <;>
    simp only [Context.evaluate, Context.strReplace, h.getParam, h.getAttr, hresources]

theorem injected (properties : Fields Json) (parent : Option (Fields Json)) :
    ctx.injected properties parent resources = ctx'.injected properties parent resources' := by
  simp only [Context.injected, h.evaluate hresources]

/-- **The value of an ordinary property** is the same. -/
theorem ordinary? (scope : Fields Json) (value : Json) :
    ctx.ordinary? resources scope value = ctx'.ordinary? resources' scope value := by
  simp only [Context.ordinary?, h.evaluate hresources]

end Context.Alike

/-- **Documents alike**: every parameter has the same value, and every name leads to the same
template. -/
structure Sources.Alike (sources sources' : Sources) : Prop where
  resolve : sources.scopes.resolve = sources'.scopes.resolve
  nested? : sources.nested? = sources'.nested?

theorem Sources.Alike.refl (sources : Sources) : sources.Alike sources := ⟨rfl, rfl⟩

/-! ### Known results

Only the guard on the depth fails with the depth limit. -/

theorem normalize_ne_recursionLimit (reader : Reader) (source : String) (document : Json) :
    normalize reader source document ≠ .error .recursionLimit := by
  have hmapping : ∀ value, asMapping source value ≠ .error .recursionLimit := by
    intro value h
    cases value <;> cases h
  unfold normalize
  split
  · split
    · exact nofun
    · split
      · exact hmapping _
      · exact nofun
  · exact hmapping _

theorem Sources.nested?_ne_recursionLimit (sources : Sources) (name : String) :
    sources.nested? name ≠ .error .recursionLimit := by
  unfold Sources.nested?
  split
  · exact nofun
  · exact nofun
  · rename_i document _ _
    intro h
    cases hdocument : normalize sources.reader name document with
    | error e =>
      rw [hdocument] at h
      cases h
      exact normalize_ne_recursionLimit sources.reader name document hdocument
    | ok fields =>
      rw [hdocument] at h
      cases h

theorem integerCount_ne_recursionLimit (value : Json) :
    integerCount value ≠ .error .recursionLimit := by
  unfold integerCount
  split <;> exact nofun

theorem Scopes.replicaCount_ne_recursionLimit (scopes : Scopes) (count : Option Json)
    (scope : Fields Json) : scopes.replicaCount count scope ≠ .error .recursionLimit := by
  unfold Scopes.replicaCount
  split
  · exact nofun
  · split
    · exact integerCount_ne_recursionLimit _
    · split
      · exact nofun
      · exact integerCount_ne_recursionLimit _

theorem Level.countProperty_ne_recursionLimit (level : Level) (value : Json) :
    level.countProperty value ≠ .error .recursionLimit := by
  unfold Level.countProperty
  dsimp only
  split <;> exact nofun

/-! ### A resource, property by property -/

namespace Level

/-- The properties of a resource, in order, given how one property is resolved. -/
def propertiesWith (property : String → Json → Walk (Option Json)) (own : Fields Json) :
    Walk (Fields Json) :=
  own.foldlM (fun resolved (key, value) => do
    match ← property key value with
    | some output => pure (Fields.insert resolved key output)
    | none => pure resolved) []

/-- One resource, given how its properties are resolved. -/
def resourceWith (level : Level) (properties : Fields Json → Walk (Fields Json))
    (resource scope : Fields Json) : Walk Json :=
  match expandable? resource with
  | some own => level.expandGroup own scope
  | none =>
    if namesNestedTemplate (typeOf resource) then
      (fun template => (template.map Json.obj).getD .null) <$> level.nested? (typeOf resource)
    else
      match (Fields.get? resource "properties").bind Json.asObj? with
      | none => pure (.obj resource)
      | some own =>
        (fun resolved => .obj (Fields.insert resource "properties" (.obj resolved))) <$>
          properties own

/-- A resource is resolved with its properties resolved one by one. -/
theorem resource_eq_resourceWith (level : Level) (resource scope : Fields Json) :
    level.resource resource scope =
      level.resourceWith (propertiesWith (level.property scope)) resource scope := rfl

end Level

namespace Walk

/-- **A likeness**: a relation between walks with the same kind of answer that every step of a walk
respects. The walks may look at different scopes. -/
structure Likeness (scopes scopes' : Scopes) where
  /-- The relation. -/
  Rel : {α : Type} → Walk α → Walk α → Prop
  /-- A known result is related to itself; it is never the depth limit. -/
  ofExcept : ∀ {α : Type} (result : Except TemplateError α), result ≠ .error .recursionLimit →
    Rel (ofExcept result) (ofExcept result)
  /-- Walks that go on alike from contexts alike are related. -/
  look : ∀ {α : Type} {next next' : Context → Walk α},
    (∀ ctx ctx', ctx.Alike ctx' → Rel (next ctx) (next' ctx')) →
      Rel (look scopes >>= next) (look scopes' >>= next')
  /-- Related walks with related continuations are related. -/
  bind : ∀ {α β : Type} {walk walk' : Walk α} {next next' : α → Walk β}, Rel walk walk' →
    (∀ a, Rel (next a) (next' a)) → Rel (walk >>= next) (walk' >>= next')
  /-- Related walks are related for a replica. -/
  withCursor : ∀ {α : Type} {walk walk' : Walk α} (cursor : Nat), Rel walk walk' →
    Rel (withCursor cursor walk) (withCursor cursor walk')

namespace Likeness

section Steps

variable {scopes scopes' : Scopes} (R : Likeness scopes scopes') {α β : Type}

/-- An answer without a step is related to itself. -/
theorem pure (a : α) : R.Rel (Pure.pure a) (Pure.pure a) := R.ofExcept (.ok a) nofun

/-- Related walks are related under a function of their answers. -/
theorem map (f : α → β) {walk walk' : Walk α} (h : R.Rel walk walk') :
    R.Rel (f <$> walk) (f <$> walk') := by
  rw [map_eq_pure_bind, map_eq_pure_bind]
  exact R.bind h fun a => R.pure (f a)

/-- Folds of related steps over the same list are related. -/
theorem foldlM {step step' : β → α → Walk β} (h : ∀ b a, R.Rel (step b a) (step' b a))
    (items : List α) (start : β) :
    R.Rel (items.foldlM step start) (items.foldlM step' start) := by
  induction items generalizing start with
  | nil => exact R.pure start
  | cons item rest ih =>
    rw [List.foldlM_cons, List.foldlM_cons]
    exact R.bind (h start item) ih

/-- Properties inherit the relation one by one. -/
theorem propertiesWith {property property' : String → Json → Walk (Option Json)}
    (h : ∀ key value, R.Rel (property key value) (property' key value)) (own : Fields Json) :
    R.Rel (Level.propertiesWith property own) (Level.propertiesWith property' own) := by
  refine R.foldlM (fun resolved entry => ?_) _ _
  refine R.bind (h entry.1 entry.2) fun output => ?_
  cases output with
  | none => exact R.pure _
  | some output => exact R.pure _

end Steps

/-! ### One level

The two levels are over documents alike, and the resources of one are found under the same names
among those of the other. -/

variable {sources sources' : Sources} (R : Likeness sources.scopes sources'.scopes)
  (hsources : sources.Alike sources') {deeper deeper' : Resolver}
  {resources resources' : Fields Json}
  (hresources : Fields.get? resources = Fields.get? resources')

section Templates

variable (template : ∀ nested parent, R.Rel (deeper.template nested parent)
  (deeper'.template nested parent))

include hsources in
/-- A nested template inherits the relation. -/
theorem level_nested? (name : String) :
    R.Rel (Level.nested? ⟨sources, deeper, resources⟩ name)
      (Level.nested? ⟨sources', deeper', resources'⟩ name) := by
  unfold Level.nested?
  rw [← hsources.nested?]
  exact R.ofExcept _ (Sources.nested?_ne_recursionLimit sources name)

include hresources template

/-- One replica inherits the relation. -/
theorem level_replica (nested properties scope : Fields Json) (cursor : Nat) :
    R.Rel (Level.replica ⟨sources, deeper, resources⟩ nested properties scope cursor)
      (Level.replica ⟨sources', deeper', resources'⟩ nested properties scope cursor) := by
  unfold Level.replica Level.context
  refine R.withCursor cursor (R.look fun ctx ctx' hctx => ?_)
  dsimp only
  rw [hctx.injected hresources]
  exact R.bind (template _ _) fun resolved => R.pure _

/-- The replicas of a group inherit the relation. -/
theorem level_replicas (nested properties scope : Fields Json) (count cursor : Nat)
    (done : Fields Json) :
    R.Rel (Level.replicas ⟨sources, deeper, resources⟩ nested properties scope count cursor done)
      (Level.replicas ⟨sources', deeper', resources'⟩ nested properties scope count cursor
        done) := by
  induction count generalizing cursor done with
  | zero => exact R.pure done
  | succ count ih =>
    unfold Level.replicas
    refine R.bind (R.level_replica hresources template nested properties scope cursor) ?_
    exact fun _ => ih _ _

include hsources

/-- The expansion of a group inherits the relation. -/
theorem level_expandGroup (properties scope : Fields Json) :
    R.Rel (Level.expandGroup ⟨sources, deeper, resources⟩ properties scope)
      (Level.expandGroup ⟨sources', deeper', resources'⟩ properties scope) := by
  unfold Level.expandGroup
  cases Level.definition? properties with
  | none => exact R.pure _
  | some definition =>
    dsimp only
    rw [← Scopes.replicaCount_congr hsources.resolve]
    refine R.bind (R.ofExcept _ (Scopes.replicaCount_ne_recursionLimit _ _ _)) fun count => ?_
    refine R.bind (R.level_nested? hsources _) fun nested => ?_
    cases nested with
    | none => exact R.pure _
    | some nested =>
      exact R.map _ (R.level_replicas hresources template nested _ scope count 0 [])

/-- A `resource_def` property inherits the relation. -/
theorem level_resourceDefinition (value : Json) (scope : Fields Json) :
    R.Rel (Level.resourceDefinition ⟨sources, deeper, resources⟩ value scope)
      (Level.resourceDefinition ⟨sources', deeper', resources'⟩ value scope) := by
  have nestedValue : ∀ name injected,
      R.Rel (Level.nestedValue ⟨sources, deeper, resources⟩ name injected)
        (Level.nestedValue ⟨sources', deeper', resources'⟩ name injected) := by
    intro name injected
    cases name with
    | none => exact R.pure _
    | some name =>
      refine R.bind (R.level_nested? hsources name) fun nested => ?_
      cases nested with
      | none => exact R.pure _
      | some nested => exact R.map _ (template _ _)
  unfold Level.resourceDefinition Level.context
  cases value with
  | obj definition =>
    refine R.look fun ctx ctx' hctx => ?_
    dsimp only
    rw [hctx.injected hresources]
    exact R.bind (nestedValue _ _) fun _ => R.pure _
  | _ => exact R.pure _

end Templates

section Siblings

variable (resource : ∀ target scope, R.Rel (deeper.resource resources target scope)
  (deeper'.resource resources' target scope))

include resource

/-- An `availability_zone` property inherits the relation. -/
theorem level_availabilityZone (value : Json) (scope : Fields Json) :
    R.Rel (Level.availabilityZone ⟨sources, deeper, resources⟩ value scope)
      (Level.availabilityZone ⟨sources', deeper', resources'⟩ value scope) := by
  have zoneFromOutputs : ∀ resolved,
      R.Rel (Level.zoneFromOutputs ⟨sources, deeper, resources⟩ resolved scope)
        (Level.zoneFromOutputs ⟨sources', deeper', resources'⟩ resolved scope) := by
    intro resolved
    unfold Level.zoneFromOutputs Level.context
    split
    · refine R.look fun ctx ctx' hctx => ?_
      have houtput : Level.outputZone? ctx.scopes = Level.outputZone? ctx'.scopes := by
        funext nested output cursor
        simp only [Level.outputZone?, hctx.resolve]
      rw [hctx.cursor, houtput]
      cases ctx'.cursor with
      | none => exact R.pure _
      | some cursor => exact R.map _ (resource _ scope)
    · exact R.pure _
  have assignedZone : ∀ params,
      R.Rel (Level.assignedZone ⟨sources, deeper, resources⟩ params scope)
        (Level.assignedZone ⟨sources', deeper', resources'⟩ params scope) := by
    intro params
    unfold Level.assignedZone Level.context
    refine R.look fun ctx ctx' hctx => ?_
    rw [hctx.resolve, hctx.indexOf]
    split
    · split
      · exact R.pure _
      · exact zoneFromOutputs _
    · exact R.pure _
  unfold Level.availabilityZone Level.hostAssignment Level.context
  split
  · refine R.look fun ctx ctx' hctx => ?_
    dsimp only
    rw [hctx.resolve, hctx.indexOf]
    exact R.pure _
  · refine R.bind (assignedZone _) fun zone => R.look fun ctx ctx' hctx => ?_
    rw [hctx.assignedHost]
    exact R.pure _
  · exact R.pure _

include hresources in
/-- A `scheduler_hints` property inherits the relation. -/
theorem level_schedulerHints (value : Json) (scope : Fields Json) :
    R.Rel (Level.schedulerHints ⟨sources, deeper, resources⟩ value scope)
      (Level.schedulerHints ⟨sources', deeper', resources'⟩ value scope) := by
  have siblingOr : ∀ target otherwise,
      R.Rel (Level.siblingOr ⟨sources, deeper, resources⟩ target scope otherwise)
        (Level.siblingOr ⟨sources', deeper', resources'⟩ target scope otherwise) := by
    intro target otherwise
    cases target with
    | none => exact R.pure _
    | some target => exact resource target scope
  unfold Level.schedulerHints Level.context
  cases value.member? "group" with
  | none => exact R.pure _
  | some group =>
    dsimp only
    split
    · rw [hresources]
      exact R.map _ (siblingOr _ _)
    · refine R.look fun ctx ctx' hctx => ?_
      rw [hctx.find?, Scopes.resolvePlain_congr hctx.resolve]
      exact R.map _ (siblingOr _ _)
    · exact R.pure _

/-- What one resource of a template gives to the result inherits the relation. -/
theorem level_place (parent : Option (Fields Json)) (name : String) (value : Json) :
    R.Rel (Level.place ⟨sources, deeper, resources⟩ parent name value)
      (Level.place ⟨sources', deeper', resources'⟩ parent name value) := by
  unfold Level.place
  split
  · split
    · exact R.pure _
    · split
      · exact R.pure _
      · exact R.bind (resource _ _) fun output => R.pure _
  · exact R.pure _

end Siblings

/-- **A template inherits the relation** from the resources below. -/
theorem level_template
    (resource : ∀ target scope, R.Rel (deeper.resource resources target scope)
      (deeper'.resource resources target scope)) (parent : Option (Fields Json)) :
    R.Rel (Level.template ⟨sources, deeper, resources⟩ parent)
      (Level.template ⟨sources', deeper', resources⟩ parent) :=
  R.foldlM (fun _ _ => R.bind (R.level_place resource parent _ _) fun _ => R.pure _) _ _

include hsources hresources

/-- One property inherits the relation. -/
theorem level_property
    (template : ∀ nested parent, R.Rel (deeper.template nested parent)
      (deeper'.template nested parent))
    (resource : ∀ target scope, R.Rel (deeper.resource resources target scope)
      (deeper'.resource resources' target scope))
    (scope : Fields Json) (key : String) (value : Json) :
    R.Rel (Level.property ⟨sources, deeper, resources⟩ scope key value)
      (Level.property ⟨sources', deeper', resources'⟩ scope key value) := by
  have hcount : Level.countProperty ⟨sources, deeper, resources⟩ value =
      Level.countProperty ⟨sources', deeper', resources'⟩ value := by
    simp only [Level.countProperty, Scopes.resolvePlain_congr hsources.resolve]
  have hmetadata : Level.metadata ⟨sources, deeper, resources⟩ value scope =
      Level.metadata ⟨sources', deeper', resources'⟩ value scope := by
    simp only [Level.metadata, GroupNames.resolve_congr hsources.resolve]
  unfold Level.property Level.context
  split
  · exact R.pure _
  · rw [hcount]
    exact R.map _ (R.ofExcept _ (Level.countProperty_ne_recursionLimit _ _))
  · exact R.map _ (R.level_resourceDefinition hsources hresources template value scope)
  · exact R.map _ (R.level_availabilityZone resource value scope)
  · exact R.map _ (R.level_schedulerHints hresources resource value scope)
  · rw [hmetadata]
    exact R.pure _
  · refine R.look fun ctx ctx' hctx => ?_
    rw [hctx.ordinary? hresources]
    exact R.pure _

/-- A resource inherits the relation from its properties and the templates below. -/
theorem level_resourceWith
    (template : ∀ nested parent, R.Rel (deeper.template nested parent)
      (deeper'.template nested parent))
    {properties properties' : Fields Json → Walk (Fields Json)}
    (h : ∀ own, R.Rel (properties own) (properties' own)) (target scope : Fields Json) :
    R.Rel (Level.resourceWith ⟨sources, deeper, resources⟩ properties target scope)
      (Level.resourceWith ⟨sources', deeper', resources'⟩ properties' target scope) := by
  unfold Level.resourceWith
  split
  · exact R.level_expandGroup hsources hresources template _ scope
  · split
    · exact R.map _ (R.level_nested? hsources _)
    · split
      · exact R.pure _
      · exact R.map _ (h _)

/-- **A resource inherits the relation** from the templates and resources below. -/
theorem level_resource
    (template : ∀ nested parent, R.Rel (deeper.template nested parent)
      (deeper'.template nested parent))
    (resource : ∀ target scope, R.Rel (deeper.resource resources target scope)
      (deeper'.resource resources' target scope))
    (target scope : Fields Json) :
    R.Rel (Level.resource ⟨sources, deeper, resources⟩ target scope)
      (Level.resource ⟨sources', deeper', resources'⟩ target scope) :=
  R.level_resourceWith hsources hresources template
    (R.propertiesWith (R.level_property hsources hresources template resource scope)) target scope

/-- Walks that are the same, over scopes that resolve alike. -/
def eq {scopes scopes' : Scopes} (h : scopes.resolve = scopes'.resolve) :
    Likeness scopes scopes' where
  Rel := Eq
  ofExcept _ _ := rfl
  look hnext := funext fun here =>
    congrFun (hnext ⟨_, here.stack, here.cursor⟩ ⟨_, here.stack, here.cursor⟩ ⟨h, rfl, rfl⟩) here
  bind hwalk hnext := by rw [hwalk, funext hnext]
  withCursor _ hwalk := by rw [hwalk]

end Likeness

end Walk

/-- **A resolution sees documents through look-ups only**: over documents alike it is the same, on
every number of levels. -/
theorem resolver_eq_of_alike {sources sources' : Sources} (h : sources.Alike sources')
    (room : Nat) : resolver sources room = resolver sources' room := by
  induction room with
  | zero => rfl
  | succ room ih =>
    let R := Walk.Likeness.eq h.resolve
    have htemplate : ∀ resources, Level.template ⟨sources, resolver sources' room, resources⟩ =
        Level.template ⟨sources', resolver sources' room, resources⟩ :=
      fun resources => funext (R.level_template fun _ _ => rfl)
    have hresource : ∀ resources, Level.resource ⟨sources, resolver sources' room, resources⟩ =
        Level.resource ⟨sources', resolver sources' room, resources⟩ :=
      fun resources => funext fun target =>
        funext (R.level_resource h rfl (fun _ _ => rfl) (fun _ _ => rfl) target)
    simp only [resolver, ih, htemplate, hresource]

end HeatPlacement.Heat
