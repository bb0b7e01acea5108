import HeatPlacement.Heat.GroupNames
import HeatPlacement.Heat.Walk

/-!
# Resolution of templates

A resolution walks the resources of a template. Properties of the enclosing resource are injected
into nested templates, groups are expanded into numbered replicas, and the few properties that
matter for placement are resolved.

* `Resolver`: how a template and how a single resource is resolved
* `Level`: what is fixed while one template or resource is resolved; its functions are one level
  of the resolution, with the levels below as `Level.deeper`
* `resolver`: so many levels of the resolution
* `walkTemplate`, `walkResource`: the resolution of a template and of a single resource
-/

namespace HeatPlacement.Heat

/-! ### Sources and resolvers -/

/-- The documents of a request: how texts are read, the nested template files, and the scopes of the
parameters. -/
structure Sources where
  reader : Reader
  files : Fields Json
  scopes : Scopes
  deriving Inhabited

/-- The nested template with a name; an absent file and a null one are none. -/
def Sources.nested? (sources : Sources) (name : String) :
    Except TemplateError (Option (Fields Json)) :=
  match Fields.get? sources.files name with
  | none | some .null => .ok none
  | some document => (normalize sources.reader name document).map some

/-- A nested template is read where a document that is not null stands under its name. -/
theorem Sources.nested?_of_get? {sources : Sources} {name : String} {document : Json}
    (h : Fields.get? sources.files name = some document) :
    sources.nested? name =
      if document = .null then .ok none
      else (normalize sources.reader name document).map some := by
  unfold Sources.nested?
  rw [h]
  cases document <;> rfl

theorem Sources.nested?_eq_some_iff {sources : Sources} {name : String}
    {template : Fields Json} :
    sources.nested? name = .ok (some template) ↔
      ∃ document, Fields.get? sources.files name = some document ∧ document ≠ .null ∧
        normalize sources.reader name document = .ok template := by
  cases hfile : Fields.get? sources.files name with
  | none => simp [nested?, hfile]
  | some document =>
    rw [nested?_of_get? hfile]
    by_cases hnull : document = .null
    · simp [hnull]
    · cases hnormal : normalize sources.reader name document <;> simp [hnull, hnormal, Except.map]

/-- How a template and a resource are resolved. -/
structure Resolver where
  /-- Resolve a template, given the injected properties. -/
  template : Fields Json → Option (Fields Json) → Walk (Fields Json)
  /-- Resolve a resource, given the resources beside it and the scope of its parameters. -/
  resource : Fields Json → Fields Json → Fields Json → Walk Json

/-- The resources of a template. -/
def resourcesOf? (template : Fields Json) : Option (Fields Json) :=
  (Fields.get? template "resources").bind Json.asObj?

/-! ### Injected properties and replicas -/

/-- The members of the `properties` of a mapping; none if there are none. -/
def propertiesOf (mapping : Fields Json) : Fields Json :=
  ((Fields.get? mapping "properties").bind Json.asObj?).getD []

/-- The own properties with those of the enclosing resource: added where there is none, and put
in place of one that only points back at its own name. -/
def mergeParent (own parent : Fields Json) : Fields Json :=
  parent.foldl (fun merged (key, value) =>
    match Fields.get? merged key with
    | none => Fields.insert merged key value
    | some old => if isSelfReference old key then Fields.insert merged key value else merged) own

/-- The entries that a resolved resource gives to the result: an interpreted one stands under its
name, and otherwise the interpreted entries in front of the first entry that is no object are
hoisted. -/
def hoisted (name : String) (output : Json) : Fields Json :=
  match output with
  | .obj fields =>
    if (ResourceKind.ofResource? fields).isSome then [(name, output)]
    else
      (fields.takeWhile fun entry => entry.2.asObj?.isSome).filter fun entry =>
        (ResourceKind.ofValue? entry.2).isSome
  | _ => []

/-- The name of a replica. -/
def replicaName (name : String) (cursor : Nat) : String := name ++ "_" ++ toString cursor

/-- The properties that a replica keeps. -/
def keptProperties (resource : Fields Json) : Fields Json :=
  Fields.restrict (propertiesOf resource) replicaProperties

/-- The replica that a resolved nested template gives: its first resource, numbered and with the
properties that a replica keeps; none if there is no resource. -/
def replicaOf? (cursor : Nat) (resolved : Fields Json) : Option (String × Json) :=
  match resolved with
  | (name, .obj resource) :: _ =>
    let kept := Fields.insert resource "properties" (.obj (keptProperties resource))
    some (replicaName name cursor, .obj kept)
  | _ => none

/-- The type of a resource; the empty text if it has none. -/
def typeOf (resource : Fields Json) : String :=
  ((Fields.get? resource "type").bind Json.asStr?).getD ""

/-- The properties of a group that is expanded: one with a `resource_def`. -/
def expandable? (resource : Fields Json) : Option (Fields Json) :=
  ((Fields.get? resource "properties").bind Json.asObj?).filter fun own =>
    (ResourceKind.ofName? (typeOf resource)).any ResourceKind.isGroup &&
      Fields.has own "resource_def"

/-- A count that is an integer. -/
def integerCount (value : Json) : Except TemplateError Nat :=
  match asIndex? value with
  | some n => .ok n
  | none => .error (.invalidCount value)

/-- The number of replicas of a group: a number, a numeric text or a parameter that holds one.
Without a count, or with an unresolved one, it is one. -/
def Scopes.replicaCount (scopes : Scopes) (count : Option Json) (scope : Fields Json) :
    Except TemplateError Nat :=
  match count.getD .null with
  | .null => .ok 1
  | value =>
    match paramName? value with
    | none => integerCount value
    | some name =>
      match (scopes.resolvePlain name (some scope)).getD .null with
      | .null => .ok 1
      | resolved => integerCount resolved

/-! ### One level -/

/-- What is fixed while one template or resource is resolved. -/
structure Level where
  sources : Sources
  /-- The levels below. -/
  deeper : Resolver
  /-- The resources of the template under resolution. -/
  resources : Fields Json

namespace Level

/-- What an evaluation may look at now. -/
def context (level : Level) : Walk Context := Walk.look level.sources.scopes

/-- The nested template with a name. -/
def nested? (level : Level) (name : String) : Walk (Option (Fields Json)) :=
  Walk.ofExcept (level.sources.nested? name)

/-- Resolve a resource beside the present one. -/
def sibling (level : Level) (resource scope : Fields Json) : Walk Json :=
  level.deeper.resource level.resources resource scope

/-- One replica; none if the nested template gives nothing. -/
def replica (level : Level) (nested : Fields Json) (properties scope : Fields Json)
    (cursor : Nat) : Walk (Option (String × Json)) :=
  Walk.withCursor cursor do
    -- The properties are injected as they are; the cursor picks its items inside the template.
    let ctx ← level.context
    let injected := ctx.injected properties (some scope) level.resources
    let resolved ← level.deeper.template nested (some injected)
    pure (replicaOf? cursor resolved)

/-- So many replicas from a cursor on, after those there are. -/
def replicas (level : Level) (nested : Fields Json) (properties scope : Fields Json) :
    Nat → Nat → Fields Json → Walk (Fields Json)
  | 0, _, done => pure done
  | count + 1, cursor, done => do
    let replica ← level.replica nested properties scope cursor
    replicas level nested properties scope count (cursor + 1) (Fields.extend done replica.toList)

/-- The nested template that a `resource_def` names, and the properties it injects. -/
def definition? (properties : Fields Json) : Option (String × Fields Json) := do
  let definition ← (Fields.get? properties "resource_def").bind Json.asObj?
  let type ← (Fields.get? definition "type").bind Json.asStr?
  if namesNestedTemplate type then some (type, propertiesOf definition) else none

/-- The replicas of a group. -/
def expandGroup (level : Level) (properties scope : Fields Json) : Walk Json :=
  match definition? properties with
  | none => pure (.obj [])
  | some (type, injected) => do
    -- A bad count is reported even if the template is missing.
    let count ← Walk.ofExcept
      (level.sources.scopes.replicaCount (Fields.get? properties "count") scope)
    match ← level.nested? type with
    | none => pure (.obj [])
    | some nested => Json.obj <$> level.replicas nested injected scope count 0 []

/-- The `count` property: an integer, or a parameter of the request that holds one. -/
def countProperty (level : Level) (value : Json) : Except TemplateError Json :=
  let resolved :=
    match paramName? value with
    | some name => level.sources.scopes.resolvePlain name none
    | none => some value
  match resolved.bind asIndex? with
  | some n => .ok (.ofNat n)
  | none => .error (.invalidCount value)

/-- The resolved nested template with a name; null if there is none. -/
def nestedValue (level : Level) (name : Option String) (injected : Fields Json) : Walk Json :=
  match name with
  | none => pure .null
  | some name => do
    match ← level.nested? name with
    | none => pure .null
    | some template => Json.obj <$> level.deeper.template template (some injected)

/-- The `resource_def` property: the resolved nested template takes the place of its name. -/
def resourceDefinition (level : Level) (value : Json) (scope : Fields Json) : Walk Json :=
  match value with
  | .obj definition => do
    let ctx ← level.context
    let injected := ctx.injected (propertiesOf definition) (some scope) level.resources
    let nested ←
      level.nestedValue ((Fields.get? definition "type").bind Json.asStr?) injected
    pure (.obj (Fields.insert (Fields.insert definition "type" nested) "properties"
      (.obj injected)))
  | value => pure value

/-- The entry for a cursor of an output of a nested template, as a zone. -/
def outputZone? (scopes : Scopes) (nested : Json) (output : String) (cursor : Nat) :
    Option Json := do
  let outputs ← nested.member? "outputs"
  let values ← ((← outputs.member? output).member? "value").bind Json.asArr?
  let entry ← values[cursor]?
  match paramName? entry with
  | some name => scopes.resolve name none zoneMarker none
  | none =>
    match entry with
    | .str zone => some (.str zone)
    | other => some (.str other.text)

/-- The zone in the outputs of a nested template: under the cursor, the entry of the output that a
pair of a resource and an output name points to. Any other value is kept. -/
def zoneFromOutputs (level : Level) (resolved : Option Json) (scope : Fields Json) :
    Walk (Option Json) :=
  match resolved with
  | some (.arr (.obj target :: .str output :: _)) => do
    let ctx ← level.context
    match ctx.cursor with
    | none => pure none
    | some cursor =>
      (fun nested => outputZone? ctx.scopes nested output cursor) <$> level.sibling target scope
  | resolved => pure resolved

/-- The zone of a `str_replace` with the given parameters. -/
def assignedZone (level : Level) (params scope : Fields Json) : Walk (Option Json) := do
  let ctx ← level.context
  match (Fields.get? params zoneMarker).map Shape.of with
  | some (.reference (.getParam ref)) =>
    -- Only an indexed parameter can point into the outputs of a nested template.
    if ref.index = .absent then
      pure (ctx.scopes.resolve ref.name (some scope) zoneMarker none)
    else
      level.zoneFromOutputs
        (ctx.scopes.resolve ref.name (some scope) zoneMarker
          (ctx.indexOf (some scope) ref.index))
        scope
  | _ => pure none

/-- The zone and the host of a `str_replace`, with the index of the host if it has one. -/
def hostAssignment (level : Level) (body scope : Fields Json) : Walk Json := do
  let params := ((Fields.get? body "params").bind Json.asObj?).getD []
  let zone ← level.assignedZone params scope
  let ctx ← level.context
  let (host, index) := ctx.assignedHost params scope
  pure (.arr ([zone.getD .null, host.getD .null] ++ (index.map Json.ofNat).toList))

/-- The `availability_zone` property: a parameter, which is the unresolved zone without value, or
a `str_replace` of the zone and the host. -/
def availabilityZone (level : Level) (value : Json) (scope : Fields Json) : Walk Json :=
  match Shape.of value with
  | .reference (.getParam ref) => do
    let ctx ← level.context
    let index := ctx.indexOf (some scope) ref.index
    pure ((ctx.scopes.resolve ref.name (some scope) zoneMarker index).getD .null)
  | .reference (.strReplace body) => level.hostAssignment body scope
  | _ => pure value

/-- The `group` of scheduler hints under the name that refers to it. -/
def namedGroup (name : String) (group : Json) : Json := .single "group" (.single name group)

/-- A resource beside the present one if there is one, else the given value. -/
def siblingOr (level : Level) (target : Option (Fields Json)) (scope : Fields Json)
    (otherwise : Json) : Walk Json :=
  match target with
  | some target => level.sibling target scope
  | none => pure otherwise

/-- The `scheduler_hints` property: a group that is referred to is resolved under its name, and
a literal group is copied. A parameter that names a resource on the stack is that resource. -/
def schedulerHints (level : Level) (value : Json) (scope : Fields Json) : Walk Json :=
  match value.member? "group" with
  | none => pure value
  | some group =>
    match Shape.of group with
    | .reference (.getResource name) =>
      namedGroup name <$>
        level.siblingOr ((Fields.get? level.resources name).bind Json.asObj?) scope .null
    | .reference (.getParam ref) => do
      let ctx ← level.context
      namedGroup ref.name <$>
        level.siblingOr ((ctx.stack.find? ref.name).bind Json.asObj?) scope
          ((ctx.scopes.resolvePlain ref.name (some scope)).getD .null)
    | _ => pure (.single "group" group)

/-- The `metadata` property: only the group names are kept. -/
def metadata (level : Level) (value : Json) (scope : Fields Json) : Json :=
  match value with
  | .obj fields =>
    match Fields.get? fields "valet_groups" with
    | none => .obj []
    | some groups =>
      .single "valet_groups"
        (.str (String.ofList (GroupNames.resolve level.sources.scopes scope groups)))
  | value => value

/-- One property; none if it is dropped. -/
def property (level : Level) (scope : Fields Json) (key : String) (value : Json) :
    Walk (Option Json) :=
  match key with
  | "networks" => pure none
  | "count" => some <$> Walk.ofExcept (level.countProperty value)
  | "resource_def" => some <$> level.resourceDefinition value scope
  | "availability_zone" => some <$> level.availabilityZone value scope
  | "scheduler_hints" => some <$> level.schedulerHints value scope
  | "metadata" => pure (some (level.metadata value scope))
  | _ => do
    let ctx ← level.context
    pure (ctx.ordinary? level.resources scope value)

/-- The properties of a resource, in order. -/
def properties (level : Level) (scope properties : Fields Json) : Walk (Fields Json) :=
  properties.foldlM (fun resolved (key, value) => do
    match ← level.property scope key value with
    | some output => pure (Fields.insert resolved key output)
    | none => pure resolved) []

/-- One resource: a group with a `resource_def` gives its replicas, a type that names a template
file gives that template, and any other resource has its properties resolved. -/
def resource (level : Level) (resource scope : Fields Json) : Walk Json :=
  match expandable? resource with
  | some own => level.expandGroup own scope
  | none =>
    if namesNestedTemplate (typeOf resource) then
      (fun template => (template.map Json.obj).getD .null) <$> level.nested? (typeOf resource)
    else
      match (Fields.get? resource "properties").bind Json.asObj? with
      | none => pure (.obj resource)
      | some own =>
        (fun resolved => .obj (Fields.insert resource "properties" (.obj resolved))) <$>
          level.properties scope own

/-- The entries that one resource of the template gives to the result. Server groups count only once
a server refers to them, which at the top none does. -/
def place (level : Level) (parent : Option (Fields Json)) (name : String) (resource : Json) :
    Walk (Fields Json) :=
  match resource with
  | .obj fields =>
    match ResourceKind.ofResource? fields with
    | none => pure []
    | some kind =>
      if kind = .serverGroup ∧ parent = none then pure []
      else do
        let own := propertiesOf fields
        -- The merged properties are resolved, and they are the scope of their own references.
        let merged := (parent.map (mergeParent own)).getD own
        let output ← level.sibling (Fields.insert fields "properties" (.obj merged)) merged
        pure (hoisted name output)
  | _ => pure []

/-- The resources of the template, in order. -/
def template (level : Level) (parent : Option (Fields Json)) : Walk (Fields Json) :=
  level.resources.foldlM (fun resolved (name, resource) => do
    let entries ← level.place parent name resource
    pure (Fields.extend resolved entries)) []

end Level

/-! ### All levels -/

/-- So many levels of the resolution. -/
def resolver (sources : Sources) : Nat → Resolver
  | 0 =>
    { template := fun _ _ => throw .recursionLimit
      resource := fun _ _ _ => throw .recursionLimit }
  | room + 1 =>
    { template := fun template parent =>
        match resourcesOf? template with
        | none => throw .missingResources
        | some resources =>
          Walk.descend (Walk.within resources
            (Level.template ⟨sources, resolver sources room, resources⟩ parent))
      resource := fun resources resource scope =>
        Walk.descend (Level.resource ⟨sources, resolver sources room, resources⟩ resource scope) }

/-- Resolve a template, given the injected properties. One level more than the depth limit is never
used up. -/
def walkTemplate (sources : Sources) :
    Fields Json → Option (Fields Json) → Walk (Fields Json) :=
  (resolver sources (depthLimit + 1)).template

/-- Resolve a resource, given the resources beside it and the scope of its parameters. -/
def walkResource (sources : Sources) :
    Fields Json → Fields Json → Fields Json → Walk Json :=
  (resolver sources (depthLimit + 1)).resource

/-- Resolve a template from outside. -/
def resolveTemplate (sources : Sources) (template : Fields Json) :
    Except TemplateError (Fields Json) :=
  (walkTemplate sources template none).outcome .start

end HeatPlacement.Heat
