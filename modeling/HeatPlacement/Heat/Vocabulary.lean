import HeatPlacement.Json.Basic

/-!
# The vocabulary of Heat templates

Resource types, property names and the markers inside a `str_replace`.

* `ResourceKind`: the types that are interpreted, with their names
* `ResourceKind.ofResource?`: the kind of a resource
* `namesNestedTemplate`: whether a type names a template file
-/

namespace HeatPlacement.Heat

/-- The resource types that are interpreted; all others are skipped. -/
inductive ResourceKind where
  | server
  | serverGroup
  | resourceGroup
  deriving DecidableEq, Repr, Inhabited

namespace ResourceKind

/-- The name of the type in a template. -/
def name : ResourceKind → String
  | .server => "OS::Nova::Server"
  | .serverGroup => "OS::Nova::ServerGroup"
  | .resourceGroup => "OS::Heat::ResourceGroup"

/-- The kind with a name. -/
def ofName? (type : String) : Option ResourceKind :=
  if type = server.name then some .server
  else if type = serverGroup.name then some .serverGroup
  else if type = resourceGroup.name then some .resourceGroup
  else none

@[simp] theorem ofName?_name (kind : ResourceKind) : ofName? kind.name = some kind := by
  cases kind <;> decide

theorem ofName?_eq_some_iff {type : String} {kind : ResourceKind} :
    ofName? type = some kind ↔ type = kind.name := by
  constructor
  · intro h
    unfold ofName? at h
    split at h
    · cases h; assumption
    · split at h
      · cases h; assumption
      · split at h
        · cases h; assumption
        · cases h
  · rintro rfl
    exact ofName?_name kind

/-- Whether a resource of this kind may expand a `resource_def` into replicas. -/
def isGroup : ResourceKind → Bool
  | .server => false
  | .serverGroup | .resourceGroup => true

/-- The kind of a resource, read off its `type`. -/
def ofResource? (resource : Fields Json) : Option ResourceKind :=
  ((Fields.get? resource "type").bind Json.asStr?).bind ofName?

/-- The kind of a resource that stands as a value; other values than mappings have none. -/
def ofValue? (value : Json) : Option ResourceKind := value.asObj?.bind ofResource?

end ResourceKind

/-- Whether a type names a nested template file rather than a Heat type. -/
def namesNestedTemplate (type : String) : Bool := type.endsWith ".yaml"

/-- The `$AZ` marker: the availability zone inside a `str_replace`. -/
def zoneMarker : String := "$AZ"

/-- The `$VALET_HOST_ASSIGNMENT` marker: the host assignment inside a `str_replace`. -/
def hostMarker : String := "$VALET_HOST_ASSIGNMENT"

/-- What stands for an availability zone that no scope knows. -/
def unresolvedZone : Json := .str "None"

/-- The properties that a replica keeps. -/
def replicaProperties : List String :=
  ["name", "flavor", "image", "metadata", "availability_zone", "scheduler_hints"]

end HeatPlacement.Heat
