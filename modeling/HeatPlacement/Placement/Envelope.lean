import HeatPlacement.Heat.Request

/-!
# Placement envelopes

What the orchestrator sends to create or update a placement: identifiers of the data centre, the
tenant and the network function, and the stack request.

* `Envelope.decode`, `Envelope.toJson`: its form as JSON
* `Envelope.field`: an identifier by its name
* `Envelope.missing`: the required identifiers that are absent or empty
-/

namespace HeatPlacement

/-- A request to create or update a placement. Identifiers keep whatever value was sent. -/
structure Envelope where
  regionId : Option Json
  keystoneUrl : Option Json
  tenantId : Option Json
  serviceInstanceId : Option Json
  vnfId : Option Json
  vnfName : Option Json
  vfModuleId : Option Json
  vfModuleName : Option Json
  stackName : Option Json
  heat : Option HeatRequest
  deriving DecidableEq, Repr, Inhabited

namespace Envelope

/-- The envelope without any member. -/
def empty : Envelope := ⟨none, none, none, none, none, none, none, none, none, none⟩

/-- The identifiers that every envelope has to hold. -/
def requiredNames : List String :=
  ["region_id", "keystone_url", "tenant_id", "service_instance_id", "vnf_id", "vnf_name",
    "vf_module_id", "vf_module_name"]

/-- The members, in the order of their declaration. -/
def memberNames : List String := requiredNames ++ ["stack_name", "heat_request"]

/-- The identifier under a name. -/
def field (envelope : Envelope) (name : String) : Option Json :=
  match name with
  | "region_id" => envelope.regionId
  | "keystone_url" => envelope.keystoneUrl
  | "tenant_id" => envelope.tenantId
  | "service_instance_id" => envelope.serviceInstanceId
  | "vnf_id" => envelope.vnfId
  | "vnf_name" => envelope.vnfName
  | "vf_module_id" => envelope.vfModuleId
  | "vf_module_name" => envelope.vfModuleName
  | "stack_name" => envelope.stackName
  | _ => none

/-- An identifier as it was sent; null is none. -/
def sent (value : Json) : Option Json := if value.isNull then none else some value

/-- Set one member. -/
def set (envelope : Envelope) (name : String) (value : Json) : Except DecodeError Envelope :=
  match name with
  | "region_id" => .ok { envelope with regionId := sent value }
  | "keystone_url" => .ok { envelope with keystoneUrl := sent value }
  | "tenant_id" => .ok { envelope with tenantId := sent value }
  | "service_instance_id" => .ok { envelope with serviceInstanceId := sent value }
  | "vnf_id" => .ok { envelope with vnfId := sent value }
  | "vnf_name" => .ok { envelope with vnfName := sent value }
  | "vf_module_id" => .ok { envelope with vfModuleId := sent value }
  | "vf_module_name" => .ok { envelope with vfModuleName := sent value }
  | "stack_name" => .ok { envelope with stackName := sent value }
  | "heat_request" =>
    (Decode.optional HeatRequest.decode value).map fun heat => { envelope with heat := heat }
  | _ => .ok envelope

/-- The envelope that a value holds. -/
def decode : Json → Except DecodeError Envelope :=
  Decode.record "struct PlacementEnvelope" memberNames set empty

/-- The JSON form. Absent members are left out. -/
def toJson (envelope : Envelope) : Json :=
  .obj ((requiredNames ++ ["stack_name"]).filterMap (fun name =>
      (envelope.field name).map fun value => (name, value)) ++
    (envelope.heat.map fun heat => ("heat_request", heat.toJson)).toList)

/-- Whether an identifier says nothing: it is absent, null or the empty string. -/
def isBlank : Option Json → Bool
  | none | some .null => true
  | some (.str s) => s.isEmpty
  | some _ => false

/-- The required identifiers that say nothing, in the order of their declaration. -/
def missing (envelope : Envelope) : List String :=
  requiredNames.filter fun name => isBlank (envelope.field name)

/-- What a caller is told about missing identifiers. -/
def requiredMessage (names : List String) : String :=
  "RequiredFields : [" ++ ", ".intercalate names ++ "]"

end Envelope

end HeatPlacement
