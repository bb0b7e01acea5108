import HeatPlacement.Placement.Envelope

/-!
# Submitted requests

What the engine is given, and the documents by which rows are written and removed.

* `PlacementRequest`: the request that stands for an envelope and its resolved resources
* `deletionRequest`: the request to delete a placement
* `insertDocument`, `removeDocument`: the documents for the row store
-/

namespace HeatPlacement

/-- A placement as the engine reads it. -/
structure PlacementRequest where
  region : Option Json
  keystoneUrl : Option Json
  tenantId : Option Json
  serviceInstanceId : Option Json
  vnfId : Option Json
  vnfName : Option Json
  vfModuleId : Option Json
  vfModuleName : Option Json
  resources : Fields Json
  stackName : Option String
  deriving DecidableEq, Repr, Inhabited

namespace PlacementRequest

/-- The request for an envelope, with the resources of its stack request. The stack name is that
of the stack request. -/
def ofEnvelope (envelope : Envelope) (resources : Fields Json) : PlacementRequest where
  region := envelope.regionId
  keystoneUrl := envelope.keystoneUrl
  tenantId := envelope.tenantId
  serviceInstanceId := envelope.serviceInstanceId
  vnfId := envelope.vnfId
  vnfName := envelope.vnfName
  vfModuleId := envelope.vfModuleId
  vfModuleName := envelope.vfModuleName
  resources := resources
  stackName := envelope.heat.bind HeatRequest.stackName

/-- The JSON form. Absent members are null. -/
def toJson (request : PlacementRequest) : Json :=
  let orNull (value : Option Json) : Json := value.getD .null
  .obj [
    ("datacenter", .obj [("id", orNull request.region), ("url", orNull request.keystoneUrl)]),
    ("tenant_id", orNull request.tenantId),
    ("service_instance_id", orNull request.serviceInstanceId),
    ("vnf_instance_id", orNull request.vnfId),
    ("vnf_instance_name", orNull request.vnfName),
    ("vf_module_id", orNull request.vfModuleId),
    ("vf_module_name", orNull request.vfModuleName),
    ("stack", .single "resources" (.obj request.resources)),
    ("stack_name", orNull (request.stackName.map Json.str))]

end PlacementRequest

/-- The request to delete a placement: the data centre, the stack's name (or else that of the
module), and the tenant if there is one. -/
def deletionRequest (body : Json) : Json :=
  let sent (name : String) : Option Json := (body.member? name).bind Envelope.sent
  let stackName := (sent "stack_name").orElse fun _ => sent "vf_module_name"
  .obj ([("datacenter", .single "id" ((sent "region_id").getD .null)),
      ("stack_name", stackName.getD .null)] ++
    ((sent "tenant_id").map fun tenant => ("tenant_id", tenant)).toList)

/-- How the replicas are to agree on a change. -/
def consistency : String × Json := ("consistencyInfo", .single "type" (.str "eventual"))

/-- The document that writes the row of a request, with the milliseconds since the epoch at which
it is submitted. The request goes as its text. -/
def insertDocument (key : String) (timestamp : Nat) (request : Json) : Json :=
  .obj [
    ("values", .obj [("request_id", .str key), ("timestamp", .ofNat timestamp),
      ("request", .str request.text)]),
    consistency]

/-- The document that removes a row. -/
def removeDocument : Json := .obj [consistency]

end HeatPlacement
