import HeatPlacement.Placement.Polling
import HeatPlacement.Placement.Response

/-!
# The placement service

* `prepare`: the request for an envelope, before any store call
* `Service.place`: creations and updates
* `Service.forward`, `Service.relay`: requests that go to the engine as they are
* `Service.ping`: whether the store answers
-/

namespace HeatPlacement

/-- Why a placement is not submitted, or the store not reached. -/
inductive PlacementError where
  /-- The body is no envelope. -/
  | malformed (cause : DecodeError)
  /-- The envelope has no stack request. -/
  | noHeatRequest
  /-- The stack request does not resolve. -/
  | template (cause : Heat.TemplateError)
  | store (cause : StoreError)
  deriving DecidableEq, Repr, Inhabited

/-- The wording of an error. -/
def PlacementError.message : PlacementError → String
  | .malformed cause => "malformed placement envelope: " ++ cause.message
  | .noHeatRequest => "malformed placement envelope: heat_request is missing"
  | .template cause => "template error: " ++ cause.message
  | .store cause => "store error: " ++ cause.message

/-- What came of an operation. -/
inductive PlacementOutcome where
  | delivered (response : Response)
  | missingFields (names : List String)
  | timedOut
  deriving DecidableEq, Repr, Inhabited

/-- What a body asks for. -/
inductive Preparation where
  /-- Required identifiers say nothing. -/
  | incomplete (names : List String)
  /-- The request, and the caller's parameters for the response. -/
  | ready (request : Json) (parameters : Fields Json)
  deriving DecidableEq, Repr, Inhabited

/-- Read an envelope and resolve its stack request. Missing identifiers come before a missing
stack request. -/
def prepare (body : Json) : Except PlacementError Preparation :=
  match Envelope.decode body with
  | .error cause => .error (.malformed cause)
  | .ok envelope =>
    -- Nothing is resolved for an envelope that is incomplete.
    if envelope.missing.isEmpty then
      match envelope.heat with
      | none => .error .noHeatRequest
      | some heat =>
        match heat.resolve with
        | .error cause => .error (.template cause)
        | .ok resources =>
          .ok (.ready (PlacementRequest.ofEnvelope envelope resources).toJson heat.parameters)
    else .ok (.incomplete envelope.missing)

/-- The row that says whether the store answers. -/
def pingKey : String := "pingRequest"

/-- The filter of a group query: name and data centre, where both are given. -/
def groupFilter (name datacenterId : Option String) : Json :=
  match name, datacenterId with
  | some name, some datacenterId =>
    .obj [("name", .str name), ("datacenter_id", .str datacenterId)]
  | _, _ => .obj []

/-- A service over a store. Its waits are taken to end before the clock and the counter of the
questions do. -/
structure Service (σ : Type) where
  store : Store σ
  settings : Polling.Settings

namespace Service

variable {σ : Type}

/-- Submit a request and turn its result row into a response. -/
def submit (service : Service σ) (respond : Json → Response) (operation : Operation)
    (request : Json) (requestId : String) (timestamp : Nat) (state : σ) :
    Run σ PlacementOutcome :=
  (submitAndPoll service.settings service.store operation requestId timestamp request state).map
    fun
      | .delivered row => .delivered (respond row)
      | .timedOut => .timedOut

/-- Create or update a placement. Nothing is submitted unless the whole request resolves. -/
def place (service : Service σ) (operation : Operation) (body : Json) (requestId : String)
    (timestamp : Nat) (state : σ) : Run σ (Except PlacementError PlacementOutcome) :=
  match prepare body with
  | .error e => .still (.error e) state
  | .ok (.incomplete names) => .still (.ok (.missingFields names)) state
  | .ok (.ready request parameters) =>
    (service.submit (Response.ofPlacement · parameters) operation request requestId timestamp
      state).map .ok

/-- Submit a request whose response is the status alone. -/
def forward (service : Service σ) (operation : Operation) (request : Json) (requestId : String)
    (timestamp : Nat) (state : σ) : Run σ PlacementOutcome :=
  service.submit Response.ofStatus operation request requestId timestamp state

/-- Submit a request whose response is the result row. -/
def relay (service : Service σ) (operation : Operation) (request : Json) (requestId : String)
    (timestamp : Nat) (state : σ) : Run σ PlacementOutcome :=
  service.submit .json operation request requestId timestamp state

/-- Delete a placement. -/
def delete (service : Service σ) (body : Json) (requestId : String) (timestamp : Nat)
    (state : σ) : Run σ PlacementOutcome :=
  service.forward .delete (deletionRequest body) requestId timestamp state

/-- Query groups. -/
def queryGroups (service : Service σ) (name datacenterId : Option String) (requestId : String)
    (timestamp : Nat) (state : σ) : Run σ PlacementOutcome :=
  service.relay .groupQuery (groupFilter name datacenterId) requestId timestamp state

/-- Perform an operation on a body. -/
def perform (service : Service σ) (operation : Operation) (body : Json) (requestId : String)
    (timestamp : Nat) (state : σ) : Run σ (Except PlacementError PlacementOutcome) :=
  match operation with
  | .create | .update => service.place operation body requestId timestamp state
  | .delete => (service.delete body requestId timestamp state).map .ok
  | .confirm | .rollback => (service.forward operation body requestId timestamp state).map .ok
  | .groupQuery | .groupCreate | .groupUpdate | .groupDelete =>
    (service.relay operation body requestId timestamp state).map .ok

/-- Read the row that says whether the store answers. -/
def ping (service : Service σ) (state : σ) : Run σ (Except PlacementError (Option Json)) :=
  let call := StoreCall.get .requests pingKey
  let (answer, next) := service.store call state
  (Run.still (answer.mapError .store) next).after 0 call

end Service

end HeatPlacement
