import HeatPlacement.Api.Form
import HeatPlacement.Api.MediaType
import HeatPlacement.Api.Route
import HeatPlacement.Http.Request
import HeatPlacement.Placement.Service
import HeatPlacement.Text.Entity

/-!
# Answers

* `Answer`: status, content type, body and allowed methods
* `Rejection`: why a request is not carried out, with its status and wording
* `Api.perform`: what an action does; `Api.answer`: the answer to a request
-/

namespace HeatPlacement.Api

/-- An answer to a request. -/
structure Answer where
  status : Nat
  contentType : Option String
  body : String
  /-- The methods of the route, where the request's is none of them. -/
  allow : Option (List String)
  deriving DecidableEq, Repr, Inhabited

namespace Answer

/-- A status and nothing else. -/
def bare (status : Nat) : Answer := ⟨status, none, "", none⟩

/-- Plain text. -/
def plain (status : Nat) (text : String) : Answer :=
  ⟨status, some "text/plain; charset=utf-8", text, none⟩

/-- A JSON value. -/
def json (value : Json) : Answer := ⟨200, some "application/json", value.text, none⟩

/-- A response from a result row. -/
def ofResponse : Response → Answer
  | .json value => json value
  | .text content => plain 200 content

/-- The outcome of a placement operation. -/
def ofOutcome : PlacementOutcome → Answer
  | .delivered response => ofResponse response
  | .missingFields names => plain 422 (Envelope.requiredMessage names)
  | .timedOut => bare 504

/-- The outcome of a placement operation that may fail; a failure is not told. -/
def ofPlacement : Except PlacementError PlacementOutcome → Answer
  | .ok outcome => ofOutcome outcome
  | .error _ => bare 500

/-- The outcome of a group operation. -/
def ofGroups : PlacementOutcome → Answer
  | .timedOut => plain 504 "Request timedout"
  | outcome => ofOutcome outcome

/-- What a probe of the store says. -/
def ofPing : Except PlacementError (Option Json) → Answer
  | .ok _ => status "OK"
  | .error _ => status "Failed"
where
  /-- The state of the service and of the store. -/
  status (store : String) : Answer :=
    json (.single "status" (.obj [("valet_service", .str "ok"), ("db_service", .str store)]))

end Answer

/-- Why a request is not carried out. -/
inductive Rejection where
  /-- The identifier in the path is not UTF-8. -/
  | path
  | query (cause : Form.Error)
  /-- The body is not said to be JSON. -/
  | mediaType
  | tooLong
  /-- The body is not JSON. -/
  | body
  deriving DecidableEq, Repr, Inhabited

/-- The answer to a rejected request. -/
def Rejection.answer : Rejection → Answer
  | .path => .plain 400 "Invalid URL: Invalid UTF-8 in `prior_request_id`"
  | .query cause => .plain 400 cause.message
  | .mediaType => .plain 415 "Expected request with `Content-Type: application/json`"
  | .tooLong => .plain 413 "Failed to buffer the request body: length limit exceeded"
  | .body => .plain 400 "Failed to parse the request body as JSON"

/-- The longest body in octets. -/
def bodyLimit : Nat := 2097152

/-- The JSON value in the body of a request. -/
def bodyOf (request : Http.Request) : Except Rejection Json :=
  let type := request.fields.find? fun field => field.1.map Char.toLower == "content-type"
  if !((type.bind fun field => MediaType.read? field.2).any MediaType.isJson) then
    .error .mediaType
  else if bodyLimit < request.body.utf8ByteSize then .error .tooLong
  else
    match Json.read? request.body with
    | some value => .ok value
    | none => .error .body

/-- The known names in the query of a request, and the identifier among them. -/
def queryOf (known : List String) (request : Http.Request) :
    Except Rejection (String × List (String × String)) :=
  let read : Except Form.Error (String × List (String × String)) := do
    let found ← Form.read known (Form.pairs (request.uri.query.getD "")) []
    return (← Form.required found "requestId", found)
  read.mapError .query

/-- The names in the query for groups. -/
def groupNames : List String := ["requestId", "name", "datacenter_id", "host"]

section

variable {σ : Type}

/-- Whether an operation concerns groups. -/
def isGroupOperation : Operation → Bool
  | .groupQuery | .groupCreate | .groupUpdate | .groupDelete => true
  | _ => false

/-- Perform an operation under an identifier, whose markup characters are escaped. -/
def carryOut (service : Service σ) (operation : Operation) (requestId : String)
    (timestamp : Nat) (body : Json) (state : σ) : Run σ Answer :=
  let run := service.perform operation body (Text.Entity.escape requestId) timestamp state
  run.map fun
    | .ok outcome => if isGroupOperation operation then .ofGroups outcome else .ofOutcome outcome
    | .error e => .ofPlacement (.error e)

/-- What an action does, with the milliseconds since the epoch. The path is looked at before the
query, and the query before the body. -/
def perform (service : Service σ) (timestamp : Nat) (action : Action) (request : Http.Request)
    (state : σ) : Run σ Answer :=
  let decided (inputs : Except Rejection (Run σ Answer)) : Run σ Answer :=
    match inputs with
    | .ok run => run
    | .error rejection => .still rejection.answer state
  match action with
  | .submit operation => decided do
    let (requestId, _) ← queryOf ["requestId"] request
    let body ← bodyOf request
    return carryOut service operation requestId timestamp body state
  | .settle operation prior => decided do
    match priorId? prior with
    | none => throw .path
    -- These routes take the identifier from the path, and their query is not looked at.
    | some requestId =>
      let body ← bodyOf request
      return carryOut service operation requestId timestamp body state
  | .queryGroups => decided do
    let (requestId, found) ← queryOf groupNames request
    return (service.queryGroups (found.lookup "name") (found.lookup "datacenter_id")
      (Text.Entity.escape requestId) timestamp state).map .ofGroups
  | .alive => .still (.plain 200 "ok") state
  | .ping => (service.ping state).map .ofPing

/-- The answer to a request. One for the head alone has no body. -/
def answer (service : Service σ) (timestamp : Nat) (request : Http.Request) (state : σ) :
    Run σ Answer :=
  let run : Run σ Answer :=
    match Route.ofPath? request.uri.fullPath with
    | none => .still (.bare 404) state
    | some route =>
      match route.action? request.method with
      | none => .still { Answer.bare 405 with allow := some route.methods } state
      | some action => perform service timestamp action request state
  if request.method = "HEAD" then run.map fun answer => { answer with body := "" } else run

end

end HeatPlacement.Api
