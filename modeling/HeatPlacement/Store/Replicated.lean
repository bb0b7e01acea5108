import HeatPlacement.Config.Basic
import HeatPlacement.Http.Reply
import HeatPlacement.Http.Request
import HeatPlacement.Http.Status
import HeatPlacement.Json.Reader
import HeatPlacement.Store.Basic
import HeatPlacement.Text.Base64
import HeatPlacement.Text.Blank
import HeatPlacement.Text.Percent

/-!
# The replicated row store

Every call is sent to the replicas in their order until one carries it out.

* `Replicas`: the replicas and how they are addressed
* `Replicas.request`: the request for a call
* `Network`: what comes back over a connection
* `Replicas.send`: one replica; `Replicas.walk`: all of them; `Replicas.store`: the calls of a row
  store
-/

namespace HeatPlacement

/-- The replicas of a row store. -/
structure Replicas where
  /-- Base addresses without slashes at the end. -/
  endpoints : List String
  keyspace : String
  namespaceId : Option String
  userId : Option String
  password : Option String
  timeout : Duration
  deriving DecidableEq, Repr, Inhabited

/-- What comes back over a connection. -/
inductive Reception where
  /-- There was no connection, for a cause in the words of the system. -/
  | refused (cause : String)
  /-- Nothing came until the time was over. -/
  | silence
  /-- All that came before the connection was closed. -/
  | octets (octets : List UInt8)
  deriving DecidableEq, Repr, Inhabited

/-- How a network in a state answers a request to an address. -/
abbrev Network (σ : Type) := (address : String) → Http.Request → σ → Reception × σ

/-- Why a replica did not carry out a call. -/
inductive ReplicaError where
  | badUri (cause : UriError)
  /-- A value that may not be sent. -/
  | badField
  /-- The base address names no host. -/
  | noHost (uri : Uri)
  | refused (address : String) (cause : String)
  | timedOut (address : String) (timeout : Duration)
  /-- The reply cannot be read. -/
  | badReply (address : String) (cause : Http.ReplyError)
  /-- The reply is no success. -/
  | answered (address : String) (code : Nat)
  deriving DecidableEq, Repr, Inhabited

/-- The wording of an error. -/
def ReplicaError.message : ReplicaError → String
  | .badUri cause => cause.message
  | .badField => "failed to parse header value"
  | .noHost uri => "no host in " ++ uri.text
  | .refused address cause => "connect " ++ address ++ ": " ++ cause
  | .timedOut address timeout => address ++ " timed out after " ++ timeout.text
  | .badReply address .body => "body " ++ address ++ ": " ++ Http.ReplyError.body.message
  | .badReply address cause => "request " ++ address ++ ": " ++ cause.message
  | .answered address code => address ++ " answered " ++ Http.statusText code

/-- The value of a reply's body; null if it is empty or no JSON. -/
def bodyValue (body : List UInt8) : Json :=
  ((Text.ofOctets? body).bind Json.read?).getD .null

/-- The row that a value holds: `row 0` of its `result`, unless that is null. -/
def replyRow? (value : Json) : Option Json :=
  ((value.member? "result").bind (Json.member? · "row 0")).filter fun row => !row.isNull

namespace Replicas

/-- The replicas of a configuration. -/
def ofConfig (config : StoreConfig) : Except Panic (Except StoreError Replicas) :=
  if config.endpoints.isEmpty then .ok (.error .noEndpoints)
  else
    config.requestTimeout.map fun timeout =>
      .ok {
        endpoints := config.endpoints.map fun endpoint =>
          String.ofList (Text.trimEnd (· == '/') endpoint.toList)
        keyspace := config.keyspace
        namespaceId := config.namespaceId
        userId := config.userId
        password := config.password
        timeout := timeout }

/-! ### Requests -/

/-- The path to the rows of a table, with the key of one of them. -/
def rowsPath (replicas : Replicas) (table : Table) (key : Option String) : String :=
  "/keyspaces/" ++ replicas.keyspace ++ "/tables/" ++ table.name ++ "/rows" ++
    match key with
    | some key => "?request_id=" ++ Text.Percent.encode key
    | none => ""

/-- The method of a call. -/
def method : StoreCall → String
  | .insert _ _ => "POST"
  | .get _ _ => "GET"
  | .delete _ _ _ => "DELETE"

/-- The path of a call. -/
def path (replicas : Replicas) : StoreCall → String
  | .insert table _ => replicas.rowsPath table none
  | .get table key | .delete table key _ => replicas.rowsPath table (some key)

/-- The body of a call. -/
def body : StoreCall → String
  | .insert _ document | .delete _ _ document => document.text
  | .get _ _ => ""

/-- The credentials of a user. -/
def credentials (userId password : String) : String :=
  "Basic " ++ String.ofList (Text.Base64.encode (Text.octets (userId ++ ":" ++ password)))

/-- The fields of a request. -/
def fields (replicas : Replicas) (uri : Uri) (body : String) : List (String × String) :=
  let given (name : String) (value : Option String) : List (String × String) :=
    (value.map fun value => (name, value)).toList
  [("content-type", "application/json"), ("user-agent", "valet-api/0.1")] ++
    given "host" uri.authority ++ given "ns" replicas.namespaceId ++
    given "userid" replicas.userId ++
    given "authorization" (replicas.userId.bind fun userId =>
      replicas.password.map (credentials userId)) ++
    given "password" replicas.password ++
    if body.isEmpty then [] else [("content-length", toString body.utf8ByteSize)]

/-- The request for a call to a replica. -/
def request (replicas : Replicas) (endpoint : String) (call : StoreCall) :
    Except ReplicaError Http.Request := do
  let uri ← (Uri.read (endpoint ++ replicas.path call)).mapError .badUri
  let request : Http.Request := ⟨method call, uri, replicas.fields uri (body call), body call⟩
  if request.fieldsValid then return request else throw .badField

/-! ### Calls -/

/-- What a reception says. -/
def received (replicas : Replicas) (address : String) : Reception → Except ReplicaError Json
  | .refused cause => .error (.refused address cause)
  | .silence => .error (.timedOut address replicas.timeout)
  | .octets octets =>
    match Http.Reply.read octets with
    | .error cause => .error (.badReply address cause)
    | .ok reply =>
      if Http.isSuccess reply.code then .ok (bodyValue reply.body)
      else .error (.answered address reply.code)

/-- Send a call to one replica. -/
def send {σ : Type} (replicas : Replicas) (network : Network σ) (call : StoreCall)
    (endpoint : String) (state : σ) : Except ReplicaError Json × σ :=
  match replicas.request endpoint call with
  | .error e => (.error e, state)
  | .ok request =>
    match request.uri.address? with
    -- The network is not touched without a host.
    | none => (.error (.noHost request.uri), state)
    | some address =>
      let (reception, next) := network address request state
      (replicas.received address reception, next)

/-- Send a call to replicas in order until one carries it out. Otherwise the answer is the last
error. -/
def walk {σ : Type} (replicas : Replicas) (network : Network σ) (call : StoreCall) :
    (endpoints : List String) → (last : String) → σ → Except String Json × σ
  | [], last, state => (.error last, state)
  | endpoint :: rest, _, state =>
    match replicas.send network call endpoint state with
    | (.ok value, next) => (.ok value, next)
    | (.error e, next) => walk replicas network call rest e.message next

/-- How replicas answer calls. -/
def store {σ : Type} (replicas : Replicas) (network : Network σ) : Store σ := fun call state =>
  match replicas.walk network call replicas.endpoints "" state with
  | (.error last, next) =>
    (.error (.unavailable call.name replicas.endpoints.length last), next)
  | (.ok value, next) =>
    match call with
    | .get _ _ => (.ok (replyRow? value), next)
    | .insert _ _ | .delete _ _ _ => (.ok none, next)

end Replicas

end HeatPlacement
