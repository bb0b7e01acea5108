import HeatPlacement.Duration
import HeatPlacement.Json.Decode

/-!
# Configuration

* `Config`: the tables of a configuration with their defaults
* `StoreConfig.requestTimeout`, `PollingConfig.waitUntil`, `PollingConfig.pollEvery`: the durations
  that the texts name, or else the defaults
* `StoreConfig.decode`: the store's table from a JSON value
-/

namespace HeatPlacement

/-- Where rows are kept. -/
inductive Backend where
  /-- Replicas that the engine shares. -/
  | replicated
  /-- A store of the daemon's own. -/
  | embedded
  deriving DecidableEq, Repr, Inhabited

namespace Backend

/-- The name of a backend. -/
def name : Backend → String
  | .replicated => "music"
  | .embedded => "local"

/-- Both backends, in the order in which messages list them. -/
def all : List Backend := [.replicated, .embedded]

/-- The backend that a value names. -/
def decode : Json → Except DecodeError Backend :=
  Decode.variant (all.map fun backend => (backend.name, backend))

end Backend

/-- How callers reach the daemon. -/
structure ServerConfig where
  /-- The port to listen on. -/
  port : Nat
  port_lt : port < 65536 := by decide
  deriving DecidableEq, Repr

/-- Where rows are kept, and how the replicas are reached. -/
structure StoreConfig where
  backend : Backend
  keyspace : String
  /-- Base addresses of the replicas, in the order in which they are tried. -/
  endpoints : List String
  namespaceId : Option String
  userId : Option String
  password : Option String
  /-- The text of the time that a replica has to answer. -/
  timeoutText : String
  dataDir : String
  deriving DecidableEq, Repr, Inhabited

/-- How long results are waited for. -/
structure PollingConfig where
  waitText : String
  everyText : String
  deriving DecidableEq, Repr, Inhabited

/-- What is logged, and in which form. -/
structure LoggingConfig where
  json : Bool
  ping : Bool
  deriving DecidableEq, Repr, Inhabited

/-- A configuration. -/
structure Config where
  server : ServerConfig
  store : StoreConfig
  polling : PollingConfig
  logging : LoggingConfig
  deriving DecidableEq, Repr

namespace ServerConfig

/-- The defaults. -/
def defaults : ServerConfig := { port := 8080 }

end ServerConfig

namespace StoreConfig

/-- The defaults. -/
def defaults : StoreConfig where
  backend := .embedded
  keyspace := "valet"
  endpoints := []
  namespaceId := none
  userId := none
  password := none
  timeoutText := "10s"
  dataDir := "/var/lib/valet"

/-- The time that a replica has to answer. -/
def requestTimeout (config : StoreConfig) : Except Panic Duration :=
  Duration.readOr (.ofSeconds 10) config.timeoutText

/-- The members, in the order of their declaration. -/
def memberNames : List String :=
  ["backend", "keyspace", "endpoints", "namespace", "user_id", "password", "request_timeout",
    "data_dir"]

/-- A path is a string. -/
def path : Json → Except DecodeError String
  | .str s => .ok s
  | value => .error (.invalidType value "path string")

/-- Set one member. -/
def set (config : StoreConfig) (name : String) (value : Json) : Except DecodeError StoreConfig :=
  match name with
  | "backend" => (Backend.decode value).map fun backend => { config with backend := backend }
  | "keyspace" => (Decode.text value).map fun keyspace => { config with keyspace := keyspace }
  | "endpoints" =>
    (Decode.list Decode.text value).map fun endpoints => { config with endpoints := endpoints }
  | "namespace" =>
    (Decode.optional Decode.text value).map fun id => { config with namespaceId := id }
  | "user_id" => (Decode.optional Decode.text value).map fun id => { config with userId := id }
  | "password" =>
    (Decode.optional Decode.text value).map fun password => { config with password := password }
  | "request_timeout" => (Decode.text value).map fun text => { config with timeoutText := text }
  | "data_dir" => (path value).map fun dir => { config with dataDir := dir }
  | _ => .ok config

/-- The table that a value holds. -/
def decode : Json → Except DecodeError StoreConfig :=
  Decode.record "struct StoreConfig" memberNames set defaults

end StoreConfig

namespace PollingConfig

/-- The defaults. -/
def defaults : PollingConfig := ⟨"300s", "5s"⟩

/-- How long to wait for a result. -/
def waitUntil (config : PollingConfig) : Except Panic Duration :=
  Duration.readOr (.ofSeconds 300) config.waitText

/-- How long between two questions. -/
def pollEvery (config : PollingConfig) : Except Panic Duration :=
  Duration.readOr (.ofSeconds 5) config.everyText

end PollingConfig

namespace LoggingConfig

/-- The defaults. -/
def defaults : LoggingConfig := ⟨false, false⟩

end LoggingConfig

namespace Config

/-- The defaults. -/
def defaults : Config := ⟨.defaults, .defaults, .defaults, .defaults⟩

end Config

end HeatPlacement
