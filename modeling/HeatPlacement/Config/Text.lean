import HeatPlacement.Config.Basic
import HeatPlacement.Toml.Library

/-!
# Texts of configurations

Texts are written and read by a library.

* `Config.read?`: the configuration that a text describes; what it leaves out has its default
* `Config.text?`: the text of a configuration
-/

namespace HeatPlacement

open Toml (Value Setting Section)

namespace Config

/-! ### Reading -/

/-- Read a field, if there is one. -/
def field {α : Type} (fields : Fields Value) (name : String) (read : Value → Option α)
    (default : α) : Option α :=
  match Fields.get? fields name with
  | some value => read value
  | none => some default

section Reading

variable (library : Toml.Library)

/-- An option is a text, if there is one. -/
def option? (value : Value) : Option (Option String) := (library.text? value).map some

/-- A port. -/
def port? (value : Value) : Option ServerConfig :=
  (library.short? value).map fun (n : Fin 65536) => { port := n.val, port_lt := n.isLt }

/-- A backend, by its name. -/
def backend? (value : Value) : Option Backend :=
  (library.variant? (Backend.all.map Backend.name) value).bind fun name =>
    Backend.all.find? fun backend => backend.name == name

/-- Read the table about callers. -/
def readServer (value : Value) : Option ServerConfig := do
  let fields ← library.record? ["port"] value
  field fields "port" (port? library) .defaults

/-- Read the table about rows. -/
def readStore (value : Value) : Option StoreConfig := do
  let fields ← library.record? StoreConfig.memberNames value
  let defaults := StoreConfig.defaults
  return {
    backend := ← field fields "backend" (backend? library) defaults.backend
    keyspace := ← field fields "keyspace" library.text? defaults.keyspace
    endpoints := ← field fields "endpoints" library.texts? defaults.endpoints
    namespaceId := ← field fields "namespace" (option? library) none
    userId := ← field fields "user_id" (option? library) none
    password := ← field fields "password" (option? library) none
    timeoutText := ← field fields "request_timeout" library.text? defaults.timeoutText
    dataDir := ← field fields "data_dir" library.text? defaults.dataDir }

/-- Read the table about waiting. -/
def readPolling (value : Value) : Option PollingConfig := do
  let fields ← library.record? ["wait_until", "poll_every"] value
  let defaults := PollingConfig.defaults
  return {
    waitText := ← field fields "wait_until" library.text? defaults.waitText
    everyText := ← field fields "poll_every" library.text? defaults.everyText }

/-- Read the table about logging. -/
def readLogging (value : Value) : Option LoggingConfig := do
  let fields ← library.record? ["json", "ping"] value
  let defaults := LoggingConfig.defaults
  return {
    json := ← field fields "json" library.flag? defaults.json
    ping := ← field fields "ping" library.flag? defaults.ping }

/-- The configuration that a table describes. -/
def ofTable? (fields : Fields Value) : Option Config := do
  return {
    server := ← field fields "server" (readServer library) .defaults
    store := ← field fields "store" (readStore library) .defaults
    polling := ← field fields "polling" (readPolling library) .defaults
    logging := ← field fields "logging" (readLogging library) .defaults }

/-- The configuration that a text describes. -/
def read? (text : String) : Option Config := (library.read? text).bind (ofTable? library)

end Reading

/-! ### Writing -/

/-- The setting of a value that may be absent. -/
def optionalSetting (name : String) : Option String → List (String × Setting)
  | some s => [(name, .text s)]
  | none => []

/-- The tables of a configuration with all their settings. -/
def sections (config : Config) : List Section :=
  let store := config.store
  [⟨"server", [("port", .natural config.server.port)]⟩,
    ⟨"store",
      [("backend", .text store.backend.name), ("keyspace", .text store.keyspace),
        ("endpoints", .texts store.endpoints)] ++
      optionalSetting "namespace" store.namespaceId ++ optionalSetting "user_id" store.userId ++
      optionalSetting "password" store.password ++
      [("request_timeout", .text store.timeoutText), ("data_dir", .text store.dataDir)]⟩,
    ⟨"polling",
      [("wait_until", .text config.polling.waitText),
        ("poll_every", .text config.polling.everyText)]⟩,
    ⟨"logging", [("json", .flag config.logging.json), ("ping", .flag config.logging.ping)]⟩]

/-- The text of a configuration, if the library writes it. -/
def text? (library : Toml.Library) (config : Config) : Option String :=
  library.write? config.sections

end Config

end HeatPlacement
