import HeatPlacement.Config.Text
import HeatPlacement.Daemon.Arguments
import HeatPlacement.Daemon.FileTree
import HeatPlacement.Daemon.Filter
import HeatPlacement.Placement.Polling
import HeatPlacement.Store.Replicated
import HeatPlacement.Text.Shown

/-!
# The course of the daemon

* `Script`: what the daemon does step by step, with what it does next after each answer
* `Daemon.script`: its course with given arguments
* `Script.run`: the course in a directory, with all that is said and made
-/

namespace HeatPlacement

/-- What the daemon does. -/
inductive Script where
  /-- End with an exit code. -/
  | exit (status : Nat)
  /-- Write to the standard output. -/
  | say (text : String) (next : Script)
  /-- Write to the standard error. -/
  | complain (text : String) (next : Script)
  | readFile (path : String) (next : Except FileError String → Script)
  | makeDirectories (path : String) (next : Except FileError Unit → Script)
  | openStore (path : String) (next : Except FileError Unit → Script)
  /-- Answer requests until an interrupt comes. -/
  | serve (next : Script)

namespace Daemon

/-- How events are logged. -/
structure Logger where
  filter : Filter
  json : Bool
  deriving DecidableEq, Repr

/-- Log an event. -/
def Logger.log (logger : Logger) (event : Event) (next : Script) : Script :=
  if logger.filter.passes event then
    .say (if logger.json then event.json.text else event.line) next
  else next

/-- The filter for directives from the environment; the default if they are none. -/
def filterOf (directives : Option String) : Filter :=
  (directives.bind Filter.read?).getD .default

/-- Give up. -/
def fail (message : String) : Script := .complain ("Error: " ++ message) (.exit 1)

/-- What a panic comes to: its wording, and an exit code of its own. -/
def stop (panic : Panic) : Script := .complain panic.message (.exit 101)

/-- A path in another. -/
def joined (directory name : String) : String :=
  if directory.isEmpty then name
  else if directory.endsWith "/" then directory ++ name
  else directory ++ "/" ++ name

/-- Open the row store. -/
def openStore (logger : Logger) (config : StoreConfig) (next : Script) : Script :=
  match config.backend with
  | .replicated =>
    match Replicas.ofConfig config with
    | .error panic => stop panic
    | .ok (.error e) => fail e.message
    | .ok (.ok replicas) =>
      logger.log (.info "using replicated row store" [("keyspace", .text config.keyspace),
        ("endpoints", .count replicas.endpoints.length)]) next
  | .embedded =>
    let path := joined config.dataDir "valet.redb"
    let shown : EventValue := .text (Text.shown path)
    .makeDirectories config.dataDir fun
      | .error e => fail e.message
      | .ok () =>
        .openStore path fun
          | .error e => fail ("failed to open database: I/O error: " ++ e.message)
          | .ok () =>
            logger.log ⟨.debug, "valet_store::local", "local store opened", [("path", shown)]⟩
              (logger.log (.info "using local row store" [("path", shown)]) next)

/-- Serve on a port until an interrupt comes. -/
def serve (logger : Logger) (config : Config) (port : Nat) : Script :=
  match Polling.Settings.ofConfig config.polling with
  | .error panic => stop panic
  | .ok settings =>
    logger.log (.info "polling configured"
      [("wait_until", .text settings.waitUntil.text),
        ("poll_every", .text settings.pollEvery.text)])
      (logger.log (.info "API server starting" [("addr", .text ("0.0.0.0:" ++ toString port))])
        (.serve (logger.log (.info "shutdown signal received" [])
          (logger.log (.info "Valet daemon stopped" []) (.exit 0)))))

/-- Start with a configuration, which may come from a file. -/
def start (directives : Option String) (arguments : Arguments) (config : Config) : Script :=
  let logger : Logger := ⟨filterOf directives, config.logging.json⟩
  let begin : Script :=
    logger.log (.info "Valet daemon starting" [])
      (openStore logger config.store
        (serve logger config (arguments.port.getD config.server.port)))
  match arguments.config with
  | some path => logger.log (.info "configuration loaded" [("path", .text path)]) begin
  | none => begin

/-- The course of the daemon with arguments and with log directives from the environment. -/
def script (arguments : List String) (directives : Option String) : Script :=
  match Arguments.read arguments with
  | .error .help => .say Refusal.help.text (.exit Refusal.help.status)
  | .error refusal => .complain refusal.text (.exit refusal.status)
  | .ok arguments =>
    match arguments.config with
    | none => start directives arguments .defaults
    | some path =>
      .readFile path fun
        | .error e => fail e.message
        | .ok text =>
          match Config.read? Toml.library text with
          | none => fail "TOML parse error"
          | some config => start directives arguments config

end Daemon

/-! ### Running -/

/-- What came of a course. -/
structure Session where
  status : Nat
  /-- Whether requests were served. -/
  served : Bool
  output : List String
  errors : List String
  tree : FileTree
  deriving Repr, Inhabited

/-- Follow a course in a directory. Serving ends at once. -/
def Script.run (tree : FileTree) : Script → Session
  | .exit status => ⟨status, false, [], [], tree⟩
  | .say text next =>
    let session := next.run tree
    { session with output := text :: session.output }
  | .complain text next =>
    let session := next.run tree
    { session with errors := text :: session.errors }
  | .readFile path next => (next (tree.readFile path)).run tree
  | .makeDirectories path next =>
    match tree.makeDirectories path with
    | .ok tree => (next (.ok ())).run tree
    | .error e => (next (.error e)).run tree
  | .openStore path next =>
    match tree.makeFile path with
    | .ok tree => (next (.ok ())).run tree
    | .error e => (next (.error e)).run tree
  | .serve next => { next.run tree with served := true }

end HeatPlacement
