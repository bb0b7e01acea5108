import HeatPlacement.Json.Printer

/-!
# Events

What the daemon logs about itself.

* `Level`: how important an event is
* `Event`: a message with its fields; `Event.line`, `Event.json`: its two written forms
-/

namespace HeatPlacement

/-- How important an event is. -/
inductive Level where
  | error
  | warn
  | info
  | debug
  | trace
  deriving DecidableEq, Repr, Inhabited

namespace Level

/-- The name of a level. -/
def name : Level → String
  | error => "ERROR"
  | warn => "WARN"
  | info => "INFO"
  | debug => "DEBUG"
  | trace => "TRACE"

/-- The place of a level, from the most important on. -/
def rank : Level → Nat
  | error => 1
  | warn => 2
  | info => 3
  | debug => 4
  | trace => 5

/-- All levels. -/
def all : List Level := [error, warn, info, debug, trace]

end Level

/-- What a field of an event holds. -/
inductive EventValue where
  | text (s : String)
  | count (n : Nat)
  deriving DecidableEq, Repr, Inhabited

/-- The text of a field. -/
def EventValue.shown : EventValue → String
  | .text s => s
  | .count n => toString n

/-- The JSON value of a field. -/
def EventValue.json : EventValue → Json
  | .text s => .str s
  | .count n => .ofNat n

/-- Something that happened. -/
structure Event where
  level : Level
  /-- The part of the program that it happened in. -/
  target : String
  message : String
  fields : List (String × EventValue)
  deriving DecidableEq, Repr, Inhabited

namespace Event

/-- An event of the daemon itself. -/
def info (message : String) (fields : List (String × EventValue)) : Event :=
  ⟨.info, "valetd", message, fields⟩

/-- The names of all fields; the message is one. -/
def fieldNames (event : Event) : List String := "message" :: event.fields.map Prod.fst

/-- The plain form. -/
def line (event : Event) : String :=
  event.level.name ++ " " ++ event.target ++ ": " ++ event.message ++
    String.join (event.fields.map fun (name, value) => " " ++ name ++ "=" ++ value.shown)

/-- The JSON form. -/
def json (event : Event) : Json :=
  .obj [("level", .str event.level.name),
    ("fields", .obj (("message", .str event.message) ::
      event.fields.map fun (name, value) => (name, value.json))),
    ("target", .str event.target)]

example : (info "API server starting" [("addr", .text "0.0.0.0:0")]).line =
    "INFO valetd: API server starting addr=0.0.0.0:0" := by decide +kernel

end Event

end HeatPlacement
