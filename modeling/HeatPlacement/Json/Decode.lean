import HeatPlacement.Json.Printer
import HeatPlacement.Text.Shown

/-!
# Typed decoding of JSON values

* `DecodeError`: why a value does not decode, with its wording
* `Decode.text`, `Decode.list`, `Decode.mapping`, `Decode.optional`: the types of fields
* `Decode.record`: a record, from an object or from a list of its fields
* `Decode.variant`: one of several names
-/

namespace HeatPlacement

/-- Why a value does not decode. -/
inductive DecodeError where
  /-- The value has another type than the expected one. -/
  | invalidType (found : Json) (expected : String)
  /-- The name is none of the known ones. -/
  | unknownVariant (name : String) (known : List String)
  /-- An object stands for a name, but does not have a single key. -/
  | notSingleKey
  /-- A list has so many items, more than the record has fields. -/
  | tooManyItems (count : Nat)
  deriving DecidableEq, Repr, Inhabited

namespace DecodeError

/-- How a value is called in messages. -/
def describe : Json → String
  | .null => "null"
  | .bool b => "boolean `" ++ (if b then "true" else "false") ++ "`"
  | .num (.int n) => "integer `" ++ (Json.num (.int n)).text ++ "`"
  | .num (.double x) => "floating point `" ++ (Json.num (.double x)).text ++ "`"
  | .str s => "string " ++ Text.shown s
  | .arr _ => "sequence"
  | .obj _ => "map"

/-- The expected names in a message. -/
def oneOf : List String → String
  | [] => "there are no variants"
  | [a] => "expected `" ++ a ++ "`"
  | [a, b] => "expected `" ++ a ++ "` or `" ++ b ++ "`"
  | names => "expected one of " ++ ", ".intercalate (names.map fun name => "`" ++ name ++ "`")

/-- The wording of an error. -/
def message : DecodeError → String
  | .invalidType found expected => "invalid type: " ++ describe found ++ ", expected " ++ expected
  | .unknownVariant name known => "unknown variant `" ++ name ++ "`, " ++ oneOf known
  | .notSingleKey => "invalid value: map, expected map with a single key"
  | .tooManyItems count =>
    "invalid length " ++ toString count ++ ", expected fewer elements in array"

end DecodeError

namespace Decode

/-- A string. -/
def text : Json → Except DecodeError String
  | .str s => .ok s
  | value => .error (.invalidType value "a string")

/-- A list of values of one type. -/
def list {α : Type} (decode : Json → Except DecodeError α) : Json → Except DecodeError (List α)
  | .arr items => items.mapM decode
  | value => .error (.invalidType value "a sequence")

/-- An object. -/
def mapping : Json → Except DecodeError (Fields Json)
  | .obj fields => .ok fields
  | value => .error (.invalidType value "a map")

/-- Null is the absence of a value. -/
def optional {α : Type} (decode : Json → Except DecodeError α) :
    Json → Except DecodeError (Option α)
  | .null => .ok none
  | value => (decode value).map some

/-- Set the fields of a record in the order in which they come, and pass over unknown ones. -/
def setFields {α : Type} (names : List String)
    (set : α → String → Json → Except DecodeError α) (start : α) :
    Fields Json → Except DecodeError α
  | [] => .ok start
  | (name, value) :: rest =>
    if names.contains name then
      match set start name value with
      | .ok next => setFields names set next rest
      | .error e => .error e
    else setFields names set start rest

/-- A record that starts with its defaults: the members of an object, or the items of a list for
the fields in their order. -/
def record {α : Type} (expected : String) (names : List String)
    (set : α → String → Json → Except DecodeError α) (start : α) : Json → Except DecodeError α
  | .obj fields => setFields names set start fields
  | .arr items => do
    let result ← setFields names set start (names.zip items)
    if names.length < items.length then .error (.tooManyItems items.length) else .ok result
  | value => .error (.invalidType value expected)

/-- One of the known names: a string, or an object whose only key is the name, with null under
it. -/
def variant {α : Type} (known : List (String × α)) : Json → Except DecodeError α
  | .str name => find name
  | .obj [(name, value)] => do
    let result ← find name
    if value.isNull then .ok result else .error (.invalidType value "unit")
  | .obj _ => .error .notSingleKey
  | value => .error (.invalidType value "string or map")
where
  /-- The variant with a name. -/
  find (name : String) : Except DecodeError α :=
    match known.lookup name with
    | some result => .ok result
    | none => .error (.unknownVariant name (known.map Prod.fst))

end Decode

end HeatPlacement
