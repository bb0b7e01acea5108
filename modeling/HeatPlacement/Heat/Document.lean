import HeatPlacement.Heat.Vocabulary
import HeatPlacement.Json.Printer
import HeatPlacement.Text.Blank

/-!
# Template documents

A template, a nested template file or an environment arrives as text or as a parsed document.

* `TemplateError`: why a resolution fails, with its wording
* `Reader`: how texts are read
* `normalize`: the mapping that a document holds
-/

namespace HeatPlacement.Heat

/-- Why a resolution fails. -/
inductive TemplateError where
  /-- A template without a `resources` mapping. -/
  | missingResources
  /-- The document with the given name holds a value of another kind than a mapping. -/
  | notAMapping (source : String) (found : Json)
  /-- The document with the given name is not YAML. -/
  | yaml (source : String)
  /-- A count that is no integer. -/
  | invalidCount (value : Json)
  /-- Templates and sibling resources are nested too deep. -/
  | recursionLimit
  deriving DecidableEq, Repr, Inhabited

/-- The most levels of templates and sibling resources. -/
def depthLimit : Nat := 32

/-- The kind of a value in error messages. -/
def kindName : Json → String
  | .null => "null"
  | .bool _ => "bool"
  | .num _ => "number"
  | .str _ => "string"
  | .arr _ => "sequence"
  | .obj _ => "mapping"

/-- The wording of an error. -/
def TemplateError.message : TemplateError → String
  | .missingResources => "template has no resources section"
  | .notAMapping source found =>
    "template document is not a mapping: " ++ source ++ ": " ++ kindName found
  | .yaml source => "yaml parse error in " ++ source
  | .invalidCount value => "invalid count: " ++ value.text
  | .recursionLimit => "template nesting deeper than " ++ toString depthLimit ++ " levels"

/-- The mapping that a value is; null is the empty one. -/
def asMapping (source : String) : Json → Except TemplateError (Fields Json)
  | .obj fields => .ok fields
  | .null => .ok []
  | value => .error (.notAMapping source value)

/-- How texts are read as YAML, of which JSON is a part: the value of a text, if it has one. -/
abbrev Reader := String → Option Json

/-- The mapping that a document holds. A blank text is the empty mapping, and any other one is
read. -/
def normalize (reader : Reader) (source : String) : Json → Except TemplateError (Fields Json)
  | .str text =>
    if (Text.trim text.toList).isEmpty then .ok []
    else
      match reader text with
      | some value => asMapping source value
      | none => .error (.yaml source)
  | document => asMapping source document

/-- A mapping is its own normal form. -/
@[simp] theorem normalize_obj (reader : Reader) (source : String) (fields : Fields Json) :
    normalize reader source (.obj fields) = .ok fields := rfl

end HeatPlacement.Heat
