/-!
# Tokens of a YAML text

* `Yaml.Token`: the tokens; the end of the text is the end of the token list
* `Yaml.TagName`: a tag as bytes, because its escapes may spell any bytes
-/

namespace HeatPlacement.Yaml

/-- The bytes of a tag. -/
abbrev TagName := List UInt8

/-- The bytes of an ASCII text. -/
def asciiBytes (text : List Char) : TagName := text.map fun c => c.toNat.toUInt8

/-- A token. -/
inductive Token where
  | versionDirective (major minor : Nat)
  | tagDirective (handle : List Char) (expansion : TagName)
  | documentStart
  | documentEnd
  | blockSequenceStart
  | blockMappingStart
  /-- The end of a block collection. -/
  | blockEnd
  | flowSequenceStart
  | flowSequenceEnd
  | flowMappingStart
  | flowMappingEnd
  | blockEntry
  | flowEntry
  | key
  | value
  | alias (name : List Char)
  | anchor (name : List Char)
  | tag (handle : List Char) (suffix : TagName)
  /-- The text of a scalar, and whether it is written without quotes and indicators. -/
  | scalar (text : List Char) (plain : Bool)
  deriving DecidableEq, Repr, Inhabited

end HeatPlacement.Yaml
