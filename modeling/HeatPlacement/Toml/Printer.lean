import HeatPlacement.Toml.Quoted
import HeatPlacement.Toml.Value

/-!
# Writing configuration texts

* `Setting`: the values that are written; `Setting.render`: their text
* `Section`: a table with its settings; `Toml.render`: the text of several tables
-/

namespace HeatPlacement.Toml

/-- A value that is written. -/
inductive Setting where
  | text (s : String)
  | natural (n : Nat)
  | flag (b : Bool)
  | texts (items : List String)
  deriving DecidableEq, Repr, Inhabited

/-- The value of a setting. -/
def Setting.value : Setting → Value
  | .text s => .text s
  | .natural n => .integer n
  | .flag b => .flag b
  | .texts items => .list (items.map .text)

/-- One of several items, on a line of its own. -/
def itemLine (item : String) : List Char :=
  "\n    ".toList ++ Quoted.encode item.toList ++ [',']

/-- The text of a value. Two items and more stand on lines of their own. -/
def Setting.render : Setting → List Char
  | .text s => Quoted.encode s.toList
  | .natural n => Nat.toDigits 10 n
  | .flag b => if b then "true".toList else "false".toList
  | .texts [] => "[]".toList
  | .texts [item] => '[' :: (Quoted.encode item.toList ++ [']'])
  | .texts items => '[' :: (items.flatMap itemLine ++ "\n]".toList)

/-- A table with its settings. -/
structure Section where
  name : String
  settings : List (String × Setting)
  deriving DecidableEq, Repr, Inhabited

/-- The line of a setting. -/
def settingLine : String × Setting → List Char
  | (name, setting) => name.toList ++ " = ".toList ++ setting.render ++ ['\n']

/-- The lines of a table. -/
def Section.render (table : Section) : List Char :=
  '[' :: (table.name.toList ++ "]\n".toList ++ table.settings.flatMap settingLine)

/-- The text of several tables, with an empty line between two of them. -/
def render : List Section → List Char
  | [] => []
  | [table] => table.render
  | table :: rest => table.render ++ '\n' :: render rest

example : String.ofList (render [⟨"a", [("b", .texts ["x", "y"])]⟩, ⟨"c", [("d", .flag true)]⟩]) =
    "[a]\nb = [\n    \"x\",\n    \"y\",\n]\n\n[c]\nd = true\n" := by decide +kernel

end HeatPlacement.Toml
