import HeatPlacement.Text.Lossy
import HeatPlacement.Text.Percent

/-!
# Queries

* `Form.pairs`: the names and values of a query
* `Form.read`: the values of known names, each at most once
-/

namespace HeatPlacement.Api.Form

/-- Split at a character. -/
def splitAt (separator : Char) : List Char → List (List Char)
  | [] => [[]]
  | c :: rest =>
    if c = separator then [] :: splitAt separator rest
    else
      match splitAt separator rest with
      | [] => [[c]]
      | part :: parts => (c :: part) :: parts

/-- A name or a value: a plus sign is a blank, then the escapes are read. -/
def decoded (text : List Char) : String :=
  let blanks := text.map fun c => if c = '+' then ' ' else c
  Text.lossy (Text.Percent.decode (Text.octets (String.ofList blanks)))

/-- One part of a query: the value follows the first equals sign. -/
def pair (part : List Char) : String × String :=
  (decoded (part.takeWhile (· ≠ '=')), decoded ((part.dropWhile (· ≠ '=')).drop 1))

/-- The names and values of a query. Empty parts are none. -/
def pairs (query : String) : List (String × String) :=
  ((splitAt '&' query.toList).filter fun part => !part.isEmpty).map pair

/-- Why a query cannot be used. -/
inductive Error where
  | missing (name : String)
  | duplicate (name : String)
  deriving DecidableEq, Repr, Inhabited

/-- The wording of an error. -/
def Error.message : Error → String
  | .missing name => "Failed to deserialize query string: missing field `" ++ name ++ "`"
  | .duplicate name => "Failed to deserialize query string: duplicate field `" ++ name ++ "`"

/-- The values of known names. Other names are passed over. -/
def read (known : List String) : (pairs found : List (String × String)) →
    Except Error (List (String × String))
  | [], found => .ok found
  | (name, value) :: rest, found =>
    if !known.contains name then read known rest found
    else if (found.lookup name).isSome then .error (.duplicate name)
    else read known rest (found ++ [(name, value)])

/-- The value of a name that has to be there. -/
def required (found : List (String × String)) (name : String) : Except Error String :=
  match found.lookup name with
  | some value => .ok value
  | none => .error (.missing name)

end HeatPlacement.Api.Form
