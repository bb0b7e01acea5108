import HeatPlacement.Toml.Document
import HeatPlacement.Toml.Printer

/-!
# Libraries for configuration texts

Records are written to texts of tables and read from them by a library, which knows the syntax of
such texts and how values of the usual types stand in them. Which tables there are, and which
settings, is not for the library to know.

* `Library`: what a library offers
* `Toml.library`: the library of the program
-/

namespace HeatPlacement.Toml

/-- What a library for configuration texts offers: to write tables, to read a text into a table, and
to read a value of a table as one of a type. -/
structure Library where
  /-- The text of several tables, if they can be written. -/
  write? : List Section → Option String
  /-- The table that a text describes, if it describes one. -/
  read? : String → Option (Fields Value)
  /-- The fields that a value gives to a record with these names. -/
  record? : (names : List String) → Value → Option (Fields Value)
  /-- A text. -/
  text? : Value → Option String
  /-- A list of texts. -/
  texts? : Value → Option (List String)
  /-- A flag. -/
  flag? : Value → Option Bool
  /-- An unsigned integer of 16 bits. -/
  short? : Value → Option (Fin 65536)
  /-- One of several names. -/
  variant? : (names : List String) → Value → Option String

namespace Value

/-- The members of a table, or the items of a list in the order of the names. A date gives none. -/
def record? (names : List String) : Value → Option (Fields Value)
  | .table members => some members
  | .list items => some (names.zip items)
  | .moment _ => some []
  | _ => none

/-- A text. -/
def text? : Value → Option String
  | .text s => some s
  | _ => none

/-- A list of texts. -/
def texts? : Value → Option (List String)
  | .list items => items.mapM text?
  | _ => none

/-- A flag. -/
def flag? : Value → Option Bool
  | .flag b => some b
  | _ => none

/-- An unsigned integer of 16 bits. -/
def short? : Value → Option (Fin 65536)
  | .integer n => if h : 0 ≤ n ∧ n.toNat < 65536 then some ⟨n.toNat, h.2⟩ else none
  | _ => none

/-- One of several names, as a text or as a table with the name over nothing. -/
def variant? (names : List String) : Value → Option String
  | .text name => names.find? (· == name)
  | .table [(name, .table [])] | .table [(name, .list [])] => names.find? (· == name)
  | _ => none

end Value

/-- The library of the program. -/
def library : Library where
  write? tables := some (String.ofList (render tables))
  read? := read?
  record? := Value.record?
  text? := Value.text?
  texts? := Value.texts?
  flag? := Value.flag?
  short? := Value.short?
  variant? := Value.variant?

end HeatPlacement.Toml
