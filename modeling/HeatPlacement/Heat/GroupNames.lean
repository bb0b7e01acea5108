import HeatPlacement.Heat.Parameter
import HeatPlacement.Json.Printer

/-!
# Group names in metadata

The `valet_groups` of a server's metadata name its groups, in a text, a list or a reference.

* `GroupNames.unquoteSeparators`: a literal text, with the quotes around its commas removed
* `GroupNames.groups`: the names in any other text
* `GroupNames.tidy`: these names joined by a comma and a blank
-/

namespace HeatPlacement.Heat.GroupNames

/-- Drop one blank from the front, if there is one. -/
def dropBlank : List Char → List Char
  | c :: rest => if Text.isBlank c then rest else c :: rest
  | [] => []

theorem length_dropBlank_le (text : List Char) : (dropBlank text).length ≤ text.length := by
  cases text with
  | nil => simp [dropBlank]
  | cons c rest => by_cases h : Text.isBlank c = true <;> simp [dropBlank, h]

/-- What follows a separator at the front: a comma between quotes, with at most one blank on
either side of it. -/
def afterSeparator? : List Char → Option (List Char)
  | '"' :: rest =>
    match dropBlank rest with
    | ',' :: rest =>
      match dropBlank rest with
      | '"' :: rest => some rest
      | _ => none
    | _ => none
  | _ => none

theorem length_afterSeparator {text rest : List Char} (h : afterSeparator? text = some rest) :
    rest.length < text.length := by
  unfold afterSeparator? at h
  split at h
  · rename_i first
    have h₁ := length_dropBlank_le first
    split at h
    · rename_i second hs
      have h₂ := length_dropBlank_le second
      split at h
      · rename_i third ht
        cases h
        rw [hs] at h₁
        rw [ht] at h₂
        simp only [List.length_cons] at h₁ h₂ ⊢
        omega
      · cases h
    · cases h
  · cases h

/-- Every separator becomes a comma and a blank. -/
def unquoteSeparators (text : List Char) : List Char :=
  match _h : afterSeparator? text with
  | some rest => ',' :: ' ' :: unquoteSeparators rest
  | none =>
    match text with
    | [] => []
    | c :: rest => c :: unquoteSeparators rest
termination_by text.length
decreasing_by
  · exact length_afterSeparator (by assumption)
  · simp

/-- The pieces of a text between its commas. -/
def pieces : List Char → List (List Char)
  | [] => [[]]
  | c :: rest =>
    if c = ',' then [] :: pieces rest
    else
      match pieces rest with
      | [] => [[c]]
      | first :: more => (c :: first) :: more

/-- Quotes and list brackets. -/
def isWrapping (c : Char) : Bool := c == '"' || c == '[' || c == ']'

/-- A piece without blanks, quotes and brackets around it. -/
def unwrap (piece : List Char) : List Char :=
  Text.trim (Text.trimMatches isWrapping (Text.trim piece))

/-- The group names in a text: what its commas separate, unwrapped, if anything is left. -/
def groups (text : List Char) : List (List Char) :=
  ((pieces text).map unwrap).filter fun name => !name.isEmpty

/-- The group names in a text, joined by a comma and a blank. -/
def tidy (text : List Char) : List Char := [',', ' '].intercalate (groups text)

/-- A value as plain text: a string itself, nothing for null, else its JSON text. -/
def valueText : Json → List Char
  | .str s => s.toList
  | .null => []
  | value => value.render []

/-- An item of a group list as text; a reference is resolved, and its items are joined. -/
def itemText (scopes : Scopes) (scope : Fields Json) (item : Json) : List Char :=
  match paramName? item with
  | none => valueText item
  | some name =>
    match scopes.resolvePlain name (some scope) with
    | some (.arr items) => [','].intercalate (items.map valueText)
    | some value => valueText value
    | none => []

/-- The text of `valet_groups`. -/
def resolve (scopes : Scopes) (scope : Fields Json) : Json → List Char
  | .str s => unquoteSeparators s.toList
  | .arr items => tidy ([','].intercalate (items.map (itemText scopes scope)))
  | value => tidy (itemText scopes scope value)

end HeatPlacement.Heat.GroupNames
