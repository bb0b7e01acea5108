import HeatPlacement.Text.Unsigned

/-!
# Media types

* `MediaType.read?`: type, subtype and suffix of a media type with well-formed parameters
* `MediaType.isJson`: whether it names JSON
-/

namespace HeatPlacement.Api

/-- A media type in lower case, without its parameters. -/
structure MediaType where
  type : List Char
  /-- What stands before the last plus sign. -/
  subtype : List Char
  /-- What stands behind it. -/
  suffix : Option (List Char)
  deriving DecidableEq, Repr

namespace MediaType

/-- Whether a character may stand in a name. -/
def isToken (c : Char) : Bool :=
  ('a' ≤ c && c ≤ 'z') || ('A' ≤ c && c ≤ 'Z') || Text.isDigit c ||
    "!#$%&\x27*+-.^_\x60|~".toList.contains c

/-- Where a reader of parameters stands. -/
inductive ParameterState where
  /-- Before a name. -/
  | start
  | name
  /-- Right behind the equals sign. -/
  | value
  | token
  | quoteStart
  | quoted
  /-- Behind the closing quote. -/
  | closed
  deriving DecidableEq, Repr

/-- The state behind one character. -/
def ParameterState.step (state : ParameterState) (c : Char) : Option ParameterState :=
  match state with
  | .start => if c = ' ' then some .start else if isToken c then some .name else none
  | .name => if isToken c then some .name else if c = '=' then some .value else none
  | .value =>
    if c = '"' then some .quoteStart else if isToken c then some .token else none
  | .token => if isToken c then some .token else if c = ';' then some .start else none
  | .quoteStart => if ' ' ≤ c && c ≤ '~' && c ≠ '"' then some .quoted else none
  | .quoted =>
    if c = '"' then some .closed else if ' ' ≤ c && c ≤ '~' then some .quoted else none
  | .closed => if c = ';' then some .start else if c = ' ' then some .closed else none

/-- Whether parameters may end here. -/
def ParameterState.mayEnd : ParameterState → Bool
  | .start | .value | .token | .closed => true
  | .name | .quoteStart | .quoted => false

/-- Whether the parameters behind a semicolon are well-formed. -/
def parametersValid (text : List Char) : Bool :=
  match text.foldlM ParameterState.step .start with
  | some state => state.mayEnd
  | none => false

/-- Read a media type. -/
def read? (text : String) : Option MediaType :=
  let lower (cs : List Char) : List Char := cs.map Char.toLower
  let (type, rest) := text.toList.span isToken
  match type, rest with
  | _ :: _, '/' :: rest =>
    let (name, rest) := rest.span isToken
    let valid :=
      match rest with
      | [] => true
      | ';' :: parameters => !name.isEmpty && parametersValid parameters
      | _ => false
    if valid then
      let suffix := (name.reverse.takeWhile (· ≠ '+')).reverse
      let before := name.take (name.length - suffix.length - 1)
      if name.contains '+' && !before.isEmpty then
        some ⟨lower type, lower before, some (lower suffix)⟩
      else some ⟨lower type, lower name, none⟩
    else none
  | _, _ => none

/-- Whether a media type names JSON. -/
def isJson (m : MediaType) : Bool :=
  m.type == "application".toList && (m.subtype == "json".toList || m.suffix == some "json".toList)

example : (read? "APPLICATION/vnd.x+json; charset=\"utf 8\"").any isJson = true := by decide +kernel
example : (read? "application/json ;x=y") = none := by decide +kernel

end MediaType

end HeatPlacement.Api
