import HeatPlacement.Toml.Quoted
import HeatPlacement.Toml.Word

/-!
# Configuration texts

* `Toml.value?`: the value at the start of an input
* `Statement`: what a line says; `Toml.statements?`: the statements of a text
* `Toml.read?`: the table that a text describes
-/

namespace HeatPlacement.Toml

open Quoted (isLayout)

/-! ### Layout and keys -/

/-- Skip blanks. -/
def skipBlanks (text : List Char) : List Char := text.dropWhile isLayout

/-- Skip blanks, line ends and comments. -/
def skipLayout : (comment : Bool) → List Char → List Char
  | _, [] => []
  | comment, c :: rest =>
    if c = '\n' then skipLayout false rest
    else if c = '\r' && Quoted.startsLine rest then skipLayout false rest
    else if comment then if Quoted.isPlain c then skipLayout true rest else c :: rest
    else if isLayout c then skipLayout false rest
    else if c = '#' then skipLayout true rest
    else c :: rest

/-- What follows the line, if no more than blanks and a comment stand on it. -/
def nextLine? (text : List Char) : Option (List Char) :=
  let rest := skipBlanks text
  let rest :=
    match rest with
    | '#' :: comment => comment.dropWhile Quoted.isPlain
    | _ => rest
  match rest with
  | [] => some []
  | '\n' :: rest => some rest
  | '\r' :: '\n' :: rest => some rest
  | _ => none

/-- Whether a character may stand in a key without quotes. -/
def isKeyChar (c : Char) : Bool :=
  Text.isDigit c || ('a' ≤ c && c ≤ 'z') || ('A' ≤ c && c ≤ 'Z') || c == '_' || c == '-'

/-- Read one part of a key. -/
def keyPart? (text : List Char) : Option (String × List Char) :=
  let found :=
    match text with
    | '"' :: rest => Quoted.body? false (.plain false) rest
    | '\'' :: rest => Quoted.literal? rest
    | _ =>
      match text.span isKeyChar with
      | ([], _) => none
      | found => some found
  found.map fun (part, rest) => (String.ofList part, rest)

/-- A dotted key: the names of the tables on the way, and the last name. -/
structure Key where
  path : List String
  name : String
  deriving DecidableEq, Repr, Inhabited

/-- All names of a key. -/
def Key.names (key : Key) : List String := key.path ++ [key.name]

/-- The most parts of a key, and the most brackets around a value. -/
def limit : Nat := 79

/-- Read a key of so many parts at most, with the blanks around its parts. -/
def key? : (parts : Nat) → List Char → Option (Key × List Char)
  | 0, _ => none
  | parts + 1, text => do
    let (name, rest) ← keyPart? (skipBlanks text)
    match skipBlanks rest with
    | '.' :: rest =>
      let (key, rest) ← key? parts rest
      return ({ key with path := name :: key.path }, rest)
    | rest => return (⟨[], name⟩, rest)

/-! ### Values -/

/-- Read a value without brackets. A date and a time may have a blank between them. -/
def plain? (text : List Char) : Option (Value × List Char) :=
  match text with
  | '"' :: _ | '\'' :: _ =>
    (Quoted.decode text).map fun (found, rest) => (.text (String.ofList found), rest)
  | _ =>
    let (word, rest) := text.span isWordChar
    let (word, rest) :=
      match date? word, rest with
      -- A whole date, and a digit behind the blank: the time goes with it.
      | some [], ' ' :: c :: more =>
        if Text.isDigit c then
          (word ++ ' ' :: (c :: more).takeWhile isWordChar, (c :: more).dropWhile isWordChar)
        else (word, rest)
      | _, _ => (word, rest)
    (Value.ofWord? word).map fun value => (value, rest)

/-- Read the items of a list up to its closing bracket, so many at most. -/
def items? (value? : List Char → Option (Value × List Char)) :
    Nat → List Char → Option (List Value × List Char)
  | 0, _ => none
  | count + 1, text =>
    match skipLayout false text with
    | ']' :: rest => some ([], rest)
    | text => do
      let (item, rest) ← value? text
      match skipLayout false rest with
      | ',' :: rest =>
        let (items, rest) ← items? value? count rest
        return (item :: items, rest)
      | ']' :: rest => return ([item], rest)
      | _ => none

/-- Read a key with its value. -/
def keyValue? (value? : List Char → Option (Value × List Char)) (text : List Char) :
    Option ((Key × Value) × List Char) := do
  let (key, rest) ← key? limit text
  let rest ← after? '=' rest
  let (value, rest) ← value? (skipBlanks rest)
  return ((key, value), rest)

/-- Read the entries of a table between braces up to the closing one, so many at most. They stand
on one line, and a comma has an entry on either side. -/
def entries? (value? : List Char → Option (Value × List Char)) :
    Nat → List Char → Members → Option (Members × List Char)
  | 0, _, _ => none
  | count + 1, text, members => do
    let ((key, value), rest) ← keyValue? value? text
    let members ← members.assign key.path key.name value
    match skipBlanks rest with
    | ',' :: rest => entries? value? count rest members
    | '\x7d' :: rest => return (members, rest)
    | _ => none

/-- Read a value with so many brackets around a value at most. -/
def value? : (levels : Nat) → List Char → Option (Value × List Char)
  | 0, text => plain? text
  | levels + 1, text =>
    match text with
    | '[' :: rest =>
      (items? (value? levels) (rest.length + 1) rest).map fun (items, rest) => (.list items, rest)
    | '\x7b' :: rest =>
      match skipBlanks rest with
      | '\x7d' :: rest => some (.table [], rest)
      | _ =>
        (entries? (value? levels) (rest.length + 1) rest []).map fun (members, rest) =>
          (.table (finishedMembers members), rest)
    | _ => plain? text

/-! ### Statements -/

/-- What a line says. -/
inductive Statement where
  /-- A key has a value. -/
  | entry (key : Key) (value : Value)
  /-- The lines that follow are about a table. -/
  | header (key : Key)
  /-- The lines that follow are about the next item of a list of tables. -/
  | item (key : Key)
  deriving Repr, Inhabited

/-- Read one statement with the rest of its last line. -/
def statement? (text : List Char) : Option (Statement × List Char) :=
  match text with
  | '[' :: '[' :: rest => do
    let (key, rest) ← key? limit rest
    let rest ← after? ']' (← after? ']' rest)
    return (.item key, ← nextLine? rest)
  | '[' :: rest => do
    let (key, rest) ← key? limit rest
    return (.header key, ← nextLine? (← after? ']' rest))
  | _ => do
    let ((key, value), rest) ← keyValue? (value? limit) text
    return (.entry key value, ← nextLine? rest)

/-- Read all statements, so many at most. -/
def statements? : Nat → List Char → Option (List Statement)
  | 0, _ => none
  | count + 1, text =>
    match skipLayout false text with
    | [] => some []
    | text => do
      let (statement, rest) ← statement? text
      let statements ← statements? count rest
      return statement :: statements

/-! ### Documents -/

/-- A document that is being read: its table, and the names of the table that lines are about. -/
structure Draft where
  members : Members
  current : List String
  deriving Inhabited

/-- The document after one more statement. -/
def Draft.add (draft : Draft) : Statement → Option Draft
  | .entry key value =>
    (draft.members.descend draft.current (Members.assign key.path key.name value)).map
      fun members => { draft with members := members }
  | .header key =>
    (draft.members.descend key.path (Members.open? key.name)).map fun members =>
      ⟨members, key.names⟩
  | .item key =>
    (draft.members.descend key.path (Members.append? key.name)).map fun members =>
      ⟨members, key.names⟩

/-- The table that statements describe. -/
def table? (statements : List Statement) : Option (Fields Value) :=
  (statements.foldlM Draft.add ⟨[], []⟩).map fun draft => finishedMembers draft.members

/-- The table that a text describes. A byte order mark may stand at its start. -/
def read? (text : String) : Option (Fields Value) :=
  let text := text.toList
  let text := if text.head? = some '\ufeff' then text.drop 1 else text
  (statements? (text.length + 1) text).bind table?

end HeatPlacement.Toml
