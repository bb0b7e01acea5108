import HeatPlacement.Yaml.Node
import HeatPlacement.Json.Numeral
import HeatPlacement.Text.Unsigned

/-!
# The JSON value of a YAML text

* `Plain.value?`: what a plain scalar stands for
* `Node.toJson?`: the value of a node, with aliases expanded
* `Yaml.read?`: the value of a text that holds one document

Keys are taken as their text. Collections may be nested 128 deep, and the aliases of a document
may be followed a hundred times as often as it is long.
-/

namespace HeatPlacement.Yaml

/-! ### Plain scalars -/

namespace Plain

/-- Spellings of null. -/
def isNull (text : String) : Bool := ["null", "Null", "NULL", "~"].contains text

/-- Spellings of the booleans. -/
def bool? (text : String) : Option Bool :=
  if ["true", "True", "TRUE"].contains text then some true
  else if ["false", "False", "FALSE"].contains text then some false
  else none

/-- The value of digits in a base from 2 to 16; there must be one at least. -/
def natInBase? (base : Nat) (digits : List Char) : Option Nat :=
  if digits.isEmpty then none
  else
    digits.foldl (fun value? c => do
      let value ← value?
      let digit ← Text.hexValue? c
      if digit < base then some (base * value + digit) else none) (some 0)

/-- Whether a text is a zero and more digits, after an optional sign; such texts are no
integers. -/
def hasLeadingZero (text : List Char) : Bool :=
  let digits :=
    match text with
    | '-' :: rest => rest
    | '+' :: rest => rest
    | _ => text
  match digits with
  | '0' :: c :: rest => (c :: rest).all Text.isDigit
  | _ => false

/-- An integer: decimal, or with a base mark, after an optional sign. -/
def integer? (text : List Char) : Option Int :=
  let magnitude? (digits : List Char) : Option Nat :=
    match digits with
    | '0' :: 'x' :: rest => natInBase? 16 rest
    | '0' :: 'o' :: rest => natInBase? 8 rest
    | '0' :: 'b' :: rest => natInBase? 2 rest
    | _ => if hasLeadingZero text then none else Text.digits? digits
  match text with
  | '-' :: rest => (magnitude? rest).map fun n => -(n : Int)
  | '+' :: rest => (magnitude? rest).map fun n => (n : Int)
  | rest => (magnitude? rest).map fun n => (n : Int)

/-- A number read as a double: finite, infinite or not a number. -/
inductive Reading where
  | finite (x : Double)
  | special
  deriving DecidableEq, Repr

/-- The parts of a decimal number: digits on at least one side of the point, and an exponent. -/
def decimal? (text : List Char) : Option Numeral :=
  let (negative, unsigned) :=
    match text with
    | '-' :: rest => (true, rest)
    | _ => (false, text)
  let whole := unsigned.takeWhile Text.isDigit
  let afterWhole := unsigned.dropWhile Text.isDigit
  let (fraction, afterFraction) :=
    match afterWhole with
    | '.' :: rest => (rest.takeWhile Text.isDigit, rest.dropWhile Text.isDigit)
    | _ => ([], afterWhole)
  if whole.isEmpty && fraction.isEmpty then none
  else
    match afterFraction with
    | [] => some ⟨negative, whole, fraction, none⟩
    | c :: rest =>
      if c = 'e' ∨ c = 'E' then
        let (sign, digits) :=
          match rest with
          | '-' :: digits => (true, digits)
          | '+' :: digits => (false, digits)
          | _ => (false, rest)
        if digits.isEmpty || !digits.all Text.isDigit then none
        else some ⟨negative, whole, fraction, some (sign, digits)⟩
      else none

/-- A floating point number. A decimal that overflows is none. -/
def float? (text : List Char) : Option Reading :=
  let unsigned? :=
    match text with
    | '+' :: '+' :: _ | '+' :: '-' :: _ => none
    | '+' :: rest => some rest
    | _ => some text
  unsigned?.bind fun unsigned =>
    if [".inf", ".Inf", ".INF"].contains (String.ofList unsigned) ||
        ["-.inf", "-.Inf", "-.INF", ".nan", ".NaN", ".NAN"].contains (String.ofList text) then
      some .special
    else
      (decimal? unsigned).bind fun numeral =>
        let digits := digitsValue (numeral.whole ++ numeral.fraction)
        (Double.ofDecimal? numeral.negative digits
          (numeral.exponentValue - numeral.fraction.length)).map .finite

/-- The value of a reading: what is not finite is null. -/
def Reading.toJson : Reading → Json
  | .finite x => .num (.double x)
  | .special => .null

/-- The value of an integer: an error outside the 64-bit ranges. -/
def ofInteger? (n : Int) : Option Json :=
  if -(Nat.pow 2 63) ≤ n ∧ n < Nat.pow 2 64 then some (.num (.int n)) else none

/-- Whether an integer has its value in 128 bits; greater ones are read as doubles. -/
def isWide (n : Int) : Bool := n < -(Nat.pow 2 127) || Nat.pow 2 128 ≤ n

/-- What a plain scalar stands for. -/
def value? (text : String) : Option Json :=
  let chars := text.toList
  if text = "" || isNull text then some .null
  else
    match bool? text with
    | some b => some (.bool b)
    | none =>
      -- An integer of 128 bits that does not fit into 64 is an error, not a double.
      match (integer? chars).filter fun n => !isWide n with
      | some n => ofInteger? n
      | none =>
        if hasLeadingZero chars then some (.str text)
        else
          match float? chars with
          | some reading => some reading.toJson
          | none => some (.str text)

end Plain

/-! ### Nodes -/

/-- The name of a core tag. -/
def coreTag (name : String) : TagName := asciiBytes ("tag:yaml.org,2002:" ++ name).toList

/-- Whether a tag is local, which no value has. A tag whose bytes are no text does not count. -/
def isLocalTag (tag : TagName) : Bool :=
  match tag with
  | 33 :: _ => (String.fromUTF8? ⟨tag.toArray⟩).isSome
  | _ => false

/-- The value of a scalar. A core tag asks for its type; any other tag makes a string. -/
def scalarValue? (tag : Option TagName) (plain : Bool) (text : String) : Option Json :=
  match tag with
  | none => if plain then Plain.value? text else some (.str text)
  | some tag =>
    if isLocalTag tag then none
    else if tag = coreTag "bool" then (Plain.bool? text).map .bool
    else if tag = coreTag "int" then (Plain.integer? text.toList).bind Plain.ofInteger?
    else if tag = coreTag "float" then (Plain.float? text.toList).map Plain.Reading.toJson
    else if tag = coreTag "null" then if Plain.isNull text then some .null else none
    else some (.str text)

namespace Node

/-- What aliases may stand for, and how often they may be followed. -/
structure Aliases where
  /-- Under each number the node that started last. -/
  targets : List (Nat × Node)
  limit : Nat

/-- The node that a node stands for, and the number of aliases followed so far. -/
def follow? (aliases : Aliases) (followed : Nat) : Node → Option (Node × Nat)
  | .alias number =>
    if followed < aliases.limit then
      (aliases.targets.lookup number).map fun target => (target, followed + 1)
    else none
  | node => some (node, followed)

/-- The text of a key. -/
def keyText? (aliases : Aliases) (followed : Nat) (key : Node) : Option (String × Nat) :=
  match follow? aliases followed key with
  | some (.scalar _ _ _ text, followed) => some (text, followed)
  | _ => none

/-- The values of items in order, and the number of aliases followed so far. -/
def itemValues? (value? : Nat → Node → Option (Json × Nat)) (done : List Json) (followed : Nat) :
    List Node → Option (Json × Nat)
  | [] => some (.arr done.reverse, followed)
  | item :: rest =>
    match value? followed item with
    | none => none
    | some (value, followed) => itemValues? value? (value :: done) followed rest

/-- The members that entries give in order, and the number of aliases followed so far. -/
def entryValues? (aliases : Aliases) (value? : Nat → Node → Option (Json × Nat))
    (done : Fields Json) (followed : Nat) : List (Node × Node) → Option (Json × Nat)
  | [] => some (.obj done, followed)
  | (key, item) :: rest =>
    match keyText? aliases followed key with
    | none => none
    | some (name, followed) =>
      match value? followed item with
      | none => none
      | some (value, followed) =>
        entryValues? aliases value? (Fields.insert done name value) followed rest

/-- The value of a node with at most `depth` collections inside each other, and the number of
aliases followed so far. -/
def toJson? (aliases : Aliases) : Nat → Nat → Node → Option (Json × Nat)
  | depth, followed, node =>
    match follow? aliases followed node with
    | none | some (.alias _, _) => none
    | some (.scalar _ tag plain text, followed) =>
      (scalarValue? tag plain text).map fun value => (value, followed)
    | some (.sequence _ tag items, followed) =>
      match depth with
      | 0 => none
      | depth + 1 =>
        if tag.any isLocalTag then none
        else itemValues? (toJson? aliases depth) [] followed items
    | some (.mapping _ tag entries, followed) =>
      match depth with
      | 0 => none
      | depth + 1 =>
        if tag.any isLocalTag then none
        else entryValues? aliases (toJson? aliases depth) [] followed entries

end Node

/-- The most collections inside each other. -/
def depthLimit : Nat := 128

/-- The value of a text that holds one document; an empty text is null. -/
def read? (text : String) : Option Json := do
  let tokens ← tokens? text
  let node ← Node.ofTokens? tokens
  let aliases : Node.Aliases := ⟨(node.anchored []).reverse, 100 * node.size⟩
  let (value, _) ← node.toJson? aliases depthLimit 0
  pure value

end HeatPlacement.Yaml
