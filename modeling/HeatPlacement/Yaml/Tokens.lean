import HeatPlacement.Yaml.TagText

/-!
# The tokens of a text

The block structure of a text is made explicit: where the indentation grows, a token opens a
collection, and where it shrinks, a token closes one. A colon turns the node before it into a key,
provided that node starts on the same line and at most 1024 characters before; the key's tokens
are then put in front of that node.

* `Scan`: a scan under way
* `Scan.next?`: one token, at least
* `Yaml.tokens?`: all tokens of a text
-/

namespace HeatPlacement.Yaml

/-- A node that a colon may still turn into a key. -/
structure KeyCandidate where
  /-- Whether the node can be nothing but a key. -/
  required : Bool
  /-- The number of tokens before the node. -/
  position : Nat
  line : Nat
  column : Nat
  index : Nat
  deriving DecidableEq, Repr, Inhabited

/-- A scan under way. -/
structure Scan where
  cells : List Cell
  tokens : Array Token
  /-- The candidates of the open brackets, innermost first, and of the block around them. -/
  outer : List (Option KeyCandidate)
  /-- The candidate of the innermost level. -/
  candidate : Option KeyCandidate
  /-- The column of the innermost block collection, `-1` outside of all. -/
  indent : Int
  /-- The columns of the collections around it. -/
  indents : List Int
  /-- Whether a key may start here. -/
  keyAllowed : Bool
  deriving Repr, Inhabited

namespace Scan

/-- Whether the scan is inside brackets. -/
def inFlow (scan : Scan) : Bool := !scan.outer.isEmpty

/-- Add a token at the end. -/
def emit (scan : Scan) (token : Token) : Scan := { scan with tokens := scan.tokens.push token }

/-- Skip blanks, comments and breaks. A tab may not stand where a key may start in a block; after
a break in a block a key may start. -/
def skipBlanks (flow : Bool) (keyAllowed inComment : Bool) : List Cell → Bool × List Cell
  | [] => (keyAllowed, [])
  | cell :: rest =>
    let c := cell.char
    if isBreak c then skipBlanks flow (keyAllowed || !flow) false rest
    else if inComment then skipBlanks flow keyAllowed true rest
    else if c = ' ' ∨ (c = '\t' ∧ (flow || !keyAllowed) = true) then
      skipBlanks flow keyAllowed false rest
    else if c = '#' then skipBlanks flow keyAllowed true rest
    else if cell.column = 0 ∧ isByteOrderMark c then skipBlanks flow keyAllowed false rest
    else (keyAllowed, cell :: rest)

/-- Close the block collections that are indented more than `column`. -/
def unroll (scan : Scan) (column : Int) : Scan :=
  if scan.inFlow then scan
  else
    let rec close (tokens : Array Token) (indent : Int) :
        List Int → Array Token × Int × List Int
      | [] => (tokens, indent, [])
      | next :: more =>
        if column < indent then close (tokens.push .blockEnd) next more
        else (tokens, indent, next :: more)
    let (tokens, indent, indents) := close scan.tokens scan.indent scan.indents
    { scan with tokens := tokens, indent := indent, indents := indents }

/-- Open a block collection at `column`, unless one is open there; its token goes to `position`. -/
def roll (scan : Scan) (column position : Nat) (token : Token) : Scan :=
  if scan.inFlow || (column : Int) ≤ scan.indent then scan
  else
    { scan with
      tokens := scan.tokens.insertIdxIfInBounds position token
      indent := column, indents := scan.indent :: scan.indents }

/-- Give up the candidate of the innermost level. -/
def dropCandidate? (scan : Scan) : Option Scan :=
  match scan.candidate with
  | some candidate => if candidate.required then none else some { scan with candidate := none }
  | none => some scan

/-- The candidate that is still one at a cell. -/
def fresh? (cell : Cell) : Option KeyCandidate → Option (Option KeyCandidate)
  | none => some none
  | some candidate =>
    if candidate.line < cell.line ∨ candidate.index + 1024 < cell.index then
      if candidate.required then none else some none
    else some (some candidate)

/-- Give up the candidates that are too far away. -/
def dropStale? (scan : Scan) (cell : Cell) : Option Scan := do
  let candidate ← fresh? cell scan.candidate
  let outer ← scan.outer.mapM (fresh? cell)
  pure { scan with candidate := candidate, outer := outer }

/-- Make the node that starts at a cell a candidate, where a key may start. -/
def saveCandidate? (scan : Scan) (cell : Cell) : Option Scan :=
  if scan.keyAllowed then do
    let scan ← scan.dropCandidate?
    pure
      { scan with
        candidate := some
          { required := !scan.inFlow && scan.indent == (cell.column : Int)
            position := scan.tokens.size
            line := cell.line, column := cell.column, index := cell.index } }
  else some scan

/-- A document mark or a directive: all block collections end. -/
def endBlocks? (scan : Scan) : Option Scan := do
  let scan ← (scan.unroll (-1)).dropCandidate?
  pure { scan with keyAllowed := false }

/-- An opening bracket. -/
def openFlow? (scan : Scan) (cell : Cell) (rest : List Cell) (token : Token) : Option Scan := do
  let scan ← scan.saveCandidate? cell
  pure
    { scan.emit token with
      outer := scan.candidate :: scan.outer, candidate := none, keyAllowed := true, cells := rest }

/-- A closing bracket. -/
def closeFlow? (scan : Scan) (rest : List Cell) (token : Token) : Option Scan := do
  let scan ← scan.dropCandidate?
  let scan := { scan.emit token with keyAllowed := false, cells := rest }
  match scan.outer with
  | [] => pure scan
  | candidate :: outer => pure { scan with candidate := candidate, outer := outer }

/-- The comma between the entries of a bracket. -/
def flowEntry? (scan : Scan) (rest : List Cell) : Option Scan := do
  let scan ← scan.dropCandidate?
  pure { scan.emit .flowEntry with keyAllowed := true, cells := rest }

/-- The dash before an item of a block sequence. -/
def blockEntry? (scan : Scan) (cell : Cell) (rest : List Cell) : Option Scan := do
  if !scan.inFlow && !scan.keyAllowed then none
  let scan ← (scan.roll cell.column scan.tokens.size .blockSequenceStart).dropCandidate?
  pure { scan.emit .blockEntry with keyAllowed := true, cells := rest }

/-- The question mark before a key. -/
def key? (scan : Scan) (cell : Cell) (rest : List Cell) : Option Scan := do
  if !scan.inFlow && !scan.keyAllowed then none
  let scan ← (scan.roll cell.column scan.tokens.size .blockMappingStart).dropCandidate?
  pure { scan.emit .key with keyAllowed := !scan.inFlow, cells := rest }

/-- The colon before a value. -/
def value? (scan : Scan) (cell : Cell) (rest : List Cell) : Option Scan :=
  match scan.candidate with
  | some candidate =>
    -- The node is a key after all: its tokens go in front of it, the opening one first.
    let scan :=
      { scan with tokens := scan.tokens.insertIdxIfInBounds candidate.position .key }
    let scan := scan.roll candidate.column candidate.position .blockMappingStart
    some { scan.emit .value with candidate := none, keyAllowed := false, cells := rest }
  | none =>
    -- The key was given by a question mark, or it is empty.
    if !scan.inFlow && !scan.keyAllowed then none
    else
      let scan := scan.roll cell.column scan.tokens.size .blockMappingStart
      some { scan.emit .value with keyAllowed := !scan.inFlow, cells := rest }

/-- A token that a key may start with. -/
def node? (scan : Scan) (cell : Cell) (read? : Option (Token × List Cell)) : Option Scan := do
  let scan ← scan.saveCandidate? cell
  let (token, rest) ← read?
  pure { scan.emit token with keyAllowed := false, cells := rest }

/-- A block scalar. -/
def block? (scan : Scan) (literal : Bool) (rest : List Cell) : Option Scan := do
  let scan ← scan.dropCandidate?
  let (text, rest) ← readBlock? literal scan.indent rest
  pure { scan.emit (.scalar text false) with keyAllowed := true, cells := rest }

/-- A plain scalar. A key may follow it on a new line. -/
def plain? (scan : Scan) (cell : Cell) (cells : List Cell) : Option Scan := do
  let scan ← scan.saveCandidate? cell
  let (text, broken, rest) ← readPlain? scan.inFlow (scan.indent + 1) .empty cells
  pure { scan.emit (.scalar text true) with keyAllowed := broken, cells := rest }

/-- Whether a plain scalar may start here. Outside of brackets it may start with a question mark
or colon before a character that ends no word. -/
def startsPlain (flow : Bool) (c : Char) (rest : List Cell) : Bool :=
  let blankNext :=
    match rest with
    | next :: _ => isBlank next.char
    | [] => false
  if c = '-' then !blankNext
  else if c = '?' ∨ c = ':' then !flow && !endsWord rest
  else !(isBlank c || isBreak c || ",[]\x7b\x7d#&*!|>'\"%@`".toList.contains c)

/-- The token at a cell, with whatever the indentation puts before it. -/
def token? (scan : Scan) (cell : Cell) (rest : List Cell) : Option Scan :=
  let cells := cell :: rest
  let flow := scan.inFlow
  let c := cell.char
  -- Directives and document marks count in the first column only.
  if cell.column = 0 ∧ c = '%' then do
    let scan ← scan.endBlocks?
    let (token, rest) ← readDirective? rest
    pure { scan.emit token with cells := rest }
  else if isIndicator '-' cells then do
    let scan ← scan.endBlocks?
    pure { scan.emit .documentStart with cells := cells.drop 3 }
  else if isIndicator '.' cells then do
    let scan ← scan.endBlocks?
    pure { scan.emit .documentEnd with cells := cells.drop 3 }
  else if c = '[' then scan.openFlow? cell rest .flowSequenceStart
  else if c = '\x7b' then scan.openFlow? cell rest .flowMappingStart
  else if c = ']' then scan.closeFlow? rest .flowSequenceEnd
  else if c = '\x7d' then scan.closeFlow? rest .flowMappingEnd
  else if c = ',' then scan.flowEntry? rest
  -- Inside brackets the question mark and the colon need no blank behind them.
  else if c = '-' ∧ endsWord rest then scan.blockEntry? cell rest
  else if c = '?' ∧ (flow || endsWord rest) then scan.key? cell rest
  else if c = ':' ∧ (flow || endsWord rest) then scan.value? cell rest
  else if c = '*' then
    scan.node? cell ((readAnchor? rest).map fun (name, rest) => (.alias name, rest))
  else if c = '&' then
    scan.node? cell ((readAnchor? rest).map fun (name, rest) => (.anchor name, rest))
  else if c = '!' then scan.node? cell (readTag? flow rest)
  else if c = '|' ∧ !flow then scan.block? true rest
  else if c = '>' ∧ !flow then scan.block? false rest
  else if c = '\x27' then
    scan.node? cell ((readSingle? .empty rest).map fun (text, rest) => (.scalar text false, rest))
  else if c = '"' then
    scan.node? cell
      ((readDouble? .empty 0 0 rest).map fun (text, rest) => (.scalar text false, rest))
  else if startsPlain flow c rest then scan.plain? cell cells
  else none

/-- The next token, or none at the end of the text; the outer option is a text that has no
tokens. -/
def next? (scan : Scan) : Option (Option Scan) :=
  let (keyAllowed, cells) := skipBlanks scan.inFlow scan.keyAllowed false scan.cells
  let scan := { scan with keyAllowed := keyAllowed, cells := cells }
  match cells with
  | [] => some none
  | cell :: rest => do
    -- Candidates grow stale and blocks end before the token is looked at.
    let scan ← scan.dropStale? cell
    let scan := scan.unroll cell.column
    let scan ← scan.token? cell rest
    pure (some scan)

/-- All tokens. Every one takes a cell, so that as many steps as cells are enough. -/
def all? : Nat → Scan → Option (Array Token)
  | 0, _ => none
  | steps + 1, scan =>
    match scan.next? with
    | none => none
    | some none => scan.endBlocks?.map Scan.tokens
    | some (some scan) => all? steps scan

end Scan

/-- The tokens of a text. -/
def tokens? (text : String) : Option (List Token) := do
  let cells ← cells? text
  let start : Scan :=
    { cells := cells, tokens := #[], outer := [], candidate := none, indent := -1, indents := []
      keyAllowed := true }
  let tokens ← start.all? (cells.length + 1)
  pure tokens.toList

end HeatPlacement.Yaml
