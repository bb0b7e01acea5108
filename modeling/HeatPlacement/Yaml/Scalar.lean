import HeatPlacement.Text.Hex
import HeatPlacement.Yaml.Cell

/-!
# The text of scalars

The three ways to write a scalar, each read one cell at a time.

* `Folding`: a text whose line breaks are folded
* `readPlain?`, `readQuoted?`, `readBlock?`: the text of a scalar and the cells after it
-/

namespace HeatPlacement.Yaml

/-! ### Folding -/

/-- A text under construction, in reverse order, with the blanks and breaks after its last word. -/
structure Folding where
  text : List Char
  /-- Blanks on the line of the last word. -/
  blanks : List Char
  /-- Whether a break followed the last word. -/
  broken : Bool
  /-- The first break after the last word, unless it was escaped. -/
  firstBreak : Option Char
  /-- The breaks after that one. -/
  moreBreaks : List Char
  deriving Repr, Inhabited

namespace Folding

/-- Nothing yet. -/
def empty : Folding := ⟨[], [], false, none, []⟩

/-- Take a blank. After a break it is indentation. -/
def blank (folding : Folding) (c : Char) : Folding :=
  if folding.broken then folding else { folding with blanks := c :: folding.blanks }

/-- Take a break. -/
def lineBreak (folding : Folding) (c : Char) : Folding :=
  if folding.broken then { folding with moreBreaks := c :: folding.moreBreaks }
  else { folding with blanks := [], broken := true, firstBreak := some c }

/-- Take a break that a backslash escapes. -/
def escapedBreak (folding : Folding) : Folding := { folding with broken := true }

/-- Put the pending blanks or the folded breaks into the text: a single line feed becomes a
blank, and a line feed before others disappears. -/
def settle (folding : Folding) : Folding :=
  let text :=
    if folding.broken then
      match folding.firstBreak with
      | some '\n' =>
        if folding.moreBreaks.isEmpty then ' ' :: folding.text
        else folding.moreBreaks ++ folding.text
      | some c => folding.moreBreaks ++ c :: folding.text
      | none => folding.moreBreaks ++ folding.text
    else folding.blanks ++ folding.text
  ⟨text, [], false, none, []⟩

/-- Take a character of a word. -/
def push (folding : Folding) (c : Char) : Folding := { folding with text := c :: folding.text }

/-- Whether blanks or breaks are pending. -/
def isPending (folding : Folding) : Bool := folding.broken || !folding.blanks.isEmpty

end Folding

/-! ### Plain scalars -/

/-- The characters that end a plain scalar inside brackets. -/
def endsFlow (c : Char) : Bool := c == ',' || c == '[' || c == ']' || c == '\x7b' || c == '\x7d'

/-- The characters that must not follow a colon inside brackets. -/
def clashesWithColon : List Cell → Bool
  | cell :: _ => endsFlow cell.char || cell.char == '?'
  | [] => false

/-- A plain scalar: its text, whether it ended after a line break, and the cells after it. Inside
brackets it also ends at their indicators; outside it must be indented by `indent`. -/
def readPlain? (flow : Bool) (indent : Int) (folding : Folding) :
    List Cell → Option (List Char × Bool × List Cell)
  | [] => some (folding.text.reverse, folding.broken, [])
  | cell :: rest =>
    let c := cell.char
    if isBlank c then
      if folding.broken && (cell.column : Int) < indent && c == '\t' then none
      else readPlain? flow indent (folding.blank c) rest
    else if isBreak c then readPlain? flow indent (folding.lineBreak c) rest
    else
      -- Blanks and breaks behind the last word are not part of the scalar.
      let stop := some (folding.text.reverse, folding.broken, cell :: rest)
      if folding.isPending && !flow && (cell.column : Int) < indent then stop
      else if isDocumentMark (cell :: rest) then stop
      else if c == '#' && folding.isPending then stop
      else if flow && c == ':' && clashesWithColon rest then none
      else if (c == ':' && endsWord rest) || (flow && endsFlow c) then stop
      else readPlain? flow indent (folding.settle.push c) rest

/-! ### Quoted scalars -/

/-- What a letter after a backslash stands for. -/
inductive Escape where
  | char (c : Char)
  /-- The number of hexadecimal digits of a code point that follows. -/
  | code (digits : Nat)
  deriving DecidableEq, Repr

/-- The meaning of the letter after a backslash. -/
def escape? (c : Char) : Option Escape :=
  match c with
  | '0' => some (.char '\x00')
  | 'a' => some (.char '\x07')
  | 'b' => some (.char '\x08')
  | 't' => some (.char '\t')
  | '\t' => some (.char '\t')
  | 'n' => some (.char '\n')
  | 'v' => some (.char '\x0b')
  | 'f' => some (.char '\x0c')
  | 'r' => some (.char '\r')
  | 'e' => some (.char '\x1b')
  | ' ' => some (.char ' ')
  | '"' => some (.char '"')
  | '/' => some (.char '/')
  | '\\' => some (.char '\\')
  | 'N' => some (.char '\u0085')
  | '_' => some (.char '\u00a0')
  | 'L' => some (.char '\u2028')
  | 'P' => some (.char '\u2029')
  | 'x' => some (.code 2)
  | 'u' => some (.code 4)
  | 'U' => some (.code 8)
  | _ => none

/-- The cells after the opening quote of a scalar in single quotes: its text and what follows. -/
def readSingle? (folding : Folding) : List Cell → Option (List Char × List Cell)
  | [] => none
  | cell :: rest =>
    let c := cell.char
    if isBlank c then readSingle? (folding.blank c) rest
    else if isBreak c then readSingle? (folding.lineBreak c) rest
    else if isDocumentMark (cell :: rest) then none
    else if c = '\'' then
      match rest with
      | ⟨'\'', _, _, _⟩ :: more => readSingle? (folding.settle.push '\'') more
      | _ => some (folding.settle.text.reverse, rest)
    else readSingle? (folding.settle.push c) rest

/-- The cells after the opening quote of a scalar in double quotes. While `left` is positive, so
many digits of the code point `code` are still to come. -/
def readDouble? (folding : Folding) (left code : Nat) :
    List Cell → Option (List Char × List Cell)
  | [] => none
  | cell :: rest =>
    let c := cell.char
    if 0 < left then
      match Text.hexValue? c with
      | none => none
      | some digit =>
        let code := 16 * code + digit
        if left = 1 then
          match Text.character? code with
          | none => none
          | some d => readDouble? (folding.push d) 0 0 rest
        else readDouble? folding (left - 1) code rest
    else if isBlank c then readDouble? (folding.blank c) 0 0 rest
    else if isBreak c then readDouble? (folding.lineBreak c) 0 0 rest
    else if isDocumentMark (cell :: rest) then none
    else if c = '"' then some (folding.settle.text.reverse, rest)
    else if c = '\\' then
      match rest with
      | [] => none
      | next :: more =>
        -- Blanks before an escaped break stay, and those behind it are indentation.
        if isBreak next.char then readDouble? folding.settle.escapedBreak 0 0 more
        else
          match escape? next.char with
          | none => none
          | some (.char d) => readDouble? (folding.settle.push d) 0 0 more
          | some (.code digits) => readDouble? folding.settle digits 0 more
    else readDouble? (folding.settle.push c) 0 0 rest

/-! ### Block scalars -/

/-- What becomes of the breaks at the end of a block scalar. -/
inductive Chomping where
  | strip
  | clip
  | keep
  deriving DecidableEq, Repr, Inhabited

/-- A block scalar under construction. -/
structure Block where
  literal : Bool
  chomping : Chomping
  /-- The indentation of the lines, once it is known. -/
  indent : Option Nat
  /-- The least indentation that the surrounding block allows. -/
  leastIndent : Nat
  /-- The widest line of blanks so far. -/
  widest : Nat
  /-- The text in reverse order, without the last break. -/
  text : List Char
  lastBreak : Option Char
  /-- The empty lines after the last break, in reverse order. -/
  emptyLines : List Char
  /-- Whether the last line started with a blank. -/
  indented : Bool
  /-- Whether the cell stands inside a line. -/
  inLine : Bool
  deriving Repr, Inhabited

namespace Block

/-- Whether a column still belongs to the indentation. -/
def isMargin (block : Block) (column : Nat) : Bool :=
  match block.indent with
  | none => true
  | some indent => column < indent

/-- The breaks before a line that starts with `c`: a folded line feed becomes a blank between
lines that do not start with one, or nothing before empty lines. -/
def joinLine (block : Block) (c : Char) : Block :=
  let folds := !block.literal && block.lastBreak == some '\n' && !block.indented && !isBlank c
  let text :=
    if folds then (if block.emptyLines.isEmpty then ' ' :: block.text else block.text)
    else
      match block.lastBreak with
      | some b => b :: block.text
      | none => block.text
  { block with
    text := c :: (block.emptyLines ++ text), lastBreak := none, emptyLines := []
    indented := isBlank c, inLine := true }

/-- The text of the scalar. -/
def result (block : Block) : List Char :=
  let text :=
    match block.chomping, block.lastBreak with
    | .strip, _ | _, none => block.text
    | _, some b => b :: block.text
  let text := if block.chomping = .keep then block.emptyLines ++ text else text
  text.reverse

end Block

/-- The lines of a block scalar: its text and the cells after it. -/
def readLines? (block : Block) : List Cell → Option (List Char × List Cell)
  | [] => some (block.result, [])
  | cell :: rest =>
    let c := cell.char
    if block.inLine then
      if isBreak c then readLines? { block with lastBreak := some c, inLine := false } rest
      else readLines? { block with text := c :: block.text } rest
    else if c = ' ' ∧ block.isMargin cell.column then readLines? block rest
    else
      let widest := max block.widest cell.column
      if c = '\t' ∧ block.isMargin cell.column then none
      else if isBreak c then
        readLines? { block with widest := widest, emptyLines := c :: block.emptyLines } rest
      else
        -- The first line with text fixes the indentation: at least that of the blank lines above.
        let indent := block.indent.getD (max widest block.leastIndent)
        if cell.column = indent then
          readLines? ({ block with widest := widest, indent := some indent }.joinLine c) rest
        else some (block.result, cell :: rest)

/-- The chomping indicator. -/
def chomping? (c : Char) : Option Chomping :=
  if c = '+' then some .keep else if c = '-' then some .strip else none

/-- The indicators after `|` or `>`: chomping and indentation in either order. -/
def blockHeader? (cells : List Cell) : Option (Chomping × Option Nat × List Cell) :=
  let indentation? (cells : List Cell) : Option (Option Nat × List Cell) :=
    match cells with
    | cell :: rest =>
      if cell.char = '0' then none
      else if '1' ≤ cell.char ∧ cell.char ≤ '9' then some (some (cell.char.toNat - 48), rest)
      else some (none, cells)
    | [] => some (none, [])
  match cells with
  | [] => some (.clip, none, [])
  | cell :: rest =>
    match chomping? cell.char with
    | some chomping => (indentation? rest).map fun (indent, rest) => (chomping, indent, rest)
    | none =>
      (indentation? cells).map fun (indent, rest) =>
        match indent, rest with
        | some _, next :: more =>
          match chomping? next.char with
          | some chomping => (chomping, indent, more)
          | none => (.clip, indent, rest)
        | _, _ => (.clip, indent, rest)

/-- The cells after `|` or `>`: the text of the scalar and what follows. The surrounding block is
indented by `parent`, which is `-1` at the top. -/
def readBlock? (literal : Bool) (parent : Int) (cells : List Cell) :
    Option (List Char × List Cell) := do
  let (chomping, increment, cells) ← blockHeader? cells
  let cells ← finishLine? cells
  readLines?
    { literal := literal, chomping := chomping
      indent := increment.map fun n => (max parent 0).toNat + n
      leastIndent := max (parent + 1).toNat 1, widest := 0, text := [], lastBreak := none
      emptyLines := [], indented := false, inLine := false }
    cells

end HeatPlacement.Yaml
