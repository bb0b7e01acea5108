/-!
# Characters with their places

* `Yaml.Cell`: a character with its line, column and index
* `Yaml.cells?`: the cells of a text; none when it holds a character that no document may hold

Carriage returns, alone or before a line feed, and next-line characters become line feeds. The
two Unicode separators of lines and paragraphs break lines as well, and stay what they are.
-/

namespace HeatPlacement.Yaml

/-- A character with its place in the text. -/
structure Cell where
  char : Char
  line : Nat
  column : Nat
  index : Nat
  deriving DecidableEq, Repr, Inhabited

/-- The characters that a document may hold. -/
def isAllowed (c : Char) : Bool :=
  let n := c.toNat
  n == 9 || n == 10 || n == 13 || (32 ≤ n && n ≤ 126) || n == 0x85 ||
    (0xA0 ≤ n && n ≤ 0xD7FF) || (0xE000 ≤ n && n ≤ 0xFFFD) || 0x10000 ≤ n

/-- The characters that break a line. -/
def isBreak (c : Char) : Bool := c == '\n' || c == '\u2028' || c == '\u2029'

/-- Blanks within a line. -/
def isBlank (c : Char) : Bool := c == ' ' || c == '\t'

/-- The characters of anchors, directives and tag handles. -/
def isWord (c : Char) : Bool :=
  ('0' ≤ c && c ≤ '9') || ('A' ≤ c && c ≤ 'Z') || ('a' ≤ c && c ≤ 'z') || c == '_' || c == '-'

/-- The mark that may open a text or a line, and is no part of it. -/
def isByteOrderMark (c : Char) : Bool := c == '\ufeff'

/-- One line feed for each way to end a line. -/
def unifyBreaks : List Char → List Char
  | '\r' :: '\n' :: rest => '\n' :: unifyBreaks rest
  | '\r' :: rest => '\n' :: unifyBreaks rest
  | '\u0085' :: rest => '\n' :: unifyBreaks rest
  | c :: rest => c :: unifyBreaks rest
  | [] => []

/-- Number the characters of a text. -/
def number (line column index : Nat) : List Char → List Cell
  | [] => []
  | c :: rest =>
    ⟨c, line, column, index⟩ ::
      if isBreak c then number (line + 1) 0 (index + 1) rest
      else number line (column + 1) (index + 1) rest

/-- The cells of a text, without a mark at its start. -/
def cells? (text : String) : Option (List Cell) :=
  let chars :=
    match text.toList with
    | c :: rest => if isByteOrderMark c then rest else c :: rest
    | [] => []
  if chars.all isAllowed then some (number 0 0 0 (unifyBreaks chars)) else none

/-- Whether the text ends here, or a blank or a line break stands here. -/
def endsWord : List Cell → Bool
  | [] => true
  | cell :: _ => isBlank cell.char || isBreak cell.char

/-- Whether the text ends here or a line break stands here. -/
def endsLine : List Cell → Bool
  | [] => true
  | cell :: _ => isBreak cell.char

/-- Whether a document indicator of three equal characters starts a line here. -/
def isIndicator (mark : Char) : List Cell → Bool
  | a :: b :: c :: rest =>
    a.column == 0 && a.char == mark && b.char == mark && c.char == mark && endsWord rest
  | _ => false

/-- Whether a document starts or ends here. -/
def isDocumentMark (cells : List Cell) : Bool := isIndicator '-' cells || isIndicator '.' cells

/-- What is left of the line. -/
def skipComment : List Cell → List Cell
  | [] => []
  | cell :: rest => if isBreak cell.char then cell :: rest else skipComment rest

/-- Skip blanks. -/
def skipBlanks : List Cell → List Cell
  | [] => []
  | cell :: rest => if isBlank cell.char then skipBlanks rest else cell :: rest

/-- The end of a line that may only hold blanks and a comment; the break itself is skipped too. -/
def finishLine? (cells : List Cell) : Option (List Cell) :=
  let cells := skipBlanks cells
  let cells :=
    match cells with
    | cell :: _ => if cell.char = '#' then skipComment cells else cells
    | [] => []
  match cells with
  | [] => some []
  | cell :: rest => if isBreak cell.char then some rest else none

end HeatPlacement.Yaml
