import HeatPlacement.Yaml.Cell
import HeatPlacement.Yaml.Scalar
import HeatPlacement.Yaml.Token

/-!
# Anchors, tags and directives

The tokens that are words: each function takes the cells after the indicator and gives the token
and the cells after it.

* `readAnchor?`: a name after `&` or `*`
* `readTag?`: a tag after its exclamation mark
* `readDirective?`: a directive after its percent sign, up to the end of the line
-/

namespace HeatPlacement.Yaml

/-- The word at the front and the cells after it. -/
def readWord : List Cell → List Char × List Cell
  | [] => ([], [])
  | cell :: rest =>
    if isWord cell.char then
      let (word, after) := readWord rest
      (cell.char :: word, after)
    else ([], cell :: rest)

/-- Skip a character, if it stands here. -/
def skipChar? (c : Char) : List Cell → Option (List Cell)
  | cell :: rest => if cell.char = c then some rest else none
  | [] => none

/-- The name of an anchor or alias: it must not be empty, and only a blank, a break or one of a
few indicators may follow. -/
def readAnchor? (cells : List Cell) : Option (List Char × List Cell) :=
  let (name, rest) := readWord cells
  let follows :=
    match rest with
    | cell :: _ => endsWord rest || "?:,]\x7d%@`".toList.contains cell.char
    | [] => true
  if name.isEmpty || !follows then none else some (name, rest)

/-- The number of bytes of the UTF-8 sequence that a byte leads. -/
def sequenceLength? (byte : Nat) : Option Nat :=
  if byte < 0x80 then some 1
  else if 0xC0 ≤ byte ∧ byte < 0xE0 then some 2
  else if 0xE0 ≤ byte ∧ byte < 0xF0 then some 3
  else if 0xF0 ≤ byte ∧ byte < 0xF8 then some 4
  else none

/-- The characters of a tag besides those of a word. A verbatim tag or the expansion of a handle
may also hold a comma and square brackets. -/
def isTagMark (verbatim : Bool) (c : Char) : Bool :=
  ";/?:@&=+$.!~*'()".toList.contains c || (verbatim && ",[]".toList.contains c)

/-- The bytes of a tag's text. While `left` is positive, so many escaped bytes of a sequence are
still to come. -/
def readTagBytes? (verbatim : Bool) (left : Nat) : List Cell → Option (TagName × List Cell)
  | [] => if left = 0 then some ([], []) else none
  | cell :: rest =>
    if cell.char = '%' then
      match rest with
      | high :: low :: more =>
        match Text.hexValue? high.char, Text.hexValue? low.char with
        | some h, some l =>
          let byte := 16 * h + l
          let next? :=
            if left = 0 then (sequenceLength? byte).map (· - 1)
            else if 0x80 ≤ byte ∧ byte < 0xC0 then some (left - 1)
            else none
          match next? with
          | none => none
          | some next =>
            (readTagBytes? verbatim next more).map fun (bytes, after) =>
              (byte.toUInt8 :: bytes, after)
        | _, _ => none
      | _ => none
    else if left = 0 then
      if isWord cell.char || isTagMark verbatim cell.char then
        (readTagBytes? verbatim 0 rest).map fun (bytes, after) =>
          (cell.char.toNat.toUInt8 :: bytes, after)
      else some ([], cell :: rest)
    else none

/-- The bytes up to the first zero byte, which ends every tag. -/
def beforeZero (bytes : TagName) : TagName := bytes.takeWhile fun byte => byte ≠ 0

/-- The text of a tag, which holds at least one character. -/
def readTagText? (verbatim : Bool) (cells : List Cell) : Option (TagName × List Cell) :=
  match cells with
  | cell :: _ =>
    if cell.char = '%' || isWord cell.char || isTagMark verbatim cell.char then
      (readTagBytes? verbatim 0 cells).map fun (bytes, after) => (beforeZero bytes, after)
    else none
  | [] => none

/-- A tag after its exclamation mark: verbatim in angle brackets, with a handle between two
exclamation marks, or local. A lone exclamation mark has no handle and is its own suffix. -/
def readTag? (flow : Bool) (cells : List Cell) : Option (Token × List Cell) := do
  let verbatim := (skipChar? '<' cells).isSome
  let (token, rest) ←
    if verbatim then do
      let cells ← skipChar? '<' cells
      let (suffix, rest) ← readTagText? true cells
      let rest ← skipChar? '>' rest
      pure (Token.tag [] suffix, rest)
    else
      let (word, after) := readWord cells
      match skipChar? '!' after with
      | some rest => do
        let (suffix, rest) ← readTagText? false rest
        pure (Token.tag ('!' :: word ++ ['!']) suffix, rest)
      | none => do
        let (more, rest) ← readTagBytes? false 0 after
        let suffix := beforeZero (asciiBytes word ++ more)
        pure (if suffix.isEmpty then Token.tag [] (asciiBytes ['!']) else Token.tag ['!'] suffix,
          rest)
  if endsWord rest || (flow && (skipChar? ',' rest).isSome) then some (token, rest) else none

/-- A number of a version: one to nine digits. -/
def readVersionNumber? (cells : List Cell) : Option (Nat × List Cell) :=
  let isDigit (cell : Cell) : Bool := '0' ≤ cell.char && cell.char ≤ '9'
  let digits := cells.takeWhile isDigit
  if digits.isEmpty || 9 < digits.length then none
  else
    some (digits.foldl (fun value cell => 10 * value + (cell.char.toNat - 48)) 0,
      cells.dropWhile isDigit)

/-- The handle of a tag directive: an exclamation mark, alone or with a word and another one. -/
def readHandle? (cells : List Cell) : Option (List Char × List Cell) := do
  let cells ← skipChar? '!' cells
  let (word, rest) := readWord cells
  match skipChar? '!' rest with
  | some rest => some ('!' :: word ++ ['!'], rest)
  | none => if word.isEmpty then some (['!'], rest) else none

/-- A directive after its percent sign. There are two, and any other name is an error. -/
def readDirective? (cells : List Cell) : Option (Token × List Cell) := do
  let (name, rest) := readWord cells
  if !endsWord rest then none
  let rest := skipBlanks rest
  let (token, rest) ←
    if name = "YAML".toList then do
      let (major, rest) ← readVersionNumber? rest
      let rest ← skipChar? '.' rest
      let (minor, rest) ← readVersionNumber? rest
      pure (Token.versionDirective major minor, rest)
    else if name = "TAG".toList then do
      let (handle, rest) ← readHandle? rest
      if endsLine rest || !endsWord rest then none
      let (expansion, rest) ← readTagText? true (skipBlanks rest)
      if !endsWord rest then none
      pure (Token.tagDirective handle expansion, rest)
    else none
  let rest ← finishLine? rest
  pure (token, rest)

end HeatPlacement.Yaml
