import HeatPlacement.Text.Hex

/-!
# Quoted texts

Texts between quotes in four styles: with or without escapes, on one line or on several.

* `Quoted.encode`: a text in the plainest style that can hold it
* `Quoted.decode`: the text at the start of an input, in any style, and what follows it
-/

namespace HeatPlacement.Toml.Quoted

/-! ### Classes of characters -/

/-- A blank or a tab. -/
def isLayout (c : Char) : Bool := c == ' ' || c == '\t'

/-- Whether a character has to be escaped wherever escapes are known: the controls but tab and
line feed. -/
def isControl (c : Char) : Bool := (c.toNat < 32 && c != '\t' && c != '\n') || c == '\x7f'

/-- Whether a character may stand in a text by itself; quotes and line feeds are looked at
before. -/
def isPlain (c : Char) : Bool := !isControl c && c != '\n'

/-! ### Writing -/

/-- The style of a quoted text. -/
inductive Style where
  /-- On one line between double quotes, with escapes. -/
  | basic
  /-- On one line between single quotes, without escapes. -/
  | literal
  /-- Between three double quotes. -/
  | basicLines
  /-- Between three single quotes. -/
  | literalLines
  deriving DecidableEq, Repr, Inhabited

/-- The length of the longest run of a character, of which `run` have just been seen. -/
def longestRun (q : Char) : (run : Nat) → List Char → Nat
  | run, [] => run
  | run, c :: rest => if c = q then longestRun q (run + 1) rest else max run (longestRun q 0 rest)

/-- The plainest style that can hold a text. -/
def Style.of (text : List Char) : Style :=
  let controls := text.any isControl
  let lines := text.contains '\n'
  let doubles := longestRun '"' 0 text
  let singles := longestRun '\'' 0 text
  if !controls && !text.contains '\\' && doubles = 0 && !lines then .basic
  else if !controls && singles = 0 && !lines then .literal
  else if !controls && !text.contains '\\' && doubles ≤ 2 then .basicLines
  else if !controls && singles ≤ 2 then .literalLines
  else if lines then .basicLines
  else .basic

/-- One character but a quote, where escapes are known. -/
def escapeChar (lines : Bool) (c : Char) : List Char :=
  if c = '\\' then ['\\', '\\']
  else if c = '\t' then ['\\', 't']
  else if c = '\n' then (if lines then ['\n'] else ['\\', 'n'])
  else if c = '\x08' then ['\\', 'b']
  else if c = '\x0c' then ['\\', 'f']
  else if c = '\r' then ['\\', 'r']
  else if isControl c then
    ['\\', 'u', '0', '0', Text.upperHex (c.toNat / 16), Text.upperHex (c.toNat % 16)]
  else [c]

/-- A text where escapes are known. On several lines up to two double quotes in a row stand by
themselves, of which `run` have just been written; on one line none does. -/
def escape (lines : Bool) : (run : Nat) → List Char → List Char
  | _, [] => []
  | run, c :: rest =>
    if c = '"' then
      if lines && run < 2 then '"' :: escape lines (run + 1) rest
      else '\\' :: '"' :: escape lines 0 rest
    else escapeChar lines c ++ escape lines 0 rest

/-- A text in a style. A text of several lines begins on a line of its own. -/
def Style.write (style : Style) (text : List Char) : List Char :=
  let start := if text.contains '\n' then ['\n'] else []
  match style with
  | .basic => '"' :: (escape false 0 text ++ ['"'])
  | .literal => '\'' :: (text ++ ['\''])
  | .basicLines => '"' :: '"' :: '"' :: (start ++ escape true 0 text ++ ['"', '"', '"'])
  | .literalLines => '\'' :: '\'' :: '\'' :: (start ++ text ++ ['\'', '\'', '\''])

/-- A text in the plainest style that can hold it. -/
def encode (text : List Char) : List Char := (Style.of text).write text

/-! ### Reading -/

/-- Where a reader of a text with escapes stands. -/
inductive Scan where
  /-- In the text; behind an escaped line end layout is skipped. -/
  | plain (skipping : Bool)
  /-- Behind a backslash. -/
  | escape
  /-- Behind a backslash and blanks: a line end has to follow. -/
  | gap
  /-- In a code point of which `left` digits and one more are still to come. -/
  | code (left value : Nat)
  deriving DecidableEq, Repr, Inhabited

/-- The character that an escape of one letter stands for. -/
def escaped? (c : Char) : Option Char :=
  match c with
  | 'b' => some '\x08'
  | 'f' => some '\x0c'
  | 'n' => some '\n'
  | 'r' => some '\r'
  | 't' => some '\t'
  | '"' => some '"'
  | '\\' => some '\\'
  | _ => none

/-- Put a character in front of a text that has been read. -/
def push (c : Char) (found : Option (List Char × List Char)) : Option (List Char × List Char) :=
  found.map fun (text, rest) => (c :: text, rest)

/-- The end of a text of several lines, behind the third quote: up to two more belong to the
text. -/
def closing (q : Char) : List Char → List Char × List Char
  | c :: d :: rest => if c = q then if d = q then ([q, q], rest) else ([q], d :: rest)
    else ([], c :: d :: rest)
  | [c] => if c = q then ([q], []) else ([], [c])
  | [] => ([], [])

/-- Whether an input begins with two of a quote. -/
def doubled (q : Char) : List Char → Bool
  | c :: d :: _ => c == q && d == q
  | _ => false

/-- Whether an input begins with a line feed. -/
def startsLine : List Char → Bool
  | c :: _ => c == '\n'
  | [] => false

/-- Read a text with escapes up to its closing quotes. -/
def body? (lines : Bool) : Scan → List Char → Option (List Char × List Char)
  | _, [] => none
  | .plain skipping, c :: rest =>
    if skipping && (isLayout c || c = '\n') then body? lines (.plain true) rest
    else if c = '"' then
      if !lines then some ([], rest)
      else if doubled '"' rest then some (closing '"' (rest.drop 2))
      else push '"' (body? lines (.plain false) rest)
    else if c = '\\' then body? lines .escape rest
    else if c = '\r' then
      if lines && startsLine rest then body? lines (.plain skipping) rest else none
    else if c = '\n' then if lines then push c (body? lines (.plain false) rest) else none
    else if isPlain c then push c (body? lines (.plain false) rest)
    else none
  | .escape, c :: rest =>
    match escaped? c with
    | some d => push d (body? lines (.plain false) rest)
    | none =>
      if c = 'u' then body? lines (.code 3 0) rest
      else if c = 'U' then body? lines (.code 7 0) rest
      else if !lines then none
      else if c = '\n' then body? lines (.plain true) rest
      else if isLayout c || c = '\r' && startsLine rest then body? lines .gap rest
      else none
  | .gap, c :: rest =>
    if c = '\n' then body? lines (.plain true) rest
    else if isLayout c || c = '\r' && startsLine rest then body? lines .gap rest
    else none
  | .code left value, c :: rest =>
    match Text.hexValue? c with
    | none => none
    | some digit =>
      let value := 16 * value + digit
      match left with
      | left + 1 => body? lines (.code left value) rest
      | 0 =>
        match Text.character? value with
        | some d => push d (body? lines (.plain false) rest)
        | none => none

/-- Read a text without escapes on one line up to its closing quote. -/
def literal? : List Char → Option (List Char × List Char)
  | [] => none
  | c :: rest =>
    if c = '\'' then some ([], rest)
    else if isPlain c then push c (literal? rest)
    else none

/-- Read a text without escapes on several lines up to its closing quotes. -/
def literalLines? : List Char → Option (List Char × List Char)
  | [] => none
  | c :: rest =>
    if c = '\'' then
      if doubled '\'' rest then some (closing '\'' (rest.drop 2)) else push c (literalLines? rest)
    else if c = '\r' then if startsLine rest then literalLines? rest else none
    else if c = '\n' || isPlain c then push c (literalLines? rest)
    else none

/-- Drop the line end right behind the opening quotes. -/
def skipLineEnd : List Char → List Char
  | c :: rest => if c = '\n' then rest
    else if c = '\r' && startsLine rest then rest.drop 1
    else c :: rest
  | [] => []

/-- Read a quoted text. -/
def decode : List Char → Option (List Char × List Char)
  | [] => none
  | c :: rest =>
    if c = '"' then
      if doubled '"' rest then body? true (.plain false) (skipLineEnd (rest.drop 2))
      else body? false (.plain false) rest
    else if c = '\'' then
      if doubled '\'' rest then literalLines? (skipLineEnd (rest.drop 2)) else literal? rest
    else none

example : encode "tab\there".toList = "\"tab\\there\"".toList := by decide +kernel
example : encode "a\"b".toList = "'a\"b'".toList := by decide +kernel
example : encode "a\"b'c".toList = "\"\"\"a\"b'c\"\"\"".toList := by decide +kernel
example : encode "\\'''\x01".toList = "\"\\\\'''\\u0001\"".toList := by decide +kernel
example : decode "\"\"\"\na\\  \n b\"\"\"\" #".toList = some ("ab\"".toList, " #".toList) := by
  decide +kernel

end HeatPlacement.Toml.Quoted
