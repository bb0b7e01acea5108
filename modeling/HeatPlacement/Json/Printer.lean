import HeatPlacement.Decimal.Shortest
import HeatPlacement.Json.Basic
import HeatPlacement.Text.Hex

/-!
# The compact text of a JSON value

* `Json.render`: the text of a value in front of a rest, as characters
* `Json.text`: the text as a string

Nothing stands between the tokens. A string escapes the quote, the backslash and the characters
below U+0020, five of them by a letter; all else is written as it is.
-/

namespace HeatPlacement

namespace Json

/-- One character inside a string. -/
def escapeChar (c : Char) : List Char :=
  match c with
  | '"' => ['\\', '"']
  | '\\' => ['\\', '\\']
  | '\n' => ['\\', 'n']
  | '\r' => ['\\', 'r']
  | '\t' => ['\\', 't']
  | '\x08' => ['\\', 'b']
  | '\x0c' => ['\\', 'f']
  | c =>
    if c.toNat < 32 then
      ['\\', 'u', '0', '0', Text.lowerHex (c.toNat / 16), Text.lowerHex (c.toNat % 16)]
    else [c]

/-- The characters of a string up to its closing quote, in front of `rest`. -/
def renderChars (chars rest : List Char) : List Char :=
  match chars with
  | [] => '"' :: rest
  | c :: more => escapeChar c ++ renderChars more rest

/-- A quoted string in front of `rest`. -/
def renderString (s : String) (rest : List Char) : List Char := '"' :: renderChars s.toList rest

/-- Doubles are written positionally when the leading digit stands between the fifth decimal place
and the sixteenth whole digit, and with a signed exponent otherwise. -/
def doubleLayout : Decimal.Layout := ⟨-5, 15, "+"⟩

/-- The text of a number. -/
def renderNumber : Number → List Char
  | .int (.ofNat n) => Decimal.natText n
  | .int (.negSucc n) => '-' :: Decimal.natText (n + 1)
  | .double x =>
    let text := doubleLayout.write x.shortest
    if x.negative then '-' :: text else text

mutual

/-- The text of a value in front of `rest`. -/
def render : Json → List Char → List Char
  | .null, rest => 'n' :: 'u' :: 'l' :: 'l' :: rest
  | .bool true, rest => 't' :: 'r' :: 'u' :: 'e' :: rest
  | .bool false, rest => 'f' :: 'a' :: 'l' :: 's' :: 'e' :: rest
  | .num n, rest => renderNumber n ++ rest
  | .str s, rest => renderString s rest
  | .arr [], rest => '[' :: ']' :: rest
  | .arr (item :: more), rest => '[' :: render item (renderItems more rest)
  | .obj [], rest => '\x7b' :: '\x7d' :: rest
  | .obj (field :: more), rest => '\x7b' :: renderField field (renderFields more rest)
termination_by structural value => value

/-- The items after the first one and the closing bracket. -/
def renderItems : List Json → List Char → List Char
  | [], rest => ']' :: rest
  | item :: more, rest => ',' :: render item (renderItems more rest)
termination_by structural items => items

/-- The members after the first one and the closing brace. -/
def renderFields : List (String × Json) → List Char → List Char
  | [], rest => '\x7d' :: rest
  | field :: more, rest => ',' :: renderField field (renderFields more rest)
termination_by structural fields => fields

/-- A member: its name, a colon and its value. -/
def renderField : String × Json → List Char → List Char
  | (name, value), rest => renderString name (':' :: render value rest)
termination_by structural field => field

end

/-- The compact text of a value. -/
def text (value : Json) : String := String.ofList (render value [])

end Json

end HeatPlacement
