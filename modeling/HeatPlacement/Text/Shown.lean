import HeatPlacement.Json.Printer
import HeatPlacement.Text.Printable

/-!
# Texts shown in messages

* `Text.shown`: a text between quotes, with escapes for all that cannot be seen
-/

namespace HeatPlacement.Text

/-- One character between quotes. -/
def showChar (c : Char) : List Char :=
  match c with
  | '"' => ['\\', '"']
  | '\\' => ['\\', '\\']
  | '\n' => ['\\', 'n']
  | '\r' => ['\\', 'r']
  | '\t' => ['\\', 't']
  | '\x00' => ['\\', '0']
  | c => if isPrintable c then [c] else "\\u\x7b".toList ++ Nat.toDigits 16 c.toNat ++ ['\x7d']

/-- A text between quotes. -/
def shown (text : String) : String :=
  String.ofList ('"' :: (text.toList.flatMap showChar ++ ['"']))

example : shown "a\"é\x01" = "\"a\\\"é\\u\x7b1\x7d\"" := by decide +kernel

end HeatPlacement.Text
