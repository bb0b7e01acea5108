import HeatPlacement.Json.Numeral

/-!
# Unsigned integers in texts

* `Text.unsigned?`: decimal digits after an optional plus sign, with a value below `2 ^ 64`
-/

namespace HeatPlacement.Text

/-- Whether a character is a decimal digit of ASCII. -/
def isDigit (c : Char) : Bool := '0' ≤ c && c ≤ '9'

/-- The value of a text that holds decimal digits only, at least one. -/
def digits? (text : List Char) : Option Nat :=
  if text.isEmpty || !text.all isDigit then none else some (digitsValue text)

/-- The value of an unsigned 64-bit integer: digits after an optional plus sign. -/
def unsigned? (text : List Char) : Option Nat :=
  let digits :=
    match text with
    | '+' :: rest => rest
    | _ => text
  (digits? digits).filter (· < Nat.pow 2 64)

example : unsigned? "+007".toList = some 7 := by decide
example : unsigned? "18446744073709551616".toList = none := by decide
example : unsigned? "+".toList = none := by decide

end HeatPlacement.Text
