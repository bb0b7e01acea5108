/-!
# Hexadecimal digits and code points

* `Text.lowerHex`, `Text.upperHex`: the digits of the numbers below 16
* `Text.hexValue?`: the value of a digit of either case
* `Text.character?`: the character with a code point
-/

namespace HeatPlacement.Text

/-- The lower-case hexadecimal digit of a number below 16. -/
def lowerHex (n : Nat) : Char := if n < 10 then Char.ofNat (48 + n) else Char.ofNat (87 + n)

/-- The upper-case hexadecimal digit of a number below 16. -/
def upperHex (n : Nat) : Char := if n < 10 then Char.ofNat (48 + n) else Char.ofNat (55 + n)

/-- The value of a hexadecimal digit. -/
def hexValue? (c : Char) : Option Nat :=
  if '0' ≤ c ∧ c ≤ '9' then some (c.toNat - 48)
  else if 'a' ≤ c ∧ c ≤ 'f' then some (c.toNat - 87)
  else if 'A' ≤ c ∧ c ≤ 'F' then some (c.toNat - 55)
  else none

/-- A lower-case digit has the value that it was written for. -/
theorem hexValue?_lowerHex {n : Nat} (h : n < 16) : hexValue? (lowerHex n) = some n := by
  have all : ∀ n < 16, hexValue? (lowerHex n) = some n := by decide
  exact all n h

/-- An upper-case digit has the value that it was written for. -/
theorem hexValue?_upperHex {n : Nat} (h : n < 16) : hexValue? (upperHex n) = some n := by
  have all : ∀ n < 16, hexValue? (upperHex n) = some n := by decide
  exact all n h

/-- The character with a code point; surrogates and greater numbers have none. -/
def character? (code : Nat) : Option Char :=
  if code < 0xD800 ∨ (0xDFFF < code ∧ code < 0x110000) then some (Char.ofNat code) else none

/-- Every character is the one with its code point. -/
theorem character?_toNat (c : Char) : character? c.toNat = some c := by
  have h : c.toNat < 0xD800 ∨ (0xDFFF < c.toNat ∧ c.toNat < 0x110000) := c.valid
  simp [character?, h]

end HeatPlacement.Text
