import HeatPlacement.Text.Octets

/-!
# Percent encoding

* `Text.Percent.encode`: every octet outside the unreserved characters as `%` and two digits
* `Text.Percent.decode`: the octets of a text with such escapes; what is no escape stays
-/

namespace HeatPlacement.Text.Percent

/-- Whether an octet stands for itself: letters, digits and `-`, `_`, `.`, `~`. -/
def isUnreserved (octet : UInt8) : Bool :=
  let n := octet.toNat
  (48 ≤ n && n ≤ 57) || (65 ≤ n && n ≤ 90) || (97 ≤ n && n ≤ 122) || n == 45 || n == 46 ||
    n == 95 || n == 126

/-- What is written for an octet. -/
def ofOctet (octet : UInt8) : List Char :=
  if isUnreserved octet then [Char.ofNat octet.toNat]
  else ['%', upperHex (octet.toNat / 16), upperHex (octet.toNat % 16)]

/-- The encoded form of a text. -/
def encode (text : String) : String := String.ofList ((octets text).flatMap ofOctet)

/-- Read the escapes in a list of octets. A percent sign without two digits stands for itself. -/
def decode : List UInt8 → List UInt8
  | [] => []
  | [a] => [a]
  | [a, b] => [a, b]
  | 37 :: high :: low :: rest =>
    match digitOf? high, digitOf? low with
    | some h, some l => UInt8.ofNat (16 * h + l) :: decode rest
    | _, _ => 37 :: decode (high :: low :: rest)
  | octet :: high :: low :: rest => octet :: decode (high :: low :: rest)

example : encode "a b&é~" = "a%20b%26%C3%A9~" := by decide +kernel

end HeatPlacement.Text.Percent
