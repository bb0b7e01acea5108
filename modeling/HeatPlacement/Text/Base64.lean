import HeatPlacement.Text.Octets

/-!
# Base64

* `Text.Base64.encode`: three octets as four characters, the last group filled up with `=`
-/

namespace HeatPlacement.Text.Base64

/-- The character for six bits. -/
def digit (n : Nat) : Char :=
  if n < 26 then Char.ofNat (65 + n)
  else if n < 52 then Char.ofNat (71 + n)
  else if n < 62 then Char.ofNat (n - 4)
  else if n = 62 then '+'
  else '/'

/-- The encoded form of octets. -/
def encode : List UInt8 → List Char
  | [] => []
  | [a] =>
    let n := a.toNat * 16
    [digit (n / 64), digit (n % 64), '=', '=']
  | [a, b] =>
    let n := (a.toNat * 256 + b.toNat) * 4
    [digit (n / 4096), digit (n / 64 % 64), digit (n % 64), '=']
  | a :: b :: c :: rest =>
    let n := (a.toNat * 256 + b.toNat) * 256 + c.toNat
    digit (n / 262144) :: digit (n / 4096 % 64) :: digit (n / 64 % 64) :: digit (n % 64) ::
      encode rest

example : encode (octets "u:~~~???>>>") = "dTp+fn4/Pz8+Pj4=".toList := by decide +kernel
example : encode (octets ":") = "Og==".toList := by decide +kernel

end HeatPlacement.Text.Base64
