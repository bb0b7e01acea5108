import HeatPlacement.Json.Basic

/-!
# Numbers in JSON texts

* `Numeral`: the parts of a number as they stand in a text
* `Numeral.number?`: its value; none when it is too great for a double

An integer literal of the 64-bit ranges stays an integer, save for `-0`. Anything else becomes a
double in two steps: the digits are gathered while they fit 64 bits, and the gathered number is
scaled by a power of ten. Each step rounds, so the last place may differ from the nearest double.
-/

namespace HeatPlacement

/-- The value of a decimal digit. -/
def digitValue (c : Char) : Nat := c.toNat - 48

/-- The value of a sequence of decimal digits. -/
def digitsValue (digits : List Char) : Nat :=
  digits.foldl (fun value c => 10 * value + digitValue c) 0

namespace Double

/-- Scale a double by `10 ^ exponent`: by one rounded power of ten, after as many divisions by
`10 ^ 308` as a small exponent needs. -/
def scale? (x : Double) (exponent : Int) : Option Double :=
  if 308 < exponent.natAbs then
    if x.isZero then some x
    else if 0 ≤ exponent then none
    else scale? (x.div (powerOfTen 308)) (exponent + 308)
  else if 0 ≤ exponent then x.mul? (powerOfTen exponent.natAbs)
  else some (x.div (powerOfTen exponent.natAbs))
termination_by exponent.natAbs
decreasing_by omega

end Double

/-- The parts of a number in a text: digits before the point, digits after it, and the sign and
the digits of an exponent. -/
structure Numeral where
  negative : Bool
  whole : List Char
  fraction : List Char
  exponent : Option (Bool × List Char)
  deriving DecidableEq, Repr, Inhabited

namespace Numeral

/-- Add digits to a number while the result fits 64 bits; also how many were added. -/
def gather : Nat → List Char → Nat × Nat
  | value, [] => (value, 0)
  | value, c :: digits =>
    let next := 10 * value + digitValue c
    if next < Nat.pow 2 64 then
      let (result, added) := gather next digits
      (result, added + 1)
    else (value, 0)

/-- The exponent's value. -/
def exponentValue (numeral : Numeral) : Int :=
  match numeral.exponent with
  | none => 0
  | some (true, digits) => -(digitsValue digits : Int)
  | some (false, digits) => digitsValue digits

/-- The double: whole digits that do not fit count as places, those after the point are dropped. -/
def double? (numeral : Numeral) : Option Double :=
  let (wholeValue, wholeAdded) := gather 0 numeral.whole
  let (value, added) := gather wholeValue numeral.fraction
  let places : Int := (numeral.whole.length - wholeAdded : Nat) - (added : Int)
  (Double.nearest? false value 1).bind fun x =>
    (x.scale? (places + numeral.exponentValue)).map fun y => { y with negative := numeral.negative }

/-- The value of the number. -/
def number? (numeral : Numeral) : Option Number :=
  let value := digitsValue numeral.whole
  if numeral.fraction.isEmpty && numeral.exponent.isNone then
    if numeral.negative then
      if 0 < value ∧ value ≤ Nat.pow 2 63 then some (.int (-(value : Int)))
      else numeral.double?.map .double
    else if value < Nat.pow 2 64 then some (.int value)
    else numeral.double?.map .double
  else numeral.double?.map .double

end Numeral

end HeatPlacement
