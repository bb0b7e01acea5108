import HeatPlacement.Decimal.Double

/-!
# The shortest decimal that reads back

* `Double.shortest`: the fewest significant digits that round back to a double, and of those with
  that many digits the nearest to it
* `Decimal.Layout`: where such digits are written positionally and how an exponent looks
* `Decimal.Layout.write`: the text
-/

namespace HeatPlacement

/-- Decimal digits without leading zero, and a power of ten: `digits · 10 ^ exponent`. -/
structure Decimal where
  digits : Nat
  exponent : Int
  deriving DecidableEq, Repr, Inhabited

namespace Double

/-- Whether `num / den` lies in the interval of reals that round to `x`. The ends are the
midpoints to the two neighbours and belong to it when the significand is even. -/
def rounds (x : Double) (num den : Nat) : Bool :=
  -- In units of a quarter of the last binary place.
  let (n, d) := scaled num den (x.exponent - 2)
  let below := if x.significand = Nat.pow 2 52 ∧ leastExponent < x.exponent then 1 else 2
  let low := (4 * x.significand - below) * d
  let high := (4 * x.significand + 2) * d
  if x.significand % 2 = 0 then low ≤ n && n ≤ high else low < n && n < high

/-- The numerator and denominator of `digits · 10 ^ exponent`. -/
def decimalRatio (digits : Nat) (exponent : Int) : Nat × Nat :=
  if exponent < 0 then (digits, Nat.pow 10 exponent.natAbs)
  else (digits * Nat.pow 10 exponent.natAbs, 1)

/-- The decimal exponent of the leading digit of a positive fraction. -/
def leadingExponent (num den : Nat) : Int :=
  let guess : Int := (Nat.toDigits 10 num).length - (Nat.toDigits 10 den).length
  let (n, d) := decimalRatio 1 guess
  if num * d < den * n then guess - 1 else guess

/-- On the grid of multiples of `10 ^ exponent`: the point that rounds to `x`. Of the two
neighbours of `x` the nearer one is preferred, and of two equally near ones the even. -/
def onGrid? (x : Double) (exponent : Int) : Option Decimal :=
  let (a, b) := x.ratio
  let (n, d) := decimalRatio 1 exponent
  let num := a * d
  let den := b * n
  let lower := num / den
  let near := roundDiv num den
  let far := if near = lower then lower + 1 else lower
  let hits (m : Nat) : Bool :=
    let (p, q) := decimalRatio m exponent
    x.rounds p q
  if hits near then some ⟨near, exponent⟩
  else if hits far then some ⟨far, exponent⟩
  else none

/-- The first grid with a hit, from the coarsest on. -/
def firstGrid (x : Double) : Nat → Int → Decimal
  | 0, exponent => (x.onGrid? exponent).getD ⟨0, exponent⟩
  | steps + 1, exponent => (x.onGrid? exponent).getD (firstGrid x steps (exponent - 1))

/-- The fewest digits that round to `x`; a double never needs more than 17. The search starts one
grid above the leading digit, because a value just below a power of ten may round to it. -/
def shortest (x : Double) : Decimal :=
  if x.isZero then ⟨0, 0⟩
  else
    let (a, b) := x.ratio
    x.firstGrid 18 (leadingExponent a b + 1)

end Double

/-- How a number is laid out: the decimal exponents of the leading digit that are written
positionally, and the sign of a positive exponent otherwise. -/
structure Decimal.Layout where
  /-- The least leading exponent written positionally. -/
  least : Int
  /-- The greatest leading exponent written positionally. -/
  greatest : Int
  /-- What stands before a positive exponent. -/
  plus : String
  deriving Repr

namespace Decimal

/-- The decimal text of a natural number. -/
def natText (n : Nat) : List Char := Nat.toDigits 10 n

/-- Digits around a point that stands after `whole` of them, filled up with zeros on either side
and with at least one digit on both. -/
def placePoint (digits : List Char) (whole : Int) : List Char :=
  if whole ≤ 0 then '0' :: '.' :: (List.replicate whole.natAbs '0' ++ digits)
  else
    let front := digits.take whole.natAbs
    let back := digits.drop whole.natAbs
    front ++ List.replicate (whole.natAbs - front.length) '0' ++
      '.' :: (if back.isEmpty then ['0'] else back)

/-- The text of a number that is not negative. -/
def Layout.write (layout : Layout) (d : Decimal) : List Char :=
  let digits := natText d.digits
  let leading : Int := d.exponent + digits.length - 1
  if d.digits = 0 then ['0', '.', '0']
  else if layout.least ≤ leading ∧ leading ≤ layout.greatest then placePoint digits (leading + 1)
  else
    let mantissa :=
      match digits with
      | [] | [_] => digits
      | first :: more => first :: '.' :: more
    let sign := if leading < 0 then ['-'] else layout.plus.toList
    mantissa ++ 'e' :: (sign ++ natText leading.natAbs)

end Decimal

end HeatPlacement
