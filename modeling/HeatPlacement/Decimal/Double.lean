/-!
# Finite doubles

A double is kept as sign, significand and binary exponent, so that every question about it is a
question about natural numbers.

* `Double.nearest?`: the double nearest to a fraction, ties to the even significand
* `Double.mul?`, `Double.div`: products and quotients, each rounded once
-/

namespace HeatPlacement

/-- A finite IEEE double with value `± significand · 2 ^ exponent`. The functions here build the
standard form: the significand is below `2 ^ 53`, and at least `2 ^ 52` unless the exponent is the
least one, `-1074`. -/
structure Double where
  /-- Whether the sign is negative; zero has both signs. -/
  negative : Bool
  significand : Nat
  exponent : Int
  deriving DecidableEq, Repr, Inhabited

namespace Double

/-- The least binary exponent. -/
def leastExponent : Int := -1074

/-- The greatest binary exponent. -/
def greatestExponent : Int := 971

/-- Zero of either sign. -/
def zero (negative : Bool) : Double := ⟨negative, 0, leastExponent⟩

/-- Whether the value is zero. -/
def isZero (x : Double) : Bool := x.significand == 0

/-- The quotient rounded to the nearest integer, a half to the even one. -/
def roundDiv (num den : Nat) : Nat :=
  let quotient := num / den
  let twice := 2 * (num % den)
  if twice < den then quotient
  else if den < twice then quotient + 1
  else quotient + quotient % 2

/-- Numerator and denominator of `num / den / 2 ^ exponent`. -/
def scaled (num den : Nat) (exponent : Int) : Nat × Nat :=
  if exponent < 0 then (num * Nat.pow 2 exponent.natAbs, den)
  else (num, den * Nat.pow 2 exponent.natAbs)

/-- The binary exponent that leaves 53 bits before the binary point, and no less than the least. -/
def exponentFor (num den : Nat) : Int :=
  let guess : Int := (num.log2 : Int) - den.log2 - 53
  let (n, d) := scaled num den guess
  max leastExponent (if n / d < Nat.pow 2 53 then guess else guess + 1)

/-- The double nearest to the fraction; none when it lies beyond the greatest double. -/
def nearest? (negative : Bool) (num den : Nat) : Option Double :=
  if num = 0 then some (zero negative)
  else
    let exponent := exponentFor num den
    let (n, d) := scaled num den exponent
    let significand := roundDiv n d
    let (significand, exponent) :=
      if significand < Nat.pow 2 53 then (significand, exponent) else (Nat.pow 2 52, exponent + 1)
    if greatestExponent < exponent then none else some ⟨negative, significand, exponent⟩

/-- Numerator and denominator of the absolute value. -/
def ratio (x : Double) : Nat × Nat :=
  if x.exponent < 0 then (x.significand, Nat.pow 2 x.exponent.natAbs)
  else (x.significand * Nat.pow 2 x.exponent.natAbs, 1)

/-- The product, rounded once; none on overflow. -/
def mul? (x y : Double) : Option Double :=
  let (a, b) := x.ratio
  let (c, d) := y.ratio
  nearest? (x.negative != y.negative) (a * c) (b * d)

/-- The quotient by a double of at least one, rounded once. -/
def div (x y : Double) : Double :=
  let (a, b) := x.ratio
  let (c, d) := y.ratio
  (nearest? (x.negative != y.negative) (a * d) (b * c)).getD (zero (x.negative != y.negative))

/-- The double nearest to `10 ^ n`, for `n` up to 308. -/
def powerOfTen (n : Nat) : Double := (nearest? false (Nat.pow 10 n) 1).getD (zero false)

/-- The double nearest to `digits · 10 ^ exponent`; none beyond the greatest double. Far outside
the range of doubles the answer follows from the size alone, without a power of ten. -/
def ofDecimal? (negative : Bool) (digits : Nat) (exponent : Int) : Option Double :=
  let size : Int := (Nat.toDigits 10 digits).length + exponent
  if digits = 0 then some (zero negative)
  else if 400 < size then none
  else if size < -400 then some (zero negative)
  else if exponent < 0 then nearest? negative digits (Nat.pow 10 exponent.natAbs)
  else nearest? negative (digits * Nat.pow 10 exponent.natAbs) 1

end Double

example : Double.nearest? false 1 1 = some ⟨false, Nat.pow 2 52, -52⟩ := by decide
example : Double.nearest? true 1 10 = some ⟨true, 7205759403792794, -56⟩ := by decide
example : Double.nearest? false (Nat.pow 2 53 + 1) 1 = some ⟨false, Nat.pow 2 52, 1⟩ := by decide
example : Double.nearest? false (Nat.pow 2 1024) 1 = none := by decide +kernel

end HeatPlacement
