/-!
# Panics

A number that leaves its type stops the program: there is no answer, and nothing more is done.

* `Panic`: what stopped the program, with its wording
-/

namespace HeatPlacement

/-- What stopped the program. -/
inductive Panic where
  /-- A product that its type does not hold. -/
  | product
  /-- A sum that its type does not hold. -/
  | sum
  /-- A point of time that the clock does not reach. -/
  | instant
  deriving DecidableEq, Repr, Inhabited

/-- The wording of a panic. -/
def Panic.message : Panic → String
  | .product => "attempt to multiply with overflow"
  | .sum => "attempt to add with overflow"
  | .instant => "overflow when adding duration to instant"

end HeatPlacement
