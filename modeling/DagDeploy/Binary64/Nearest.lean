import DagDeploy.Binary64

/-! The binary number nearest to a fraction or to a decimal; of two equally near ones the one with
the even rank. -/

namespace DagDeploy.Binary64

/-- The whole number nearest to a quotient, a half going to the even neighbour. -/
def roundDiv (numerator denominator : Nat) : Nat :=
  let quotient := numerator / denominator
  let twice := 2 * (numerator % denominator)
  if denominator < twice ∨ (twice = denominator ∧ quotient % 2 = 1) then quotient + 1 else quotient

/-- The rank nearest to a magnitude given as a fraction in units. Significands have 53 bits, except
below the smallest normal number. -/
def rankOfUnits (numerator denominator : Nat) : Nat :=
  let power := (numerator / denominator).log2 - 52
  power * ranksPerPower + roundDiv numerator (denominator * Nat.pow 2 power)

/-- A decimal magnitude: `digits` times a power of ten. -/
structure Decimal where
  digits : Nat
  exponent : Int
  deriving DecidableEq, Repr

/-- The magnitude of a decimal in units, as a fraction. -/
def Decimal.fraction (decimal : Decimal) : Nat × Nat :=
  match decimal.exponent with
  | .ofNat power => (decimal.digits * Nat.pow 10 power * unitsPerOne, 1)
  | .negSucc power => (decimal.digits * unitsPerOne, Nat.pow 10 (power + 1))

/-- Beyond these bounds a decimal is far above the largest finite number, or far below half of the
smallest, whatever its digits. -/
def Decimal.rank (decimal : Decimal) : Nat :=
  if decimal.digits = 0 then 0
  else if 400 < decimal.exponent then top
  else if decimal.exponent < -400 - decimal.digits.log2 then 0
  else rankOfUnits decimal.fraction.1 decimal.fraction.2

def ofDecimal (negative : Bool) (decimal : Decimal) : Binary64 := ofRank negative decimal.rank

end DagDeploy.Binary64
