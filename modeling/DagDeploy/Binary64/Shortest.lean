import DagDeploy.Binary64.Nearest

/-! Short decimals near a given magnitude. Those with few digits come first, and of two with equally
many the nearer one, so the first that reads back as the magnitude is the shortest and the nearest
of the shortest. -/

namespace DagDeploy.Binary64

/-- The exponent of the leading decimal digit of a positive fraction. -/
def leadingExponent (numerator denominator : Nat) : Int :=
  let guess := (((numerator.log2 : Int) - denominator.log2) * 30103).fdiv 100000
  if reaches (guess + 1) then guess + 1 else if reaches guess then guess else guess - 1
where
  reaches : Int → Bool
    | .ofNat power => Nat.pow 10 power * denominator ≤ numerator
    | .negSucc power => denominator ≤ numerator * Nat.pow 10 (power + 1)

/-- The decimals on both sides of a fraction among the multiples of `10 ^ exponent`, the nearer one
first; of two equally near ones the even one. -/
def neighbours (numerator denominator : Nat) (exponent : Int) : List Decimal :=
  let (top, bottom) := match exponent with
    | .ofNat power => (numerator, denominator * Nat.pow 10 power)
    | .negSucc power => (numerator * Nat.pow 10 (power + 1), denominator)
  let below := top / bottom
  let nearest := roundDiv top bottom
  let other := if nearest = below then below + 1 else below
  [⟨nearest, exponent⟩, ⟨other, exponent⟩]

/-- Seventeen digits tell all finite magnitudes apart. -/
def candidates (rank : Nat) : List Decimal :=
  let leading := leadingExponent (units rank) unitsPerOne
  (List.range 17).flatMap fun (places : Nat) =>
    neighbours (units rank) unitsPerOne (leading - places)

/-- The decimal that equals a magnitude, digit for digit. -/
def exact (rank : Nat) : Decimal := ⟨units rank * Nat.pow 5 1074, -1074⟩

end DagDeploy.Binary64
