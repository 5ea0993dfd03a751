/-! Binary floating-point numbers of 64 bits, with NaN as one value. Magnitudes are counted upwards
from zero, so comparing two numbers compares their ranks; the last rank is infinity. Every finite
magnitude is a whole number of units of 2⁻¹⁰⁷⁴. -/

namespace DagDeploy

inductive Binary64 where
  | nan
  | number (negative : Bool) (rank : Fin (0x7ff0000000000000 + 1))
  deriving DecidableEq, Repr

namespace Binary64

/-- The rank of infinity. -/
def top : Nat := 0x7ff0000000000000

/-- Ranks beyond infinity do not exist. -/
def clip (rank : Nat) : Fin (top + 1) := ⟨min rank top, by omega⟩

def ofRank (negative : Bool) (rank : Nat) : Binary64 := .number negative (clip rank)

def infinity (negative : Bool) : Binary64 := ofRank negative top

def zero (negative : Bool) : Binary64 := ofRank negative 0

def one : Binary64 := ofRank false 0x3ff0000000000000

def isFinite : Binary64 → Bool
  | .nan => false
  | .number _ rank => rank.val < top

/-- The place of a number in the order; both zeros have the same. -/
def place? : Binary64 → Option Int
  | .nan => none
  | .number negative rank => some (if negative then -rank.val else rank.val)

/-- NaN is neither above nor below anything. -/
def above (x y : Binary64) : Bool :=
  match x.place?, y.place? with
  | some a, some b => b < a
  | _, _ => false

def atLeast (x y : Binary64) : Bool :=
  match x.place?, y.place? with
  | some a, some b => b ≤ a
  | _, _ => false

/-- Numerical equality: zeros are equal, and so are NaNs. -/
def same (x y : Binary64) : Bool := x.place? == y.place?

def signBit : Nat := 0x8000000000000000

/-- The interchange word of a number: its rank, below the sign bit. -/
def bits? : Binary64 → Option Nat
  | .nan => none
  | .number negative rank => some ((if negative then signBit else 0) + rank.val)

/-- The number of ranks from one power of two to the next. -/
def ranksPerPower : Nat := 0x10000000000000

/-- The exponent of a rank in units: a rank names `significand` times this power of two. -/
def exponent (rank : Nat) : Nat := rank / ranksPerPower - 1

def significand (rank : Nat) : Nat := rank - exponent rank * ranksPerPower

/-- A finite magnitude as a number of units. -/
def units (rank : Nat) : Nat := significand rank * Nat.pow 2 (exponent rank)

def unitsPerOne : Nat := Nat.pow 2 1074

end Binary64

end DagDeploy
