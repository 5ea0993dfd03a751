import DagDeploy.Failure

/-! Durations of periodic runs. Inputs are in nanoseconds. The hyperperiod is the least common
multiple of all activation periods, taken from left to right; it must fit a signed 64-bit number of
nanoseconds at every step. -/

namespace DagDeploy.Period

/-- The longest period, in ns, that a signed 64-bit number holds. -/
def longest : Nat := Nat.pow 2 63 - 1

/-- The largest unsigned 64-bit number of ns. -/
def longestSpan : Nat := Nat.pow 2 64 - 1

def nsPerMicro : Int := 1000

def nsPerSecond : Nat := 1000000000

/-- Extends the hyperperiod `current` of the first `dag` periods by the remaining ones. -/
def extend (dag current : Nat) : List Nat → Except Failure Nat
  | [] => .ok current
  | period :: rest =>
    if period = 0 then .error (.zeroPeriod dag)
    else
      let next := current / current.gcd period * period
      if next ≤ longest then extend (dag + 1) next rest else .error (.hyperPeriodOverflow dag)

def hyperPeriod (periods : List Nat) : Except Failure Nat := extend 0 1 periods

inductive Rounding where
  | towardZero
  | up
  deriving DecidableEq, Repr

def toMicros (rounding : Rounding) (ns : Int) : Int :=
  let micros := ns.tdiv nsPerMicro
  match rounding with
  | .towardZero => micros
  | .up => if 0 < ns.tmod nsPerMicro then micros + 1 else micros

/-- The runs needed to cover `minSeconds`, and at least `iterations` of them. -/
def repetitions (iterations minSeconds hyperPeriod : Nat) : Except Failure Nat :=
  if minSeconds = 0 ∨ hyperPeriod = 0 then .ok iterations
  else
    let span := minSeconds * nsPerSecond
    if span ≤ longestSpan then .ok (max iterations ((span + hyperPeriod - 1) / hyperPeriod))
    else .error (.minSecondsOverflow minSeconds)

end DagDeploy.Period
