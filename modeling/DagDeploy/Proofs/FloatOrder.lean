import DagDeploy.Binary64
import Mathlib.Order.Monotone.Basic

/-! Ranks order floating-point numbers as their exact values do. Infinity stands where the next
power of two would. -/

namespace DagDeploy.Binary64

/-- The exact value in units; NaN has none. -/
def value? : Binary64 → Option Int
  | .nan => none
  | .number negative rank => some (if negative then -(units rank.val : Int) else units rank.val)

/-- Below the first power of two, ranks count units. -/
theorem units_small {rank : Nat} (small : rank < ranksPerPower) : units rank = rank := by
  have bottom : exponent rank = 0 := by simp only [exponent, Nat.div_eq_of_lt small]
  simp only [units, significand, bottom, Nat.zero_mul, Nat.sub_zero, Nat.pow_eq, Nat.pow_zero,
    Nat.mul_one]

theorem units_normal (power : Nat) {part : Nat} (inside : part < ranksPerPower) :
    units ((power + 1) * ranksPerPower + part) = (ranksPerPower + part) * Nat.pow 2 power := by
  simp only [ranksPerPower] at inside ⊢
  have scale : exponent ((power + 1) * 0x10000000000000 + part) = power := by
    simp only [exponent, ranksPerPower]
    omega
  have digits : significand ((power + 1) * 0x10000000000000 + part) = 0x10000000000000 + part := by
    simp only [significand, scale, ranksPerPower]
    omega
  rw [units, scale, digits]

/-- From the first power of two on, ranks count within the powers. -/
theorem rank_cases (rank : Nat) : rank < ranksPerPower ∨
    ∃ power part, part < ranksPerPower ∧ rank = (power + 1) * ranksPerPower + part := by
  by_cases small : rank < ranksPerPower
  · exact .inl small
  · refine .inr ⟨rank / ranksPerPower - 1, rank % ranksPerPower, Nat.mod_lt _ (by decide), ?_⟩
    simp only [ranksPerPower] at small ⊢
    omega

theorem units_lt_succ (rank : Nat) : units rank < units (rank + 1) := by
  rcases rank_cases rank with small | ⟨power, part, inside, rfl⟩
  · rw [units_small small]
    by_cases inside : rank + 1 < ranksPerPower
    · rw [units_small inside]
      exact Nat.lt_succ_self rank
    · have next : rank + 1 = (0 + 1) * ranksPerPower + 0 := by omega
      rw [next, units_normal 0 (by decide)]
      simp only [Nat.pow_eq, Nat.pow_zero]
      omega
  · have positive : 0 < Nat.pow 2 power := Nat.pow_pos (by decide)
    rw [units_normal power inside]
    by_cases further : part + 1 < ranksPerPower
    · rw [Nat.add_assoc, units_normal power further]
      exact Nat.mul_lt_mul_of_pos_right (by omega) positive
    · -- Half of the significand makes up for one more power of two.
      have next : (power + 1) * ranksPerPower + part + 1
          = (power + 1 + 1) * ranksPerPower + 0 := by
        rw [Nat.succ_mul (power + 1)]
        omega
      calc (ranksPerPower + part) * Nat.pow 2 power
        _ < ranksPerPower * 2 * Nat.pow 2 power :=
          Nat.mul_lt_mul_of_pos_right (by omega) positive
        _ = (ranksPerPower + 0) * Nat.pow 2 (power + 1) := by
          rw [Nat.mul_assoc, Nat.mul_comm 2]
          rfl
        _ = units ((power + 1) * ranksPerPower + part + 1) := by
          rw [next, units_normal (power + 1) (by decide)]

theorem units_zero : units 0 = 0 := rfl

theorem units_strictMono : StrictMono units := strictMono_nat_of_lt_succ units_lt_succ

/-- Comparing places is comparing values, whatever the signs. -/
private theorem place_lt_place {negative otherNegative : Bool} {rank other : Nat} :
    (if negative then -(rank : Int) else rank) < (if otherNegative then -(other : Int) else other) ↔
      (if negative then -(units rank : Int) else units rank)
        < (if otherNegative then -(units other : Int) else units other) := by
  have less := units_strictMono.lt_iff_lt (a := rank) (b := other)
  have more := units_strictMono.lt_iff_lt (a := other) (b := rank)
  have rankSign := units_strictMono.lt_iff_lt (a := 0) (b := rank)
  have otherSign := units_strictMono.lt_iff_lt (a := 0) (b := other)
  rw [units_zero] at rankSign otherSign
  cases negative <;> cases otherNegative <;> simp only [Bool.false_eq_true, if_true, if_false]
  all_goals omega

theorem above_iff {x y : Binary64} :
    x.above y = true ↔ ∃ a b, x.value? = some a ∧ y.value? = some b ∧ b < a := by
  cases x with
  | nan => simp [above, place?, value?]
  | number negative rank =>
    cases y with
    | nan => simp [above, place?, value?]
    | number otherNegative other =>
      simp only [above, place?, value?, decide_eq_true_eq, Option.some.injEq]
      rw [place_lt_place]
      constructor
      · intro less
        exact ⟨_, _, rfl, rfl, less⟩
      · intro values
        obtain ⟨_, _, rfl, rfl, less⟩ := values
        exact less

theorem atLeast_iff {x y : Binary64} :
    x.atLeast y = true ↔ ∃ a b, x.value? = some a ∧ y.value? = some b ∧ b ≤ a := by
  cases x with
  | nan => simp [atLeast, place?, value?]
  | number negative rank =>
    cases y with
    | nan => simp [atLeast, place?, value?]
    | number otherNegative other =>
      simp only [atLeast, place?, value?, decide_eq_true_eq, Option.some.injEq]
      rw [← Int.not_lt, place_lt_place, Int.not_lt]
      constructor
      · intro least
        exact ⟨_, _, rfl, rfl, least⟩
      · intro values
        obtain ⟨_, _, rfl, rfl, least⟩ := values
        exact least

theorem units_one : units 0x3ff0000000000000 = unitsPerOne := by decide +kernel

theorem value_one : one.value? = some (unitsPerOne : Int) := congrArg (some ∘ Int.ofNat) units_one

theorem above_one_iff {x : Binary64} :
    x.above one = true ↔ ∃ value, x.value? = some value ∧ (unitsPerOne : Int) < value := by
  simp only [above_iff, value_one, Option.some.injEq, exists_and_left, exists_eq_left']

theorem atLeast_one_iff {x : Binary64} :
    x.atLeast one = true ↔ ∃ value, x.value? = some value ∧ (unitsPerOne : Int) ≤ value := by
  simp only [atLeast_iff, value_one, Option.some.injEq, exists_and_left, exists_eq_left']

end DagDeploy.Binary64
