import DagDeploy.Conversion
import Mathlib.Algebra.GCDMonoid.Multiset
import Mathlib.Algebra.GCDMonoid.Nat
import Mathlib.Algebra.Order.Floor.Div

/-! The hyperperiod is the least common multiple of the periods, whatever their order. The limit is
checked at every step, and yet only the final value decides, because no step divides it down. -/

namespace DagDeploy.Period

theorem div_gcd_mul (current period : Nat) :
    current / current.gcd period * period = Nat.lcm current period := by
  rw [Nat.lcm_eq_mul_div, Nat.div_mul_right_comm (Nat.gcd_dvd_left current period)]

theorem lcm_pos {periods : List Nat} (nonzero : ∀ period ∈ periods, period ≠ 0) :
    0 < (periods : Multiset Nat).lcm := by
  refine Nat.pos_of_ne_zero fun vanishes => ?_
  have zero : (0 : Nat) ∈ periods := by simpa [Multiset.lcm_eq_zero_iff] using vanishes
  exact nonzero 0 zero rfl

theorem lcm_cons (period : Nat) (rest : List Nat) :
    ((period :: rest : List Nat) : Multiset Nat).lcm
      = Nat.lcm period (rest : Multiset Nat).lcm := by
  rw [← Multiset.cons_coe, Multiset.lcm_cons, lcm_eq_nat_lcm]

theorem extend_eq_ok {dag current result : Nat} {periods : List Nat} (positive : 0 < current)
    (fits : current ≤ longest) :
    extend dag current periods = .ok result ↔
      (∀ period ∈ periods, period ≠ 0) ∧
        result = Nat.lcm current (periods : Multiset Nat).lcm ∧ result ≤ longest := by
  induction periods generalizing dag current with
  | nil =>
    simp only [extend, Except.ok.injEq, Multiset.coe_nil, Multiset.lcm_zero, Nat.lcm_one_right]
    constructor
    · intro same
      subst same
      exact ⟨by simp, rfl, fits⟩
    · intro ⟨_, same, _⟩
      exact same.symm
  | cons period rest ih =>
    simp only [extend, div_gcd_mul]
    split
    next zero => simp [zero]
    next nonzero =>
      have grown : 0 < Nat.lcm current period :=
        Nat.lcm_pos positive (Nat.pos_of_ne_zero nonzero)
      rw [lcm_cons, ← Nat.lcm_assoc, List.forall_mem_cons]
      split
      next inside =>
        rw [ih grown inside]
        simp [nonzero]
      next outside =>
        constructor
        · intro impossible
          cases impossible
        · intro ⟨⟨_, others⟩, common, bounded⟩
          have divides := Nat.dvd_lcm_left (Nat.lcm current period) (rest : Multiset Nat).lcm
          have least := Nat.le_of_dvd (Nat.lcm_pos grown (lcm_pos others)) divides
          rw [← common] at least
          exact absurd (Nat.le_trans least bounded) outside

theorem hyperPeriod_eq_ok {periods : List Nat} {result : Nat} :
    hyperPeriod periods = .ok result ↔
      (∀ period ∈ periods, period ≠ 0) ∧ result = (periods : Multiset Nat).lcm ∧
        result ≤ longest := by
  rw [hyperPeriod, extend_eq_ok Nat.one_pos (by decide), Nat.lcm_one_left]

/-- Without a time to cover, the quotient is zero and the iterations decide. -/
theorem repetitions_of_pos (iterations minSeconds : Nat) {hyperPeriod : Nat}
    (positive : 0 < hyperPeriod) :
    repetitions iterations minSeconds hyperPeriod
      = if minSeconds * nsPerSecond ≤ longestSpan then
          .ok (max iterations (minSeconds * nsPerSecond ⌈/⌉ hyperPeriod))
        else .error (.minSecondsOverflow minSeconds) := by
  unfold repetitions
  split
  next unasked =>
    obtain rfl : minSeconds = 0 := unasked.resolve_right (Nat.ne_of_gt positive)
    simp
  next => rfl

theorem repetitions_succeeds_iff (iterations : Nat) {minSeconds hyperPeriod : Nat}
    (positive : 0 < hyperPeriod) :
    (∃ count, repetitions iterations minSeconds hyperPeriod = .ok count) ↔
      minSeconds * nsPerSecond ≤ longestSpan := by
  rw [repetitions_of_pos iterations minSeconds positive]
  split
  next inside => simp [inside]
  next outside => simp [outside]

/-- Both demands on the number of runs in one. -/
theorem max_ceilDiv_le_iff {iterations span hyperPeriod count : Nat}
    (positive : 0 < hyperPeriod) :
    max iterations (span ⌈/⌉ hyperPeriod) ≤ count ↔
      iterations ≤ count ∧ span ≤ count * hyperPeriod := by
  rw [max_le_iff, ceilDiv_le_iff_le_mul positive, Nat.mul_comm hyperPeriod]

/-- Rounding up leaves no part of the time uncovered. -/
theorem span_le_of_repetitions {iterations minSeconds hyperPeriod count : Nat}
    (positive : 0 < hyperPeriod)
    (counted : repetitions iterations minSeconds hyperPeriod = .ok count) :
    minSeconds * nsPerSecond ≤ count * hyperPeriod := by
  rw [repetitions_of_pos iterations minSeconds positive] at counted
  split at counted
  next =>
    obtain rfl := Except.ok.inj counted
    exact ((max_ceilDiv_le_iff positive).mp (Nat.le_refl _)).2
  next => cases counted

end DagDeploy.Period

namespace DagDeploy.RunLength

variable {periods : List Nat} {iterations minSeconds : Nat} {run : RunLength}

theorem of_eq_ok :
    (RunLength.of periods iterations minSeconds).outcome = .ok run ↔
      Period.hyperPeriod periods = .ok run.hyperPeriod ∧
        Period.repetitions iterations minSeconds run.hyperPeriod = .ok run.repetitions := by
  obtain ⟨hyperPeriod, repetitions⟩ := run
  simp only [RunLength.of, Logged.outcome_bind_eq_ok, Logged.outcome_ofExcept,
    Logged.outcome_sayIf, Logged.outcome_pure, Except.ok.injEq, RunLength.mk.injEq]
  constructor
  · intro result
    obtain ⟨_, reduced, _, counted, _, _, rfl, rfl⟩ := result
    exact ⟨reduced, counted⟩
  · intro ⟨reduced, counted⟩
    exact ⟨_, reduced, _, counted, (), trivial, rfl, rfl⟩

theorem of_succeeds_iff (periods : List Nat) (iterations minSeconds : Nat) :
    (∃ run, (RunLength.of periods iterations minSeconds).outcome = .ok run) ↔
      (∀ period ∈ periods, period ≠ 0) ∧ (periods : Multiset Nat).lcm ≤ Period.longest ∧
        minSeconds * Period.nsPerSecond ≤ Period.longestSpan := by
  simp only [of_eq_ok, Period.hyperPeriod_eq_ok]
  constructor
  · intro ⟨run, ⟨nonzero, common, fits⟩, counted⟩
    have positive : 0 < run.hyperPeriod := common ▸ Period.lcm_pos nonzero
    have span := (Period.repetitions_succeeds_iff iterations positive).mp ⟨_, counted⟩
    exact ⟨nonzero, common ▸ fits, span⟩
  · intro ⟨nonzero, fits, span⟩
    obtain ⟨count, counted⟩ :=
      (Period.repetitions_succeeds_iff iterations (Period.lcm_pos nonzero)).mpr span
    exact ⟨⟨_, count⟩, ⟨nonzero, rfl, fits⟩, counted⟩

/-- Each period divides the hyperperiod, so it fits as well. -/
theorem period_le (described : (RunLength.of periods iterations minSeconds).outcome = .ok run)
    {period : Nat} (member : period ∈ periods) : period ≤ run.hyperPeriod := by
  obtain ⟨nonzero, common, -⟩ := Period.hyperPeriod_eq_ok.mp (of_eq_ok.mp described).1
  rw [common]
  exact Nat.le_of_dvd (Period.lcm_pos nonzero) (Multiset.dvd_lcm (by simpa using member))

theorem hyperPeriod_le
    (described : (RunLength.of periods iterations minSeconds).outcome = .ok run) :
    run.hyperPeriod ≤ Period.longest :=
  (Period.hyperPeriod_eq_ok.mp (of_eq_ok.mp described).1).2.2

end DagDeploy.RunLength
