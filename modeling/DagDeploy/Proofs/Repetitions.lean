import DagDeploy.Proofs.CheckedSteps
import DagDeploy.Proofs.Hyperperiod
import Mathlib.Order.Bounds.Basic

/-! How often a set is executed: not more often than the iterations and the time ask for. The log
tells when the time asks for more than the iterations do. -/

namespace DagDeploy

/-- As many runs as asked for, and as many as it takes to cover the time. -/
def Period.Suffices (iterations minSeconds hyperPeriod count : Nat) : Prop :=
  iterations ≤ count ∧ minSeconds * 1000000000 ≤ count * hyperPeriod

namespace Period

variable {iterations minSeconds hyperPeriod count : Nat} {failure : Failure}

theorem isLeast_of_repetitions (positive : 0 < hyperPeriod)
    (counted : repetitions iterations minSeconds hyperPeriod = .ok count) :
    IsLeast {count | Suffices iterations minSeconds hyperPeriod count} count := by
  rw [repetitions_of_pos iterations minSeconds positive] at counted
  split at counted
  next =>
    obtain rfl := Except.ok.inj counted
    constructor
    · exact (max_ceilDiv_le_iff positive).mp (Nat.le_refl _)
    · intro other enough
      exact (max_ceilDiv_le_iff positive).mpr enough
  next => cases counted

theorem repetitions_eq_overflow (positive : 0 < hyperPeriod) :
    repetitions iterations minSeconds hyperPeriod = .error failure ↔
      longestSpan < minSeconds * 1000000000 ∧ failure = .minSecondsOverflow minSeconds := by
  rw [repetitions_of_pos iterations minSeconds positive, nsPerSecond]
  split
  next inside => simp [inside]
  next outside => simp [Nat.not_le.mp outside, eq_comm]

/-- More runs than the iterations ask for are needed exactly when those do not cover the time. -/
theorem ne_iterations_iff
    (least : IsLeast {count | Suffices iterations minSeconds hyperPeriod count} count) :
    count ≠ iterations ↔ iterations * hyperPeriod < minSeconds * 1000000000 := by
  obtain ⟨⟨enough, covered⟩, lower⟩ := least
  constructor
  · intro different
    apply Nat.lt_of_not_le
    intro alreadyCovered
    have fewer : count ≤ iterations := lower ⟨Nat.le_refl _, alreadyCovered⟩
    exact different (Nat.le_antisymm fewer enough)
  · intro uncovered same
    rw [same] at covered
    exact Nat.not_le.mpr uncovered covered

end Period

namespace RunLength

variable {periods : List Nat} {iterations minSeconds : Nat} {run : RunLength}

theorem lines_of_ok
    (computed : (RunLength.of periods iterations minSeconds).outcome = .ok run) :
    (RunLength.of periods iterations minSeconds).lines
      = if run.repetitions ≠ iterations then [.extendedRun run.repetitions minSeconds] else [] := by
  obtain ⟨reduced, counted⟩ := of_eq_ok.mp computed
  simp only [RunLength.of, reduced, counted, Logged.ofExcept_ok, pure_bind, Logged.sayIf_bind,
    Logged.lines_pure, List.append_nil, bne_iff_ne]

theorem of_eq_overflow {hyperPeriod : Nat} {failure : Failure}
    (reduced : Period.hyperPeriod periods = .ok hyperPeriod) :
    (RunLength.of periods iterations minSeconds).outcome = .error failure ↔
      Period.longestSpan < minSeconds * 1000000000 ∧
        failure = .minSecondsOverflow minSeconds := by
  obtain ⟨nonzero, common, -⟩ := Period.hyperPeriod_eq_ok.mp reduced
  have refused : (RunLength.of periods iterations minSeconds).outcome = .error failure ↔
      Period.repetitions iterations minSeconds hyperPeriod = .error failure := by
    simp only [RunLength.of, reduced, Logged.ofExcept_ok, pure_bind, Logged.outcome_bind_eq_error,
      Logged.outcome_ofExcept, Logged.outcome_sayIf, Logged.outcome_pure, reduceCtorEq, and_false,
      exists_false, or_false]
  exact refused.trans (Period.repetitions_eq_overflow (common ▸ Period.lcm_pos nonzero))

/-- A run length states the least number of runs that suffices, with a line exactly when the
iterations alone do not cover the time. Once the hyperperiod is known, only a time of more than a
word of ns is refused. Computed on words the run length is the same. -/
theorem repetitions_outcome (periods : List Nat) (iterations minSeconds : Nat) :
    (∀ run, (RunLength.of periods iterations minSeconds).outcome = .ok run →
      Period.hyperPeriod periods = .ok run.hyperPeriod ∧
      IsLeast {count | Period.Suffices iterations minSeconds run.hyperPeriod count}
        run.repetitions ∧
      (RunLength.of periods iterations minSeconds).lines.map LogLine.text
        = if iterations * run.hyperPeriod < minSeconds * 1000000000 then
            [s!"Running {run.repetitions} repetitions to cover at least {minSeconds} s."]
          else []) ∧
    (∀ hyperPeriod, Period.hyperPeriod periods = .ok hyperPeriod → ∀ failure,
      (RunLength.of periods iterations minSeconds).outcome = .error failure ↔
        Period.longestSpan < minSeconds * 1000000000 ∧
          failure = .minSecondsOverflow minSeconds) ∧
    (∀ hyperPeriod, 0 < hyperPeriod →
      (∀ count, Period.repetitions iterations minSeconds hyperPeriod = .ok count →
        IsLeast {count | Period.Suffices iterations minSeconds hyperPeriod count} count) ∧
      ∀ failure, Period.repetitions iterations minSeconds hyperPeriod = .error failure ↔
        Period.longestSpan < minSeconds * 1000000000 ∧
          failure = .minSecondsOverflow minSeconds) ∧
    Period.repetitions iterations minSeconds 0 = .ok iterations ∧
    Checked.runLength periods iterations minSeconds
      = .ofLogged (RunLength.of periods iterations minSeconds) := by
  refine ⟨?_, ?_, ?_, ?_, Checked.runLength_eq periods iterations minSeconds⟩
  · intro run computed
    obtain ⟨reduced, counted⟩ := of_eq_ok.mp computed
    obtain ⟨nonzero, common, -⟩ := Period.hyperPeriod_eq_ok.mp reduced
    have least := Period.isLeast_of_repetitions (common ▸ Period.lcm_pos nonzero) counted
    refine ⟨reduced, least, ?_⟩
    rw [lines_of_ok computed]
    simp only [Period.ne_iterations_iff least]
    split <;> rfl
  · intro hyperPeriod reduced failure
    exact of_eq_overflow reduced
  · intro hyperPeriod positive
    exact ⟨fun count => Period.isLeast_of_repetitions positive,
      fun failure => Period.repetitions_eq_overflow positive⟩
  · exact if_pos (.inr rfl)

/-- Two runs of 400 milliseconds and one iteration do not cover a second. -/
theorem repetitions_outcome_sample :
    (RunLength.of [200000000, 400000000] 1 1).outcome = .ok ⟨400000000, 3⟩ ∧
    IsLeast {count | Period.Suffices 1 1 400000000 count} 3 ∧
    (RunLength.of [200000000, 400000000] 1 1).lines.map LogLine.text
      = [s!"Running {3} repetitions to cover at least {1} s."] ∧
    (RunLength.of [200000000] 1 18446744074).outcome = .error (.minSecondsOverflow 18446744074) := by
  have computed : (RunLength.of [200000000, 400000000] 1 1).outcome = .ok ⟨400000000, 3⟩ := rfl
  obtain ⟨least, -⟩ := repetitions_outcome [200000000, 400000000] 1 1
  obtain ⟨-, refused, -⟩ := repetitions_outcome [200000000] 1 18446744074
  obtain ⟨-, isLeast, lines⟩ := least _ computed
  exact ⟨computed, isLeast, lines, (refused 200000000 rfl _).mpr ⟨by decide, rfl⟩⟩

end RunLength

end DagDeploy
