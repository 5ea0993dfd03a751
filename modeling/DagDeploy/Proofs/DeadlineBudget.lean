import DagDeploy.Proofs.Circuits
import DagDeploy.Proofs.Description
import DagDeploy.Proofs.Hyperperiod
import Mathlib.Algebra.BigOperators.Group.Finset.Basic
import Mathlib.Algebra.Order.BigOperators.Group.List

/-! Budgets that hold in nanoseconds hold in microseconds. Each duration is cut down towards zero on
its own: this keeps the order of any two durations, of both signs, and durations that are not
negative lose at least as much apart as they lose together. -/

namespace DagDeploy

namespace Period

theorem toMicros_mono {shorter longer : Int} (less : shorter ≤ longer) :
    toMicros .towardZero shorter ≤ toMicros .towardZero longer :=
  Int.tdiv_le_tdiv (by decide) less

theorem toMicros_add_le {first second : Int} (nonneg : 0 ≤ first) (alsoNonneg : 0 ≤ second) :
    toMicros .towardZero first + toMicros .towardZero second
      ≤ toMicros .towardZero (first + second) := by
  change first.tdiv 1000 + second.tdiv 1000 ≤ (first + second).tdiv 1000
  rw [Int.tdiv_eq_ediv_of_nonneg nonneg, Int.tdiv_eq_ediv_of_nonneg alsoNonneg,
    Int.tdiv_eq_ediv_of_nonneg (Int.add_nonneg nonneg alsoNonneg)]
  omega

theorem sum_toMicros_le {durations : List Int} (nonneg : ∀ ns ∈ durations, 0 ≤ ns) :
    (durations.map (toMicros .towardZero)).sum ≤ toMicros .towardZero durations.sum := by
  induction durations with
  | nil => exact Int.le_refl 0
  | cons first rest ih =>
    obtain ⟨firstNonneg, restNonneg⟩ := List.forall_mem_cons.mp nonneg
    rw [List.map_cons, List.sum_cons, List.sum_cons]
    calc toMicros .towardZero first + (rest.map (toMicros .towardZero)).sum
        ≤ toMicros .towardZero first + toMicros .towardZero rest.sum :=
          Int.add_le_add_left (ih restNonneg) _
      _ ≤ toMicros .towardZero (first + rest.sum) :=
          toMicros_add_le firstNonneg (List.sum_nonneg restNonneg)

end Period

/-- What is kept of the budgets of a dag, whose solved tasks are given in the order of their ids.
Tasks are numbered from zero, and those without an entry count nothing. -/
structure Descriptor.KeepsBudgets (descriptor : Descriptor) (dag : Dag) (run : RunLength)
    (solved : List SolvedTask) : Prop where
  count : solved.length = dag.tasks.length ∧ descriptor.taskRuntimes.length = dag.tasks.length ∧
    descriptor.taskDeadlines.length = dag.tasks.length
  task : ∀ (position : Nat) (record : SolvedTask), solved[position]? = some record →
    record.wcet ≤ record.deadline → ∃ runtime deadline,
      descriptor.taskRuntimes[position]? = some runtime ∧
      descriptor.taskDeadlines[position]? = some deadline ∧ runtime ≤ deadline
  tasks : ∀ chosen ⊆ Finset.range dag.tasks.length,
    (∀ task ∈ chosen, 0 ≤ (solved.map SolvedTask.deadline).getD task 0) →
    ∑ task ∈ chosen, (solved.map SolvedTask.deadline).getD task 0 ≤ dag.deadline →
    ∑ task ∈ chosen, descriptor.taskDeadlines.getD task 0 ≤ descriptor.deadline
  path : ∀ path : List Nat, path.IsChain dag.Precedes → (∀ task ∈ path, task < dag.tasks.length) →
    (∀ task ∈ path, 0 ≤ (solved.map SolvedTask.deadline).getD task 0) →
    (path.map fun task => (solved.map SolvedTask.deadline).getD task 0).sum ≤ dag.deadline →
    (path.map fun task => descriptor.taskDeadlines.getD task 0).sum ≤ descriptor.deadline
  deadline : dag.deadline ≤ dag.period → descriptor.deadline ≤ descriptor.period
  period : ∀ (set : DagSet) (iterations minSeconds : Nat), dag ∈ set.dags →
    (RunLength.of set.periods iterations minSeconds).outcome = .ok run →
    descriptor.period ≤ descriptor.hyperPeriod

namespace Deployment

variable {deployment : Deployment} {dag : Dag} {index : Nat} {run : RunLength}
  {settled : List Settled}

theorem taskRuntimes_descriptorOf (complete : deployment.Complete dag index settled) :
    (deployment.descriptorOf dag index run settled).taskRuntimes
      = (deployment.solution.tasksOf index).map
          fun solved => Period.toMicros .towardZero solved.wcet := by
  rw [complete.records, List.map_map]
  simp only [descriptorOf, assemble, List.map_map]
  rfl

theorem taskDeadlines_descriptorOf (complete : deployment.Complete dag index settled) :
    (deployment.descriptorOf dag index run settled).taskDeadlines
      = ((deployment.solution.tasksOf index).map SolvedTask.deadline).map
          (Period.toMicros .towardZero) := by
  rw [complete.records, List.map_map, List.map_map]
  simp only [descriptorOf, assemble, List.map_map]
  rfl

/-- Deadlines of any tasks, each as often as it is listed. -/
theorem sum_deadlines_le {deadlines : List Int} {chosen : List Nat} {total : Int}
    (nonneg : ∀ task ∈ chosen, 0 ≤ deadlines.getD task 0)
    (fits : (chosen.map fun task => deadlines.getD task 0).sum ≤ total) :
    (chosen.map fun task => (deadlines.map (Period.toMicros .towardZero)).getD task 0).sum
      ≤ Period.toMicros .towardZero total := by
  have each : ∀ task, (deadlines.map (Period.toMicros .towardZero)).getD task 0
      = Period.toMicros .towardZero (deadlines.getD task 0) := by
    intro task
    simp only [List.getD_eq_getElem?_getD, List.getElem?_map]
    cases deadlines[task]? <;> rfl
  have apart := Period.sum_toMicros_le (List.forall_mem_map.mpr nonneg)
  rw [List.map_map] at apart
  simp only [each]
  exact Int.le_trans apart (Period.toMicros_mono fits)

/-- Every budget of a dag that is converted is kept: that of one task, of any set of tasks, of a
path, and of the dag within its period and the hyperperiod. -/
theorem describe_keeps_budgets (deployment : Deployment) (dag : Dag) (index : Nat)
    (run : RunLength) (descriptor : Descriptor)
    (described : (deployment.describe dag index run).outcome = .ok descriptor) :
    descriptor.KeepsBudgets dag run (deployment.solution.tasksOf index) := by
  obtain ⟨-, -, -, settled, complete, rfl⟩ := describe_eq_ok.mp described
  have count : (deployment.solution.tasksOf index).length = dag.tasks.length := by
    rw [complete.records, List.length_map, complete.count]
  refine ⟨?_, ?_, ?_, ?_, ?_, ?_⟩
  · rw [taskRuntimes_descriptorOf complete, taskDeadlines_descriptorOf complete]
    simp only [List.length_map, count, and_self]
  · intro position record found less
    rw [taskRuntimes_descriptorOf complete, taskDeadlines_descriptorOf complete]
    refine ⟨_, _, ?_, ?_, Period.toMicros_mono less⟩
    · simp only [List.getElem?_map, found, Option.map_some]
    · simp only [List.getElem?_map, found, Option.map_some]
  · intro chosen _ nonneg fits
    rw [taskDeadlines_descriptorOf complete, ← Finset.sum_map_toList]
    rw [← Finset.sum_map_toList] at fits
    exact sum_deadlines_le (fun task member => nonneg task (Finset.mem_toList.mp member)) fits
  · intro path _ _ nonneg fits
    rw [taskDeadlines_descriptorOf complete]
    exact sum_deadlines_le nonneg fits
  · exact Period.toMicros_mono
  · intro set iterations minSeconds member computed
    have within := RunLength.period_le computed (List.mem_map_of_mem (f := Dag.period) member)
    exact Period.toMicros_mono (Int.ofNat_le.mpr within)

/-- Times below zero, and two deadlines that leave nothing of that of the dag. -/
def tightSolution : Solution :=
  { sampleSolution with tasks := [⟨0, 0, -2999, -1001⟩, ⟨0, 1, 899, 1999⟩, ⟨0, 2, 1, 89998501⟩] }

theorem describe_keeps_budgets_tight : ∃ descriptor : Descriptor,
    (describe ⟨tightSolution, .odroid, .standard⟩ sampleDag 0 sampleRun).outcome = .ok descriptor ∧
    (∃ runtime deadline, descriptor.taskRuntimes[0]? = some runtime ∧
      descriptor.taskDeadlines[0]? = some deadline ∧ runtime ≤ deadline) ∧
    ∑ task ∈ {1, 2}, ((tightSolution.tasksOf 0).map SolvedTask.deadline).getD task 0
      = sampleDag.deadline ∧
    ∑ task ∈ {1, 2}, descriptor.taskDeadlines.getD task 0 ≤ descriptor.deadline ∧
    descriptor.deadline ≤ descriptor.period ∧ descriptor.period ≤ descriptor.hyperPeriod := by
  obtain ⟨descriptor, described⟩ : ∃ descriptor,
      (describe ⟨tightSolution, .odroid, .standard⟩ sampleDag 0 sampleRun).outcome
        = .ok descriptor := ⟨_, rfl⟩
  have kept := describe_keeps_budgets _ _ _ _ _ described
  have whole : ∑ task ∈ {1, 2}, ((tightSolution.tasksOf 0).map SolvedTask.deadline).getD task 0
      = sampleDag.deadline := by decide
  exact ⟨descriptor, described, kept.task 0 ⟨0, 0, -2999, -1001⟩ rfl (by decide), whole,
    kept.tasks {1, 2} (by decide) (by decide) whole.le, kept.deadline (by decide),
    kept.period ⟨[sampleDag]⟩ 10 0 (List.mem_singleton.mpr rfl) rfl⟩

end Deployment

end DagDeploy
