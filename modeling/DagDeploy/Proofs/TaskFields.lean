import DagDeploy.Proofs.BoardRules
import DagDeploy.Proofs.Description

/-! The lists of a descriptor that hold one entry per task line up: at each position they speak of
the same task, of its solved record at that position, and of the first unit that lists it. -/

namespace DagDeploy

namespace Descriptor

/-- Each list of tasks has one entry for each of `tasks` tasks. -/
structure Lengths (descriptor : Descriptor) (tasks : Nat) : Prop where
  names : descriptor.taskNames.length = tasks
  kinds : descriptor.taskKinds.length = tasks
  wcets : descriptor.taskWcets.length = tasks
  runtimes : descriptor.taskRuntimes.length = tasks
  deadlines : descriptor.taskDeadlines.length = tasks
  cpus : descriptor.taskCpus.length = tasks
  kernels : descriptor.taskKernels.length = tasks

/-- What is said of the task at `position`, from its solved times, its reference time and its
placement on the board. -/
structure Reports (descriptor : Descriptor) (board : Platform) (catalogue : Catalogue)
    (position : Nat) (entry : Settled) : Prop where
  runtime : descriptor.taskRuntimes[position]? = some (entry.solved.wcet.tdiv 1000)
  deadline : descriptor.taskDeadlines[position]? = some (entry.solved.deadline.tdiv 1000)
  nominal : 1 ≤ entry.task.wcetRef.tdiv 1000 →
    descriptor.taskWcets[position]? = some (entry.task.wcetRef.tdiv 1000)
  fallback : entry.task.wcetRef.tdiv 1000 < 1 →
    descriptor.taskWcets[position]? = some (entry.solved.wcet.tdiv 1000)
  accelerated : board.Accelerates entry.placement.island →
    descriptor.taskKinds[position]? = some .fred ∧
      descriptor.taskKernels[position]?
        = some ((catalogue.kernelIds.find? entry.solved.wcet).getD catalogue.defaultKernel)
  general : ¬ board.Accelerates entry.placement.island →
    descriptor.taskKinds[position]? = some .cpu ∧
      descriptor.taskKernels[position]? = some catalogue.notAccelerated
  big : board = .odroid ∧ Platform.AtReference entry.placement.island →
    descriptor.taskCpus[position]? = some (4 + entry.placement.unitIndex)
  other : ¬ (board = .odroid ∧ Platform.AtReference entry.placement.island) →
    descriptor.taskCpus[position]? = some entry.placement.unitIndex

end Descriptor

namespace Deployment

variable {deployment : Deployment} {dag : Dag} {index : Nat} {run : RunLength}
  {settled : List Settled} {position : Nat} {entry : Settled}

theorem lengths_descriptorOf (complete : deployment.Complete dag index settled) :
    (deployment.descriptorOf dag index run settled).Lengths dag.tasks.length := by
  constructor
  all_goals simp [descriptorOf, assemble, complete.count]

theorem reports_descriptorOf (found : settled[position]? = some entry) :
    (deployment.descriptorOf dag index run settled).Reports deployment.platform
      deployment.catalogue position entry := by
  have listed : ∀ {α : Type} (field : ResolvedTask → α),
      ((settled.map deployment.entryOf).map field)[position]?
        = some (field (deployment.entryOf entry)) := by
    intro α field
    simp [found]
  refine ⟨listed _, listed _, ?_, ?_, ?_, ?_, ?_, ?_⟩
  · intro long
    refine (listed _).trans (congrArg some ?_)
    exact if_neg (Int.not_lt.mpr long)
  · intro short
    refine (listed _).trans (congrArg some ?_)
    exact if_pos short
  · intro accelerates
    have kind := Platform.kindOf_eq_fred.mpr accelerates
    refine ⟨(listed _).trans (congrArg some kind), (listed _).trans (congrArg some ?_)⟩
    simp only [entryOf, Deployment.entry, kindAt, kind, kernelId]
  · intro general
    have kind := Platform.kindOf_eq_cpu.mpr general
    refine ⟨(listed _).trans (congrArg some kind), (listed _).trans (congrArg some ?_)⟩
    simp only [entryOf, Deployment.entry, kindAt, kind, kernelId]
  · intro big
    obtain ⟨odroid, reference⟩ := big
    refine (listed _).trans (congrArg some ?_)
    simp only [entryOf, Deployment.entry, odroid, Platform.cpuOf_eq_add reference]
  · intro other
    refine (listed _).trans (congrArg some ?_)
    exact Platform.cpuOf_eq_self (not_and_or.mp other)

/-- Every entry of a descriptor is that of its reference definition. -/
theorem describe_fields (deployment : Deployment) (dag : Dag) (index : Nat) (run : RunLength)
    (descriptor : Descriptor)
    (described : (deployment.describe dag index run).outcome = .ok descriptor) :
    descriptor.Lengths dag.tasks.length ∧
      ∀ position < dag.tasks.length, ∃ entry : Settled,
        (deployment.solution.tasksOf index)[position]? = some entry.solved ∧
        entry.solved.task = position ∧
        dag.tasks[position]? = some entry.task ∧
        entry.placement.IsFirst deployment.solution.islands ⟨index, position⟩ ∧
        descriptor.Reports deployment.platform deployment.catalogue position entry := by
  obtain ⟨-, -, -, settled, complete, rfl⟩ := describe_eq_ok.mp described
  refine ⟨lengths_descriptorOf complete, fun position inside => ?_⟩
  obtain ⟨entry, found, settles⟩ := complete.task_at inside
  have record : (deployment.solution.tasksOf index)[position]? = some entry.solved := by
    simp [complete.records, found]
  exact ⟨entry, record, settles.ordered, settles.modelled, settles.placed,
    reports_descriptorOf found⟩

theorem describe_fields_sample : ∃ descriptor,
    (sample.describe sampleDag 0 sampleRun).outcome = .ok descriptor ∧ descriptor.Lengths 3 ∧
      ∀ position < 3, ∃ entry : Settled,
        (sampleSolution.tasksOf 0)[position]? = some entry.solved ∧
        entry.solved.task = position ∧ sampleDag.tasks[position]? = some entry.task ∧
        entry.placement.IsFirst sampleSolution.islands ⟨0, position⟩ ∧
        descriptor.Reports .odroid .standard position entry := by
  obtain ⟨descriptor, described⟩ :
      ∃ descriptor, (sample.describe sampleDag 0 sampleRun).outcome = .ok descriptor := ⟨_, rfl⟩
  exact ⟨descriptor, described, describe_fields sample sampleDag 0 sampleRun descriptor described⟩

end Deployment

end DagDeploy
