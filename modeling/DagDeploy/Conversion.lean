import DagDeploy.Catalogue
import DagDeploy.Descriptor
import DagDeploy.Model
import DagDeploy.Period
import DagDeploy.Platform

/-! The conversion of one dag into its descriptor. The solved tasks of the dag must come in the
order of their ids and place each of its tasks once; each is then resolved on its own. -/

namespace DagDeploy

/-- A run of the whole set: its hyperperiod in ns, and how often each dag is executed. -/
structure RunLength where
  hyperPeriod : Nat
  repetitions : Nat
  deriving DecidableEq, Repr

def RunLength.of (periods : List Nat) (iterations minSeconds : Nat) : Logged RunLength := do
  let hyperPeriod ← Logged.ofExcept (Period.hyperPeriod periods)
  let repetitions ← Logged.ofExcept (Period.repetitions iterations minSeconds hyperPeriod)
  Logged.sayIf (repetitions != iterations) (.extendedRun repetitions minSeconds)
  return ⟨hyperPeriod, repetitions⟩

/-- What the descriptor says of one task; times are in microseconds. -/
structure ResolvedTask where
  kind : TaskKind
  wcet : Int
  runtime : Int
  deadline : Int
  cpu : Nat
  kernel : Int
  deriving DecidableEq, Repr

/-- A solution on a known platform, with the catalogue in force. -/
structure Deployment where
  solution : Solution
  platform : Platform
  catalogue : Catalogue

namespace Deployment

def of (solution : Solution) (catalogue : Catalogue) : Except Failure Deployment := do
  let platform ← Platform.ofName solution.platformName
  return ⟨solution, platform, catalogue⟩

variable (deployment : Deployment)

/-- Where a task runs decides its kind, which must be supported; an accelerated task is given the
kernel that its solved execution time tells. -/
def kernelFor (kind : TaskKind) (wcet : Int) : Logged Int := do
  Logged.ofExcept (deployment.catalogue.ensureSupported kind)
  match kind with
  | .fred => deployment.catalogue.kernelOf wcet
  | _ => return deployment.catalogue.notAccelerated

/-- The reference time counts from one microsecond up; below, the solved runtime stands in. -/
def nominalWcet (task : Task) (runtime : Int) : Int :=
  let reference := Period.toMicros .towardZero task.wcetRef
  if reference < 1 then runtime else reference

/-- The entry of a task that is settled by its solved times, its unit and its kernel. -/
def entry (task : Task) (solved : SolvedTask) (placement : Placement) (kernel : Int) :
    ResolvedTask :=
  let runtime := Period.toMicros .towardZero solved.wcet
  { kind := deployment.platform.kindOf placement.island
    wcet := nominalWcet task runtime
    runtime
    deadline := Period.toMicros .towardZero solved.deadline
    cpu := deployment.platform.cpuOf placement.island placement.unitIndex
    kernel }

/-- Resolves the solved task at `position` among those of dag `index`. -/
def resolve (dag : Dag) (index position : Nat) (solved : SolvedTask) : Logged ResolvedTask := do
  if solved.task ≠ position then
    Logged.fail (.inconsistent (.taskOutOfOrder index position solved.task))
  else
    match dag.tasks[position]? with
    | none =>
      let found := (deployment.solution.tasksOf index).length
      Logged.fail (.inconsistent (.taskCountMismatch index dag.tasks.length found))
    | some task =>
      let placement ← Logged.ofExcept
        (Placement.find deployment.solution.islands index position)
      let kind := deployment.platform.kindOf placement.island
      let kernel ← deployment.kernelFor kind solved.wcet
      let resolved := deployment.entry task solved placement kernel
      Logged.say
        (.placed index position placement.islandIndex placement.unitIndex resolved.cpu kind)
      return resolved

def resolveFrom (dag : Dag) (index position : Nat) : List SolvedTask → Logged (List ResolvedTask)
  | [] => return []
  | solved :: rest => do
    let first ← deployment.resolve dag index position solved
    let others ← resolveFrom dag index (position + 1) rest
    return first :: others

/-- The CPUs with their frequencies, in ascending order; equal CPUs stay in the order of their
islands. -/
def cpuTable : List (Nat × Nat) :=
  let general := deployment.solution.islands.filter fun island =>
    !deployment.platform.isAccelerator island
  let cpus := general.flatMap fun island =>
    (List.range island.units.length).map fun unitIndex =>
      (deployment.platform.cpuOf island unitIndex, island.frequency)
  cpus.mergeSort fun earlier later => earlier.1 ≤ later.1

/-- Frequencies are looked up by position, so the CPUs should be 0, 1, 2 and so on. -/
def cpuFrequencies : Logged (List Nat) := do
  let table := deployment.cpuTable
  let cpus := table.map Prod.fst
  Logged.sayIf (cpus != List.range cpus.length) (.gappedCpus cpus)
  return table.map Prod.snd

/-- A number of ns that the descriptor can express. -/
def bounded (index ns : Nat) : Logged Int :=
  if ns ≤ Period.longest then return ns else Logged.fail (.hyperPeriodOverflow index)

/-- Labels of edges are not passed on, so each message has the size 0 and one byte more. -/
def messageLength : Nat := 1

/-- The descriptor of a dag from its resolved tasks. The given durations are in ns. -/
def assemble (dag : Dag) (index : Nat) (run : RunLength) (graph : Graph)
    (resolved : List ResolvedTask) (frequencies : List Nat) (hyperPeriod period : Int)
    (adjacency : List (List Int)) : Descriptor where
  name := Descriptor.nameOf index
  taskCount := dag.tasks.length
  edgeCount := dag.edges.length
  cpuCount := frequencies.length
  maxOutEdges := graph.maxOutDegree
  maxInEdges := graph.maxInDegree
  maxMessageLength := messageLength
  repetitions := run.repetitions
  hyperPeriod := Period.toMicros .towardZero hyperPeriod
  period := Period.toMicros .towardZero period
  deadline := Period.toMicros .towardZero dag.deadline
  taskNames := (List.range dag.tasks.length).map Descriptor.taskName
  taskKinds := resolved.map ResolvedTask.kind
  taskWcets := resolved.map ResolvedTask.wcet
  taskRuntimes := resolved.map ResolvedTask.runtime
  taskDeadlines := resolved.map ResolvedTask.deadline
  taskCpus := resolved.map ResolvedTask.cpu
  taskKernels := resolved.map ResolvedTask.kernel
  cpuFrequencies := frequencies
  expectedWcetRatio := deployment.catalogue.expectedWcetRatio
  adjacency := adjacency

def describe (dag : Dag) (index : Nat) (run : RunLength) : Logged Descriptor := do
  let graph ← dag.toGraph index
  let tasks := dag.tasks.length
  let resolved ← deployment.resolveFrom dag index 0 (deployment.solution.tasksOf index)
  if resolved.length ≠ tasks then
    Logged.fail (.inconsistent (.taskCountMismatch index tasks resolved.length))
  else
    let frequencies ← deployment.cpuFrequencies
    let hyperPeriod ← bounded index run.hyperPeriod
    let period ← bounded index dag.period
    let adjacency ← Logged.ofExcept (graph.adjacency.mapError .fault)
    return deployment.assemble dag index run graph resolved frequencies hyperPeriod period adjacency

/-- In dag order, up to the first failure; dags are numbered from `index`. -/
def describeFrom (run : RunLength) (index : Nat) : List Dag → Logged (List Descriptor)
  | [] => return []
  | dag :: rest => do
    let first ← deployment.describe dag index run
    let others ← describeFrom run (index + 1) rest
    return first :: others

end Deployment

/-- The platform must be known even when there is nothing to convert. -/
def describeAll (set : DagSet) (solution : Solution) (catalogue : Catalogue) (run : RunLength) :
    Logged (List Descriptor) := do
  let deployment ← Logged.ofExcept (Deployment.of solution catalogue)
  deployment.describeFrom run 0 set.dags

end DagDeploy
