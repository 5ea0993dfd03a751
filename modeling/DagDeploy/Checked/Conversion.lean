import DagDeploy.Checked
import DagDeploy.Program

/-! The conversion in checked operations. Numbers of ns are words, positions in a graph have 32
bits, the matrix is marked cell by cell, and the lists of a descriptor grow side by side while one
of them, that of the nominal times, is there from the start and is mended in place. -/

namespace DagDeploy.Checked

def toMicros (rounding : Period.Rounding) (ns : Int) : Checked Int := do
  let micros ← divideSigned ns Period.nsPerMicro
  match rounding with
  | .towardZero => return micros
  | .up =>
    let rest ← remainderSigned ns Period.nsPerMicro
    if 0 < rest then signed (micros + 1) else return micros

/-- Extends the hyperperiod `current` of the first `dag` periods by the remaining ones. -/
def extend (dag current : Nat) : List Nat → Checked Nat
  | [] => return current
  | period :: rest =>
    if period = 0 then fail (.zeroPeriod dag)
    else do
      let reduced ← divide current (current.gcd period)
      match (product? reduced period).filter (· ≤ Period.longest) with
      | some next => extend (dag + 1) next rest
      | none => fail (.hyperPeriodOverflow dag)

def hyperPeriod (periods : List Nat) : Checked Nat := extend 0 1 periods

def repetitions (iterations minSeconds hyperPeriod : Nat) : Checked Nat :=
  if minSeconds = 0 ∨ hyperPeriod = 0 then return iterations
  else
    match product? minSeconds Period.nsPerSecond with
    | none => fail (.minSecondsOverflow minSeconds)
    | some span => do
      let runs ← divideUp span hyperPeriod
      return max iterations runs

def runLength (periods : List Nat) (iterations minSeconds : Nat) : Checked RunLength := do
  let hyperPeriod ← hyperPeriod periods
  let repetitions ← repetitions iterations minSeconds hyperPeriod
  ofLogged (Logged.sayIf (repetitions != iterations) (.extendedRun repetitions minSeconds))
  return ⟨hyperPeriod, repetitions⟩

/-- The number of positions in a graph, the last of which stands for no position. -/
def positions : Nat := 0x100000000

def addNode (graph : Graph) (node : Graph.Node) : Checked Graph :=
  if graph.nodes.length + 1 < positions then return graph.addNode node else throw .fullGraph

/-- Ends are cut down to positions. -/
def addLink (graph : Graph) (link : Graph.Link) : Checked Graph :=
  let source := link.source % positions
  let target := link.target % positions
  if graph.links.length + 1 < positions then
    if source < graph.size ∧ target < graph.size then
      return { graph with links := graph.links ++ [⟨source, target, link.weight⟩] }
    else throw .missingNode
  else throw .fullGraph

def toGraph (dag : Dag) (index : Nat) : Checked Graph :=
  let tasks := dag.tasks.length
  match dag.edges.find? fun edge => !edge.inside tasks with
  | some edge => fail (.inconsistent (.invalidEdge index edge.source edge.target tasks))
  | none => do
    let bare ← dag.taskNodes.foldlM addNode Graph.empty
    let graph ← (dag.edges.map Edge.toLink).foldlM addLink bare
    ofLogged (Logged.sayIf graph.isCyclic (.cycle index))
    return graph

/-- Puts a one into the cell that the ids of the two nodes tell. -/
def markLink (graph : Graph) (rows : List (List Int)) (link : Graph.Link) :
    Checked (List (List Int)) := do
  let source ← read graph.nodes link.source
  let target ← read graph.nodes link.target
  let row ← read rows source.id
  let marked ← write row target.id 1
  write rows source.id marked

def adjacency (graph : Graph) : Checked (List (List Int)) :=
  graph.links.foldlM (markLink graph)
    (List.replicate graph.size (List.replicate graph.size 0))

def cpuOf (board : Platform) (island : Island) (unitIndex : Nat) : Checked Nat :=
  if board.isAccelerator island then return unitIndex
  else
    match board with
    | .odroid =>
      if island.capacity.atLeast .one then word (Platform.littleCores + unitIndex)
      else return unitIndex
    | .zcu102 | .xavierAgx => return unitIndex

/-- The lists that hold one entry per task, as far as tasks are resolved. The nominal times have an
entry for each task already. -/
structure Draft where
  wcets : List Int
  kinds : List TaskKind
  runtimes : List Int
  deadlines : List Int
  cpus : List Nat
  kernels : List Int

/-- A nominal time below one microsecond gives way to the solved runtime. -/
def mend (wcets : List Int) (position : Nat) (runtime : Int) : Checked (List Int) := do
  let nominal ← read wcets position
  if nominal < 1 then write wcets position runtime else return wcets

variable (deployment : Deployment)

/-- Resolves the next solved task of dag `index`. -/
def resolve (dag : Dag) (index : Nat) (draft : Draft) (solved : SolvedTask) : Checked Draft :=
  let position := draft.runtimes.length
  if solved.task ≠ position then
    fail (.inconsistent (.taskOutOfOrder index position solved.task))
  else if dag.tasks.length ≤ solved.task then
    let found := (deployment.solution.tasksOf index).length
    fail (.inconsistent (.taskCountMismatch index dag.tasks.length found))
  else do
    let runtime ← toMicros .towardZero solved.wcet
    let deadline ← toMicros .towardZero solved.deadline
    let wcets ← mend draft.wcets solved.task runtime
    let placement ← ofLogged (Logged.ofExcept
      (Placement.find deployment.solution.islands index solved.task))
    let island ← read deployment.solution.islands placement.islandIndex
    let cpu ← cpuOf deployment.platform island placement.unitIndex
    let kind := deployment.platform.kindOf island
    let kernel ← ofLogged (deployment.kernelFor kind solved.wcet)
    ofLogged (Logged.say
      (.placed index solved.task placement.islandIndex placement.unitIndex cpu kind))
    return {
      wcets
      kinds := draft.kinds ++ [kind]
      runtimes := draft.runtimes ++ [runtime]
      deadlines := draft.deadlines ++ [deadline]
      cpus := draft.cpus ++ [cpu]
      kernels := draft.kernels ++ [kernel] }

def cpuTable : Checked (List (Nat × Nat)) := do
  let general := deployment.solution.islands.filter fun island =>
    !deployment.platform.isAccelerator island
  let cpus ← general.mapM fun island =>
    (List.range island.units.length).mapM fun unitIndex => do
      let cpu ← cpuOf deployment.platform island unitIndex
      return (cpu, island.frequency)
  return cpus.flatten.mergeSort fun earlier later => earlier.1 ≤ later.1

def cpuFrequencies : Checked (List Nat) := do
  let table ← cpuTable deployment
  let cpus := table.map Prod.fst
  ofLogged (Logged.sayIf (cpus != List.range cpus.length) (.gappedCpus cpus))
  return table.map Prod.snd

def describe (dag : Dag) (index : Nat) (run : RunLength) : Checked Descriptor := do
  let graph ← toGraph dag index
  let tasks := dag.tasks.length
  let references ← dag.tasks.mapM fun task => toMicros .towardZero task.wcetRef
  let draft ← (deployment.solution.tasksOf index).foldlM (resolve deployment dag index)
    ⟨references, [], [], [], [], []⟩
  if draft.runtimes.length ≠ tasks then
    fail (.inconsistent (.taskCountMismatch index tasks draft.runtimes.length))
  else
    let frequencies ← cpuFrequencies deployment
    let hyperPeriod ← ofLogged (Deployment.bounded index run.hyperPeriod)
    let period ← ofLogged (Deployment.bounded index dag.period)
    let hyperPeriod ← toMicros .towardZero hyperPeriod
    let period ← toMicros .towardZero period
    let deadline ← toMicros .towardZero dag.deadline
    let adjacency ← adjacency graph
    return {
      name := Descriptor.nameOf index
      taskCount := tasks
      edgeCount := dag.edges.length
      cpuCount := frequencies.length
      maxOutEdges := graph.maxOutDegree
      maxInEdges := graph.maxInDegree
      maxMessageLength := Deployment.messageLength
      repetitions := run.repetitions
      hyperPeriod, period, deadline
      taskNames := (List.range tasks).map Descriptor.taskName
      taskKinds := draft.kinds
      taskWcets := draft.wcets
      taskRuntimes := draft.runtimes
      taskDeadlines := draft.deadlines
      taskCpus := draft.cpus
      taskKernels := draft.kernels
      cpuFrequencies := frequencies
      expectedWcetRatio := deployment.catalogue.expectedWcetRatio
      adjacency }

def describeFrom (run : RunLength) (index : Nat) : List Dag → Checked (List Descriptor)
  | [] => return []
  | dag :: rest => do
    let first ← describe deployment dag index run
    let others ← describeFrom run (index + 1) rest
    return first :: others

def describeAll (set : DagSet) (solution : Solution) (catalogue : Catalogue) (run : RunLength) :
    Checked (List Descriptor) := do
  let deployment ← ofLogged (Logged.ofExcept (Deployment.of solution catalogue))
  describeFrom deployment run 0 set.dags

def convert (set : DagSet) (solution : Solution) (catalogue : Catalogue)
    (iterations minSeconds : Nat) : Checked (List Descriptor) := do
  let run ← runLength set.periods iterations minSeconds
  describeAll set solution catalogue run

end DagDeploy.Checked
