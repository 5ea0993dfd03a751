import DagDeploy.Proofs.CpuTable

/-! The conversion of a dag does not depend on the other dags of its set. Two solutions for the same
hardware that list and solve the tasks of one dag alike give it the same outcome and the same lines,
whatever they say of other dags. -/

namespace DagDeploy

/-- What an island is, without the tasks that its units list. -/
structure Hardware where
  capacity : Binary64
  frequency : Nat
  units : Nat

def Island.hardware (island : Island) : Hardware :=
  ⟨island.capacity, island.frequency, island.units.length⟩

/-- The order and the repetition of tasks in a unit are free, and so is all that is said of other
dags. -/
structure Solution.AgreeOn (dag : Nat) (first second : Solution) : Prop where
  platformName : first.platformName = second.platformName
  hardware : first.islands.map Island.hardware = second.islands.map Island.hardware
  listings : ∀ task islandIndex unitIndex,
    Lists first.islands ⟨dag, task⟩ islandIndex unitIndex ↔
      Lists second.islands ⟨dag, task⟩ islandIndex unitIndex
  tasks : first.tasksOf dag = second.tasksOf dag

section hardware

variable {board : Platform} {island other : Island}

theorem isAccelerator_of_hardware (same : island.hardware = other.hardware) :
    board.isAccelerator island = board.isAccelerator other :=
  Platform.isAccelerator_congr (congrArg Hardware.capacity same) (congrArg Hardware.units same)

theorem kindOf_of_hardware (same : island.hardware = other.hardware) :
    board.kindOf island = board.kindOf other :=
  Platform.kindOf_congr (congrArg Hardware.capacity same) (congrArg Hardware.units same)

theorem cpuOf_of_hardware {unitIndex : Nat} (same : island.hardware = other.hardware) :
    board.cpuOf island unitIndex = board.cpuOf other unitIndex :=
  Platform.cpuOf_congr (congrArg Hardware.capacity same) (congrArg Hardware.units same)

end hardware

namespace Placement

/-- The same unit of the other solution. -/
theorem IsFirst.transfer {dag task : Nat} {first second : Solution} {placement : Placement}
    (agree : first.AgreeOn dag second) (placed : placement.IsFirst first.islands ⟨dag, task⟩) :
    ∃ island, island.hardware = placement.island.hardware ∧
      IsFirst second.islands ⟨dag, task⟩ ⟨placement.islandIndex, island, placement.unitIndex⟩ := by
  have listed := (agree.listings task _ _).mp placed.listed
  obtain ⟨island, unit, inside, position, member⟩ := listed
  refine ⟨island, ?_, inside, ⟨island, unit, inside, position, member⟩, ?_⟩
  · have same := congrArg (·[placement.islandIndex]?) agree.hardware
    simpa [placed.inside, inside] using same.symm
  · intro islandIndex unitIndex alsoListed
    exact placed.least _ _ ((agree.listings task _ _).mpr alsoListed)

end Placement

namespace Deployment

variable {first second : Solution} {board : Platform} {catalogue : Catalogue} {dag : Dag}
  {index position : Nat}

/-- A solved task that settles in one solution does so in the other, with the same result. -/
theorem Settles.transfer {settled : Settled} (agree : first.AgreeOn index second)
    (settles : Settles ⟨first, board, catalogue⟩ dag index position settled) :
    ∃ other : Settled, other.solved = settled.solved ∧
      Settles ⟨second, board, catalogue⟩ dag index position other ∧
      linesOf ⟨second, board, catalogue⟩ index position other
        = linesOf ⟨first, board, catalogue⟩ index position settled ∧
      entryOf ⟨second, board, catalogue⟩ other = entryOf ⟨first, board, catalogue⟩ settled := by
  obtain ⟨island, same, placed⟩ := settles.placed.transfer agree
  let placement : Placement :=
    ⟨settled.placement.islandIndex, island, settled.placement.unitIndex⟩
  have kind : kindAt ⟨second, board, catalogue⟩ placement
      = kindAt ⟨first, board, catalogue⟩ settled.placement := kindOf_of_hardware same
  have cpu : cpuAt ⟨second, board, catalogue⟩ placement
      = cpuAt ⟨first, board, catalogue⟩ settled.placement := cpuOf_of_hardware same
  refine ⟨⟨settled.solved, settled.task, placement⟩, rfl,
    ⟨settles.ordered, settles.modelled, placed, ?_⟩, ?_, ?_⟩
  · rw [kind]
    exact settles.supported
  · rw [linesOf, linesOf, kind, cpu]
    rfl
  · change ResolvedTask.mk (kindAt _ placement) _ _ _ (cpuAt _ placement)
      (kernelId _ (kindAt _ placement) _) = _
    rw [kind, cpu]
    rfl

theorem Blocked.transfer {solved : SolvedTask} {failure : Failure}
    (agree : first.AgreeOn index second)
    (blocked : Blocked ⟨first, board, catalogue⟩ dag index position solved failure) :
    Blocked ⟨second, board, catalogue⟩ dag index position solved failure := by
  cases blocked with
  | misplaced different => exact .misplaced different
  | surplus ordered beyond =>
    simp only [agree.tasks]
    exact .surplus ordered beyond
  | unlisted ordered modelled absent =>
    refine .unlisted ordered modelled fun islandIndex unitIndex listed => ?_
    exact absent islandIndex unitIndex ((agree.listings position _ _).mpr listed)
  | @unsupported task placement ordered modelled placed refused =>
    obtain ⟨island, same, alsoPlaced⟩ := placed.transfer agree
    have kind : kindAt ⟨first, board, catalogue⟩ placement = kindAt ⟨second, board, catalogue⟩
        ⟨placement.islandIndex, island, placement.unitIndex⟩ := (kindOf_of_hardware same).symm
    rw [kind] at refused ⊢
    exact .unsupported ordered modelled alsoPlaced refused

theorem resolve_of_agree (agree : first.AgreeOn index second) (solved : SolvedTask) :
    resolve ⟨first, board, catalogue⟩ dag index position solved
      = resolve ⟨second, board, catalogue⟩ dag index position solved := by
  rcases settles_or_blocked ⟨first, board, catalogue⟩ dag index position solved with
    ⟨settled, rfl, settles⟩ | ⟨failure, blocked⟩
  · obtain ⟨other, record, alsoSettles, lines, entry⟩ := settles.transfer agree
    rw [resolve_of_settles settles, ← record, resolve_of_settles alsoSettles, lines, entry]
  · rw [resolve_of_blocked blocked, resolve_of_blocked (blocked.transfer agree)]

theorem resolveFrom_of_agree (agree : first.AgreeOn index second) (tasks : List SolvedTask) :
    resolveFrom ⟨first, board, catalogue⟩ dag index position tasks
      = resolveFrom ⟨second, board, catalogue⟩ dag index position tasks := by
  induction tasks generalizing position with
  | nil => rfl
  | cons solved rest ih => simp only [resolveFrom, resolve_of_agree agree, ih]

/-- The CPUs only depend on the hardware. -/
theorem generalCpus_of_hardware {islands others : List Island}
    (alike : islands.map Island.hardware = others.map Island.hardware) :
    board.generalCpus islands = board.generalCpus others := by
  induction islands generalizing others with
  | nil =>
    rw [List.map_nil, eq_comm, List.map_eq_nil_iff] at alike
    rw [alike]
  | cons island rest ih =>
    cases others with
    | nil => cases alike
    | cons other remaining =>
      rw [List.map_cons, List.map_cons, List.cons.injEq] at alike
      obtain ⟨head, tail⟩ := alike
      have same := ih tail
      have units : island.units.length = other.units.length := congrArg Hardware.units head
      have frequency : island.frequency = other.frequency := congrArg Hardware.frequency head
      have cpus : ∀ unitIndex, board.cpuOf island unitIndex = board.cpuOf other unitIndex :=
        fun _ => cpuOf_of_hardware head
      simp only [Platform.generalCpus, Platform.generalIslands, List.filter_cons,
        isAccelerator_of_hardware head] at same ⊢
      split
      · simp only [List.flatMap_cons, units, frequency, cpus, same]
      · exact same

theorem describe_of_agree (agree : first.AgreeOn index second) (run : RunLength) :
    describe ⟨first, board, catalogue⟩ dag index run
      = describe ⟨second, board, catalogue⟩ dag index run := by
  have table : cpuTable ⟨first, board, catalogue⟩ = cpuTable ⟨second, board, catalogue⟩ := by
    rw [cpuTable_eq, cpuTable_eq, generalCpus_of_hardware agree.hardware]
  have frequencies : cpuFrequencies ⟨first, board, catalogue⟩
      = cpuFrequencies ⟨second, board, catalogue⟩ := by
    simp only [cpuFrequencies, table]
  simp only [describe, agree.tasks, resolveFrom_of_agree agree, frequencies]
  rfl

/-- Whatever two solutions say of other dags, they describe this one alike. -/
theorem describe_ignores_others (first second : Solution) (catalogue : Catalogue) (dag : Dag)
    (index : Nat) (run : RunLength) (agree : first.AgreeOn index second) :
    (do
      let deployment ← Logged.ofExcept (Deployment.of first catalogue)
      deployment.describe dag index run) = (do
      let deployment ← Logged.ofExcept (Deployment.of second catalogue)
      deployment.describe dag index run) := by
  simp only [Deployment.of, agree.platformName]
  cases Platform.ofName second.platformName with
  | error failure => rfl
  | ok board => exact describe_of_agree agree run

/-- The sample with its tasks repeated and reordered in their units, among tasks of other dags. -/
def sampleOther : Solution where
  platformName := "odroid-xu4"
  islands := [
    ⟨.ofRank false 0x3fe0000000000000, 1400, [[.of 0 0], [.of 7 0], [], []]⟩,
    ⟨.one, 2000, [[.of 2 2], [.of 1 0, .of 0 2, .of 0 2]]⟩,
    ⟨.ofRank false 0x4000000000000000, 300, [[.of 0 1, .of 1 2]]⟩]
  tasks := [⟨3, 1, 0, 0⟩, ⟨0, 0, 2000999, 50000000⟩, ⟨0, 1, 899473, 30000000⟩, ⟨1, 9, 7, 8⟩,
    ⟨0, 2, -1999, 9⟩, ⟨2, 2, 5, 5⟩]

theorem describe_ignores_others_sample : sampleSolution.AgreeOn 0 sampleOther ∧
    (do
      let deployment ← Logged.ofExcept (Deployment.of sampleSolution .standard)
      deployment.describe sampleDag 0 sampleRun) = (do
      let deployment ← Logged.ofExcept (Deployment.of sampleOther .standard)
      deployment.describe sampleDag 0 sampleRun) := by
  have agree : sampleSolution.AgreeOn 0 sampleOther := by
    refine ⟨rfl, rfl, ?_, rfl⟩
    intro task islandIndex unitIndex
    rcases islandIndex with _ | _ | _ | islandIndex
    all_goals rcases unitIndex with _ | _ | _ | _ | unitIndex
    all_goals simp [Lists, sampleSolution, sampleOther]
  exact ⟨agree, describe_ignores_others _ _ _ sampleDag 0 sampleRun agree⟩

end Deployment

end DagDeploy
