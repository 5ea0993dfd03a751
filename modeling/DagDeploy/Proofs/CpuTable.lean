import DagDeploy.Proofs.BoardRules
import DagDeploy.Proofs.Description
import Mathlib.Data.List.Nodup

/-! The CPU numbers of tasks are positions in the table of frequencies. Both number the units of the
islands that do not accelerate, and as long as no gap is told, no number is given twice. -/

namespace DagDeploy

namespace Platform

def generalIslands (board : Platform) (islands : List Island) : List Island :=
  islands.filter fun island => !board.isAccelerator island

/-- The CPUs in the order of their islands, with their frequencies. -/
def generalCpus (board : Platform) (islands : List Island) : List (Nat × Nat) :=
  (board.generalIslands islands).flatMap fun island =>
    (List.range island.units.length).map fun unitIndex =>
      (board.cpuOf island unitIndex, island.frequency)

/-- The CPUs of an island, in the order of its units. -/
def cpusOf (board : Platform) (island : Island) : List Nat :=
  (List.range island.units.length).map (board.cpuOf island)

theorem mem_generalIslands {board : Platform} {islands : List Island} {island : Island} :
    island ∈ board.generalIslands islands ↔ island ∈ islands ∧ ¬ board.Accelerates island := by
  simp only [generalIslands, List.mem_filter, Bool.not_eq_true', ← Bool.not_eq_true,
    isAccelerator_iff]

end Platform

namespace Deployment

/-- A unit of an island that does not accelerate. -/
structure General (deployment : Deployment) (placement : Placement) : Prop where
  inside : deployment.solution.islands[placement.islandIndex]? = some placement.island
  unit : placement.unitIndex < placement.island.units.length
  general : ¬ deployment.platform.Accelerates placement.island

variable {deployment : Deployment} {placement other : Placement}

theorem cpuTable_eq : deployment.cpuTable
    = (deployment.platform.generalCpus deployment.solution.islands).mergeSort
        fun earlier later => earlier.1 ≤ later.1 := rfl

theorem cpuTable_perm : deployment.cpuTable.Perm
    (deployment.platform.generalCpus deployment.solution.islands) := by
  rw [cpuTable_eq]
  exact List.mergeSort_perm _ _

theorem mem_cpuTable (general : deployment.General placement) :
    (deployment.cpuAt placement, placement.island.frequency) ∈ deployment.cpuTable := by
  apply cpuTable_perm.mem_iff.mpr
  apply List.mem_flatMap.mpr
  refine ⟨placement.island, ?_, ?_⟩
  · exact Platform.mem_generalIslands.mpr ⟨List.mem_of_getElem? general.inside, general.general⟩
  · exact List.mem_map.mpr ⟨placement.unitIndex, List.mem_range.mpr general.unit, rfl⟩

/-- When the table has no gap, each CPU stands at the position of its number. -/
theorem frequency_at (contiguous : deployment.tableCpus = List.range deployment.tableCpus.length)
    {cpu frequency : Nat} (member : (cpu, frequency) ∈ deployment.cpuTable) :
    (deployment.cpuTable.map Prod.snd)[cpu]? = some frequency := by
  obtain ⟨position, found⟩ := List.mem_iff_getElem?.mp member
  have numbered : deployment.tableCpus[position]? = some cpu := by
    simp [tableCpus, found]
  rw [contiguous] at numbered
  obtain ⟨inside, same⟩ := List.getElem?_eq_some_iff.mp numbered
  obtain rfl : position = cpu := by simpa using same
  simp [found]

/-- The CPUs of the islands that do not accelerate, in their order. -/
theorem tableCpus_perm : deployment.tableCpus.Perm
    ((deployment.platform.generalIslands deployment.solution.islands).flatMap
      deployment.platform.cpusOf) := by
  have numbers : (deployment.platform.generalCpus deployment.solution.islands).map Prod.fst
      = (deployment.platform.generalIslands deployment.solution.islands).flatMap
        deployment.platform.cpusOf := by
    simp only [Platform.generalCpus, List.map_flatMap, List.map_map, Function.comp_def]
    rfl
  exact numbers ▸ cpuTable_perm.map Prod.fst

/-- No CPU is given twice exactly when different islands that do not accelerate have none in
common. -/
theorem nodup_tableCpus : deployment.tableCpus.Nodup ↔
    deployment.solution.islands.Pairwise fun first second =>
      ¬ deployment.platform.Accelerates first → ¬ deployment.platform.Accelerates second →
      ∀ cpu ∈ deployment.platform.cpusOf first, cpu ∉ deployment.platform.cpusOf second := by
  have within : ∀ island, (deployment.platform.cpusOf island).Nodup := fun island =>
    List.nodup_range.map (Platform.cpuOf_injective _ island)
  rw [tableCpus_perm.nodup_iff, List.nodup_flatMap]
  simp only [within, implies_true, true_and, Platform.generalIslands, List.pairwise_filter,
    Bool.not_eq_true', ← Bool.not_eq_true, Platform.isAccelerator_iff, Function.onFun,
    List.disjoint_left]

theorem General.same_island (general : deployment.General placement)
    (otherGeneral : deployment.General other) (same : placement.islandIndex = other.islandIndex) :
    placement.island = other.island := by
  apply Option.some.inj
  rw [← general.inside, ← otherGeneral.inside, same]

theorem General.cpuAt_mem (general : deployment.General placement) :
    deployment.cpuAt placement ∈ deployment.platform.cpusOf placement.island :=
  List.mem_map_of_mem (List.mem_range.mpr general.unit)

theorem General.cpuAt_ne (distinct : deployment.tableCpus.Nodup)
    (general : deployment.General placement) (otherGeneral : deployment.General other)
    (before : placement.islandIndex < other.islandIndex) :
    deployment.cpuAt placement ≠ deployment.cpuAt other := by
  obtain ⟨inside, isIsland⟩ := List.getElem?_eq_some_iff.mp general.inside
  obtain ⟨otherInside, isOther⟩ := List.getElem?_eq_some_iff.mp otherGeneral.inside
  have different := List.pairwise_iff_getElem.mp (nodup_tableCpus.mp distinct) _ _ inside
    otherInside before
  rw [isIsland, isOther] at different
  intro same
  apply different general.general otherGeneral.general _ general.cpuAt_mem
  rw [same]
  exact otherGeneral.cpuAt_mem

theorem cpuAt_eq_iff (distinct : deployment.tableCpus.Nodup)
    (general : deployment.General placement) (otherGeneral : deployment.General other) :
    deployment.cpuAt placement = deployment.cpuAt other ↔
      placement.islandIndex = other.islandIndex ∧ placement.unitIndex = other.unitIndex := by
  constructor
  · intro same
    rcases Nat.lt_trichotomy placement.islandIndex other.islandIndex with before | equal | after
    · exact absurd same (general.cpuAt_ne distinct otherGeneral before)
    · rw [cpuAt, cpuAt, general.same_island otherGeneral equal] at same
      exact ⟨equal, Platform.cpuOf_injective _ _ same⟩
    · exact absurd same.symm (otherGeneral.cpuAt_ne distinct general after)
  · intro ⟨sameIndex, sameUnit⟩
    rw [cpuAt, cpuAt, general.same_island otherGeneral sameIndex, sameUnit]

variable {dag : Dag} {index : Nat} {run : RunLength} {settled : List Settled} {position : Nat}

theorem gappedCpus_not_mem_linesFrom (cpus : List Nat) :
    .gappedCpus cpus ∉ deployment.linesFrom index position settled := by
  induction settled generalizing position with
  | nil => simp [linesFrom]
  | cons first rest ih =>
    have kernel : ∀ kind wcet, .gappedCpus cpus ∉ deployment.kernelLines kind wcet := by
      intro kind wcet
      unfold kernelLines
      split <;> simp
    simp only [linesFrom, linesOf, List.mem_append, not_or]
    exact ⟨⟨kernel _ _, by simp⟩, ih⟩

/-- No gap is told exactly when the sorted CPUs are 0, 1, 2 and so on. -/
theorem quiet_iff (inside : dag.Inside) (complete : deployment.Complete dag index settled) :
    (∀ cpus, .gappedCpus cpus ∉ (deployment.describe dag index run).lines) ↔
      deployment.tableCpus = List.range deployment.tableCpus.length := by
  rw [describe_of_complete inside complete]
  constructor
  · intro quiet
    by_cases contiguous : deployment.tableCpus = List.range deployment.tableCpus.length
    · exact contiguous
    · have told : deployment.gapLines = [.gappedCpus deployment.tableCpus] := if_neg contiguous
      exfalso
      apply quiet deployment.tableCpus
      rw [told]
      exact List.mem_append_right _ (List.mem_append_right _ (List.mem_singleton.mpr rfl))
  · intro contiguous cpus
    have silent : deployment.gapLines = [] := if_pos contiguous
    have cycle : .gappedCpus cpus ∉ cycleLines dag index := by
      unfold cycleLines
      split <;> simp
    simp only [silent, List.mem_append, List.append_nil, not_or]
    exact ⟨cycle, gappedCpus_not_mem_linesFrom cpus⟩

/-- A general purpose task of a descriptor has settled on a unit that does not accelerate. -/
theorem general_task (complete : deployment.Complete dag index settled)
    (kind : (deployment.descriptorOf dag index run settled).taskKinds[position]? = some .cpu) :
    ∃ placement : Placement, placement.IsFirst deployment.solution.islands ⟨index, position⟩ ∧
      deployment.General placement ∧
      (deployment.descriptorOf dag index run settled).taskCpus[position]?
        = some (deployment.cpuAt placement) := by
  simp only [descriptorOf, assemble, List.getElem?_map, Option.map_eq_some_iff] at kind
  obtain ⟨resolved, ⟨entry, found, rfl⟩, isCpu⟩ := kind
  have settles := complete.settles_at found
  refine ⟨entry.placement, settles.placed, ⟨settles.placed.inside, settles.placed.unit_inside,
    Platform.kindOf_eq_cpu.mp isCpu⟩, ?_⟩
  simp only [descriptorOf, assemble, List.getElem?_map, found, Option.map_some]
  rfl

/-- The CPU of a general purpose task is the position of its frequency, and tells its unit, unless
a gap in the CPU numbers is told. -/
theorem cpu_indexes_frequencies (deployment : Deployment) (dag : Dag) (index : Nat)
    (run : RunLength) (descriptor : Descriptor)
    (described : (deployment.describe dag index run).outcome = .ok descriptor)
    (quiet : ∀ cpus, .gappedCpus cpus ∉ (deployment.describe dag index run).lines) :
    descriptor.cpuCount = descriptor.cpuFrequencies.length ∧
    (∀ task, descriptor.taskKinds[task]? = some .cpu → ∃ placement cpu,
      Placement.find deployment.solution.islands index task = .ok placement ∧
      deployment.solution.islands[placement.islandIndex]? = some placement.island ∧
      descriptor.taskCpus[task]? = some cpu ∧ cpu < descriptor.cpuCount ∧
      descriptor.cpuFrequencies[cpu]? = some placement.island.frequency) ∧
    ∀ first second placement other, descriptor.taskKinds[first]? = some .cpu →
      descriptor.taskKinds[second]? = some .cpu →
      Placement.find deployment.solution.islands index first = .ok placement →
      Placement.find deployment.solution.islands index second = .ok other →
      (descriptor.taskCpus[first]? = descriptor.taskCpus[second]? ↔
        placement.islandIndex = other.islandIndex ∧ placement.unitIndex = other.unitIndex) := by
  obtain ⟨inside, -, -, settled, complete, rfl⟩ := describe_eq_ok.mp described
  have contiguous := (quiet_iff inside complete).mp quiet
  refine ⟨rfl, ?_, ?_⟩
  · intro task kind
    obtain ⟨placement, first, general, cpu⟩ := general_task complete kind
    have frequency := frequency_at contiguous (mem_cpuTable general)
    have bounded := (List.getElem?_eq_some_iff.mp frequency).1
    exact ⟨placement, _, Placement.find_eq_ok.mpr first, first.inside, cpu, bounded, frequency⟩
  · intro first second placement other kind otherKind found otherFound
    obtain ⟨own, isFirst, general, cpu⟩ := general_task complete kind
    obtain ⟨otherOwn, otherIsFirst, otherGeneral, otherCpu⟩ := general_task complete otherKind
    obtain rfl := isFirst.unique (Placement.find_eq_ok.mp found)
    obtain rfl := otherIsFirst.unique (Placement.find_eq_ok.mp otherFound)
    have distinct : deployment.tableCpus.Nodup := contiguous ▸ List.nodup_range
    rw [cpu, otherCpu, Option.some.injEq]
    exact cpuAt_eq_iff distinct general otherGeneral

theorem cpu_indexes_frequencies_sample : ∃ descriptor,
    (sample.describe sampleDag 0 sampleRun).outcome = .ok descriptor ∧
    (∀ cpus, .gappedCpus cpus ∉ (sample.describe sampleDag 0 sampleRun).lines) ∧
    descriptor.taskKinds[2]? = some .cpu ∧ ∃ placement cpu,
      Placement.find sampleSolution.islands 0 2 = .ok placement ∧
      sampleSolution.islands[placement.islandIndex]? = some placement.island ∧
      descriptor.taskCpus[2]? = some cpu ∧ cpu < descriptor.cpuCount ∧
      descriptor.cpuFrequencies[cpu]? = some placement.island.frequency := by
  obtain ⟨descriptor, described, kind⟩ : ∃ descriptor,
      (sample.describe sampleDag 0 sampleRun).outcome = .ok descriptor ∧
        descriptor.taskKinds[2]? = some .cpu := ⟨_, rfl, rfl⟩
  have table : sample.tableCpus = [0, 1, 2, 3, 4, 5] := by
    rw [tableCpus, cpuTable_eq, List.mergeSort_of_pairwise (by decide)]
    rfl
  obtain ⟨inside, -, -, settled, complete, -⟩ := describe_eq_ok.mp described
  have quiet : ∀ cpus, .gappedCpus cpus ∉ (sample.describe sampleDag 0 sampleRun).lines :=
    (quiet_iff inside complete).mpr (by rw [table]; rfl)
  have indexed := cpu_indexes_frequencies sample sampleDag 0 sampleRun descriptor described quiet
  exact ⟨descriptor, described, quiet, kind, indexed.2.1 2 kind⟩

end Deployment

end DagDeploy
