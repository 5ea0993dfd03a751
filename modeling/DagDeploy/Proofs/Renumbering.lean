import DagDeploy.Proofs.Acceptance
import DagDeploy.Proofs.Independence
import Mathlib.Data.Fin.Tuple.Sort
import Mathlib.Logic.Equiv.Basic

/-! The numbers of the dags are names only. When a set is put into another order, and the solution
follows, then each descriptor moves to its new place and changes in nothing but its name. A failure
may be told of another dag, but it does not come or go. -/

namespace DagDeploy

def TaskId.renumber (relabel : Equiv.Perm Nat) (task : TaskId) : TaskId :=
  { task with dag := relabel task.dag }

def Assignment.renumber (relabel : Equiv.Perm Nat) (assignment : Assignment) : Assignment :=
  { assignment with toTaskId := assignment.toTaskId.renumber relabel }

def SolvedTask.renumber (relabel : Equiv.Perm Nat) (solved : SolvedTask) : SolvedTask :=
  { solved with dag := relabel solved.dag }

def Island.renumber (relabel : Equiv.Perm Nat) (island : Island) : Island :=
  { island with units := island.units.map (List.map (Assignment.renumber relabel)) }

/-- All else stays in its place. -/
def Solution.renumber (relabel : Equiv.Perm Nat) (solution : Solution) : Solution where
  platformName := solution.platformName
  islands := solution.islands.map (Island.renumber relabel)
  tasks := solution.tasks.map (SolvedTask.renumber relabel)

/-- The new number of every dag that is in the set; others keep theirs. -/
def relabelling {count : Nat} (order : Equiv.Perm (Fin count)) : Equiv.Perm Nat :=
  order.extendDomain Fin.equivSubtype

/-- Moves each dag of the set to the place of its new number. -/
def DagSet.renumber (set : DagSet) (order : Equiv.Perm (Fin set.dags.length)) : DagSet where
  dags := List.ofFn fun place => set.dags[order.symm place]

section relabelling

variable {set : DagSet} {order : Equiv.Perm (Fin set.dags.length)}

theorem relabelling_of_lt {index : Nat} (inside : index < set.dags.length) :
    relabelling order index = order ⟨index, inside⟩ :=
  Equiv.Perm.extendDomain_apply_subtype order Fin.equivSubtype inside

theorem relabelling_of_le {index : Nat} (outside : set.dags.length ≤ index) :
    relabelling order index = index :=
  Equiv.Perm.extendDomain_apply_not_subtype order Fin.equivSubtype (Nat.not_lt.mpr outside)

theorem getElem?_renumber (index : Nat) :
    (set.renumber order).dags[relabelling order index]? = set.dags[index]? := by
  by_cases inside : index < set.dags.length
  · simp [DagSet.renumber, relabelling_of_lt inside, inside]
  · have outside := Nat.not_lt.mp inside
    simp [DagSet.renumber, relabelling_of_le outside, outside]

/-- The order of the periods changes, but not how often each of them occurs. -/
theorem periods_renumber : (set.renumber order).periods.Perm set.periods := by
  have moved := Equiv.Perm.ofFn_comp_perm order.symm fun place : Fin _ => set.dags[place.val]
  rw [List.ofFn_getElem] at moved
  exact moved.map Dag.period

end relabelling

variable {relabel : Equiv.Perm Nat} {solution : Solution} {board : Platform}
  {catalogue : Catalogue} {dag : Dag} {index position : Nat} {run : RunLength}

theorem hardware_renumber (island : Island) :
    (island.renumber relabel).hardware = island.hardware := by
  simp [Island.hardware, Island.renumber]

theorem tasksOf_renumber : (solution.renumber relabel).tasksOf (relabel index)
    = (solution.tasksOf index).map (SolvedTask.renumber relabel) := by
  have same : ((fun solved : SolvedTask => solved.dag == relabel index) ∘
      SolvedTask.renumber relabel) = fun solved => solved.dag == index := by
    funext solved
    rw [Bool.eq_iff_iff]
    simp [SolvedTask.renumber]
  rw [Solution.tasksOf, Solution.renumber, List.filter_map, same]
  rfl

theorem TaskId.renumber_symm (task : TaskId) :
    (task.renumber relabel).renumber relabel.symm = task := by
  simp [TaskId.renumber]

theorem TaskId.renumber_injective : Function.Injective (TaskId.renumber relabel) :=
  Function.LeftInverse.injective TaskId.renumber_symm

theorem Assignment.renumber_symm (assignment : Assignment) :
    (assignment.renumber relabel).renumber relabel.symm = assignment := by
  simp [Assignment.renumber, TaskId.renumber_symm]

theorem Solution.renumber_symm (solution : Solution) :
    (solution.renumber relabel).renumber relabel.symm = solution := by
  have units : ∀ units : List (List Assignment),
      (units.map (List.map (Assignment.renumber relabel))).map
        (List.map (Assignment.renumber relabel.symm)) = units := by
    intro units
    simp [Function.comp_def, Assignment.renumber_symm]
  have islands : ∀ island : Island, (island.renumber relabel).renumber relabel.symm = island := by
    intro island
    simp only [Island.renumber, units]
  have tasks : ∀ solved : SolvedTask,
      (solved.renumber relabel).renumber relabel.symm = solved := by
    intro solved
    simp [SolvedTask.renumber]
  simp [Solution.renumber, Function.comp_def, islands, tasks]

theorem lists_renumber {islands : List Island} {task islandIndex unitIndex : Nat} :
    Lists (islands.map (Island.renumber relabel)) ⟨relabel index, task⟩ islandIndex unitIndex ↔
      Lists islands ⟨index, task⟩ islandIndex unitIndex := by
  have listed (unit : List Assignment) :
      TaskId.renumber relabel ⟨index, task⟩
          ∈ (unit.map (Assignment.renumber relabel)).map Assignment.toTaskId ↔
        ⟨index, task⟩ ∈ unit.map Assignment.toTaskId := by
    have moved : (unit.map (Assignment.renumber relabel)).map Assignment.toTaskId
        = (unit.map Assignment.toTaskId).map (TaskId.renumber relabel) := by
      rw [List.map_map, List.map_map]
      rfl
    rw [moved]
    exact List.mem_map_of_injective TaskId.renumber_injective
  constructor
  · intro ⟨_, _, inside, found, member⟩
    rw [List.getElem?_map, Option.map_eq_some_iff] at inside
    obtain ⟨island, present, rfl⟩ := inside
    simp only [Island.renumber, List.getElem?_map, Option.map_eq_some_iff] at found
    obtain ⟨unit, unitFound, rfl⟩ := found
    exact ⟨island, unit, present, unitFound, (listed unit).mp member⟩
  · intro ⟨island, unit, inside, found, member⟩
    refine ⟨island.renumber relabel, unit.map (Assignment.renumber relabel), ?_, ?_, ?_⟩
    · simp [inside]
    · simp [Island.renumber, found]
    · exact (listed unit).mpr member

def Placement.renumber (relabel : Equiv.Perm Nat) (placement : Placement) : Placement :=
  { placement with island := placement.island.renumber relabel }

theorem Placement.IsFirst.renumber {islands : List Island} {task : Nat} {placement : Placement}
    (placed : placement.IsFirst islands ⟨index, task⟩) :
    (placement.renumber relabel).IsFirst (islands.map (Island.renumber relabel))
      ⟨relabel index, task⟩ where
  inside := by simp [Placement.renumber, placed.inside]
  listed := lists_renumber.mpr placed.listed
  least islandIndex unitIndex listed := placed.least _ _ (lists_renumber.mp listed)

def Settled.renumber (relabel : Equiv.Perm Nat) (settled : Settled) : Settled where
  solved := settled.solved.renumber relabel
  task := settled.task
  placement := settled.placement.renumber relabel

namespace Deployment

def renumber (relabel : Equiv.Perm Nat) (deployment : Deployment) : Deployment :=
  { deployment with solution := deployment.solution.renumber relabel }

variable {deployment : Deployment} {settled : List Settled}

theorem kindAt_renumber (deployment : Deployment) (placement : Placement) :
    (deployment.renumber relabel).kindAt (placement.renumber relabel)
      = deployment.kindAt placement :=
  kindOf_of_hardware (hardware_renumber placement.island)

theorem entryOf_renumber (entry : Settled) :
    (deployment.renumber relabel).entryOf (entry.renumber relabel) = deployment.entryOf entry := by
  have kind : (deployment.renumber relabel).kindAt (entry.placement.renumber relabel)
      = deployment.kindAt entry.placement := kindAt_renumber deployment entry.placement
  have cpu : (deployment.renumber relabel).cpuAt (entry.placement.renumber relabel)
      = deployment.cpuAt entry.placement :=
    cpuOf_of_hardware (hardware_renumber entry.placement.island)
  change ResolvedTask.mk (kindAt _ (entry.placement.renumber relabel)) _ _ _
    (cpuAt _ (entry.placement.renumber relabel))
    (kernelId _ (kindAt _ (entry.placement.renumber relabel)) _) = _
  rw [kind, cpu]
  rfl

theorem Settles.renumber {entry : Settled} (settles : deployment.Settles dag index position entry) :
    (deployment.renumber relabel).Settles dag (relabel index) position
      (entry.renumber relabel) where
  ordered := settles.ordered
  modelled := settles.modelled
  placed := settles.placed.renumber
  supported := kindAt_renumber deployment entry.placement ▸ settles.supported

theorem Complete.renumber (complete : deployment.Complete dag index settled) :
    (deployment.renumber relabel).Complete dag (relabel index)
      (settled.map (Settled.renumber relabel)) where
  records := by
    rw [Deployment.renumber, tasksOf_renumber, complete.records, List.map_map, List.map_map]
    rfl
  count := by rw [List.length_map, complete.count]
  all offset entry found := by
    rw [List.getElem?_map, Option.map_eq_some_iff] at found
    obtain ⟨original, present, rfl⟩ := found
    exact (complete.all offset original present).renumber

theorem cpuTable_renumber : (deployment.renumber relabel).cpuTable = deployment.cpuTable := by
  have alike : (deployment.solution.islands.map (Island.renumber relabel)).map Island.hardware
      = deployment.solution.islands.map Island.hardware := by
    rw [List.map_map]
    exact List.map_congr_left fun island _ => hardware_renumber island
  rw [cpuTable_eq, cpuTable_eq, ← generalCpus_of_hardware alike]
  rfl

theorem descriptorOf_renumber : (deployment.renumber relabel).descriptorOf dag (relabel index) run
      (settled.map (Settled.renumber relabel))
    = { deployment.descriptorOf dag index run settled with
        name := Descriptor.nameOf (relabel index) } := by
  have entries : (settled.map (Settled.renumber relabel)).map
      (deployment.renumber relabel).entryOf = settled.map deployment.entryOf := by
    rw [List.map_map]
    exact List.map_congr_left fun entry _ => entryOf_renumber entry
  rw [descriptorOf, entries, cpuTable_renumber]
  rfl

/-- A dag that is described under one number is described alike under another. -/
theorem describe_renumber (relabel : Equiv.Perm Nat) {descriptor : Descriptor}
    (described : (deployment.describe dag index run).outcome = .ok descriptor) :
    ((deployment.renumber relabel).describe dag (relabel index) run).outcome
      = .ok { descriptor with name := Descriptor.nameOf (relabel index) } := by
  obtain ⟨inside, fits, fitsToo, settled, complete, rfl⟩ := describe_eq_ok.mp described
  exact describe_eq_ok.mpr
    ⟨inside, fits, fitsToo, _, complete.renumber, descriptorOf_renumber.symm⟩

end Deployment

/-- Two sets with the same dags, of which each has its new number in the second one. -/
theorem describeAll_renumber {set other : DagSet}
    (moved : ∀ index, other.dags[relabel index]? = set.dags[index]?)
    (converts : ∃ descriptors,
      (describeAll set solution catalogue run).outcome = .ok descriptors) :
    ∃ descriptors,
      (describeAll other (solution.renumber relabel) catalogue run).outcome = .ok descriptors := by
  obtain ⟨known, all⟩ := Deployment.describeAll_succeeds_iff.mp converts
  refine Deployment.describeAll_succeeds_iff.mpr ⟨known, fun board told place dag found => ?_⟩
  obtain ⟨index, rfl⟩ := relabel.surjective place
  rw [moved] at found
  have ready := all board told index dag found
  let deployment : Deployment := ⟨solution, board, catalogue⟩
  obtain ⟨descriptor, described⟩ :
      ∃ descriptor, (deployment.describe dag index run).outcome = .ok descriptor :=
    Deployment.describe_succeeds_iff.mpr ready
  exact Deployment.describe_succeeds_iff.mp ⟨_, Deployment.describe_renumber relabel described⟩

section order

variable {set : DagSet} {order : Equiv.Perm (Fin set.dags.length)} {iterations minSeconds : Nat}

theorem runLength_renumber :
    (RunLength.of (set.renumber order).periods iterations minSeconds).outcome = .ok run ↔
      (RunLength.of set.periods iterations minSeconds).outcome = .ok run := by
  have sameLcm : ((set.renumber order).periods : Multiset Nat) = set.periods :=
    Multiset.coe_eq_coe.mpr periods_renumber
  have sameZeros : (∀ period ∈ (set.renumber order).periods, period ≠ 0) ↔
      ∀ period ∈ set.periods, period ≠ 0 := by
    simp only [periods_renumber.mem_iff]
  simp only [RunLength.of_eq_ok, Period.hyperPeriod_eq_ok, sameLcm, sameZeros]

theorem describeAll_renumber_iff :
    (∃ descriptors, (describeAll (set.renumber order) (solution.renumber (relabelling order))
        catalogue run).outcome = .ok descriptors) ↔
      ∃ descriptors, (describeAll set solution catalogue run).outcome = .ok descriptors := by
  constructor
  · intro converts
    -- The way back is a renumbering too.
    have back : ∀ place, set.dags[(relabelling order).symm place]?
        = (set.renumber order).dags[place]? := by
      intro place
      have moved : (set.renumber order).dags[relabelling order ((relabelling order).symm place)]?
          = set.dags[(relabelling order).symm place]? := getElem?_renumber _
      rw [← moved, Equiv.apply_symm_apply]
    have restored := describeAll_renumber back converts
    rwa [Solution.renumber_symm] at restored
  · exact describeAll_renumber getElem?_renumber

theorem describeAll_moves {descriptors renumbered : List Descriptor}
    (described : (describeAll set solution catalogue run).outcome = .ok descriptors)
    (again : (describeAll (set.renumber order) (solution.renumber (relabelling order)) catalogue
      run).outcome = .ok renumbered) :
    descriptors.length = set.dags.length ∧ renumbered.length = set.dags.length ∧
      ∀ (index : Nat) (descriptor : Descriptor), descriptors[index]? = some descriptor →
        renumbered[relabelling order index]?
          = some { descriptor with name := Descriptor.nameOf (relabelling order index) } := by
  obtain ⟨board, told, count, each⟩ := Deployment.describeAll_eq_ok.mp described
  obtain ⟨other, otherTold, recount, eachAgain⟩ := Deployment.describeAll_eq_ok.mp again
  obtain rfl := Platform.told_unique told otherTold
  have size : (set.renumber order).dags.length = set.dags.length := List.length_ofFn
  refine ⟨count, recount.trans size, fun index descriptor present => ?_⟩
  have inside : index < set.dags.length := count ▸ (List.getElem?_eq_some_iff.mp present).1
  have found := List.getElem?_eq_getElem inside
  have moved : relabelling order index < renumbered.length := by
    rw [recount, size, relabelling_of_lt inside]
    exact Fin.isLt _
  have told := List.getElem?_eq_getElem moved
  have expected := Deployment.describe_renumber (relabelling order)
    (each index _ descriptor found present)
  have actual := eachAgain (relabelling order index) _ _
    ((getElem?_renumber index).trans found) told
  rw [told]
  exact congrArg some (Except.ok.inj (actual.symm.trans expected))

end order

/-- All run lengths are the same, all conversions succeed or fail as before, and the descriptor of a
dag goes with it. -/
theorem convert_renumber (set : DagSet) (solution : Solution) (catalogue : Catalogue)
    (iterations minSeconds : Nat) (order : Equiv.Perm (Fin set.dags.length)) :
    (∀ run, (RunLength.of (set.renumber order).periods iterations minSeconds).outcome = .ok run ↔
      (RunLength.of set.periods iterations minSeconds).outcome = .ok run) ∧
    ((∃ descriptors, (convert (set.renumber order) (solution.renumber (relabelling order))
        catalogue iterations minSeconds).outcome = .ok descriptors) ↔
      ∃ descriptors,
        (convert set solution catalogue iterations minSeconds).outcome = .ok descriptors) ∧
    ∀ descriptors renumbered,
      (convert set solution catalogue iterations minSeconds).outcome = .ok descriptors →
      (convert (set.renumber order) (solution.renumber (relabelling order))
        catalogue iterations minSeconds).outcome = .ok renumbered →
      descriptors.length = set.dags.length ∧ renumbered.length = set.dags.length ∧
        ∀ (index : Nat) (descriptor : Descriptor), descriptors[index]? = some descriptor →
          renumbered[relabelling order index]?
            = some { descriptor with name := Descriptor.nameOf (relabelling order index) } := by
  refine ⟨fun run => runLength_renumber, ?_, ?_⟩
  · simp only [convert, Logged.outcome_bind_eq_ok, runLength_renumber]
    constructor
    · intro ⟨renumbered, run, computed, described⟩
      obtain ⟨descriptors, restored⟩ := describeAll_renumber_iff.mp ⟨renumbered, described⟩
      exact ⟨descriptors, run, computed, restored⟩
    · intro ⟨descriptors, run, computed, described⟩
      obtain ⟨renumbered, moved⟩ := describeAll_renumber_iff.mpr ⟨descriptors, described⟩
      exact ⟨renumbered, run, computed, moved⟩
  · intro descriptors renumbered converted reconverted
    obtain ⟨run, computed, described⟩ := Logged.outcome_bind_eq_ok.mp converted
    obtain ⟨again, recomputed, redescribed⟩ := Logged.outcome_bind_eq_ok.mp reconverted
    obtain rfl : run = again :=
      Except.ok.inj (computed.symm.trans (runLength_renumber.mp recomputed))
    exact describeAll_moves described redescribed

end DagDeploy
