import DagDeploy.Proofs.CpuTable

/-! The order of the CPU table. It holds each unit of the islands that do not accelerate once, in
ascending order of the CPUs. Sorting keeps the order of what has the same key, so units with the same
CPU stay in the order of their islands. -/

namespace DagDeploy

section sorting

variable {α : Type} (key : α → Nat)

theorem pairwise_mergeSort (list : List α) :
    (list.mergeSort fun first second => key first ≤ key second).Pairwise
      fun first second => key first ≤ key second := by
  have sorted : (list.mergeSort fun first second => key first ≤ key second).Pairwise
      fun first second => decide (key first ≤ key second) = true :=
    List.pairwise_mergeSort (fun a b c => by simpa using Nat.le_trans)
      (fun a b => by simpa using Nat.le_total _ _) list
  simpa using sorted

/-- The elements of one key come out as they went in. -/
theorem filter_mergeSort (list : List α) (value : Nat) :
    (list.mergeSort fun first second => key first ≤ key second).filter (key · == value)
      = list.filter (key · == value) := by
  have alike : (list.filter (key · == value)).Pairwise
      fun first second => decide (key first ≤ key second) = true := by
    apply List.pairwise_of_forall_mem_list
    intro first firstMember second secondMember
    have firstKey : key first = value := by simpa using (List.mem_filter.mp firstMember).2
    have secondKey : key second = value := by simpa using (List.mem_filter.mp secondMember).2
    simp [firstKey, secondKey]
  have kept := List.sublist_mergeSort (fun a b c => by simpa using Nat.le_trans)
    (fun a b => by simpa using Nat.le_total _ _) alike List.filter_sublist
  have within := kept.filter (key · == value)
  rw [List.filter_filter] at within
  simp only [Bool.and_self] at within
  exact (within.eq_of_length
    ((List.mergeSort_perm list _).filter (key · == value)).length_eq.symm).symm

/-- A list in some order is sorted by keys, and still in that order where the keys are equal. -/
theorem pairwise_mergeSort_stable {order : α → α → Prop} {list : List α}
    (ordered : list.Pairwise order) :
    (list.mergeSort fun first second => key first ≤ key second).Pairwise
      fun first second => key first < key second ∨ key first = key second ∧ order first second := by
  refine List.pairwise_iff_forall_sublist.mpr fun {first second} pair => ?_
  have least := List.pairwise_iff_forall_sublist.mp (pairwise_mergeSort key list) pair
  rcases Nat.lt_or_eq_of_le least with less | same
  · exact .inl less
  · have kept := pair.filter (key · == key first)
    rw [filter_mergeSort] at kept
    simp only [List.filter_cons, same, beq_self_eq_true, if_true, List.filter_nil] at kept
    exact .inr ⟨same, List.pairwise_iff_forall_sublist.mp ordered (kept.trans List.filter_sublist)⟩

end sorting

namespace Deployment

variable (deployment : Deployment)

/-- The units of the islands that do not accelerate, in document order. -/
def generalPlaces : List Placement :=
  (deployment.solution.islands.zipIdx.filter
    fun entry => !deployment.platform.isAccelerator entry.1).flatMap fun entry =>
      (List.range entry.1.units.length).map fun unitIndex => ⟨entry.2, entry.1, unitIndex⟩

/-- By CPU, and then by island. -/
def Precedes (first second : Placement) : Prop :=
  deployment.cpuAt first < deployment.cpuAt second ∨
    deployment.cpuAt first = deployment.cpuAt second ∧ first.islandIndex < second.islandIndex

variable {deployment} {placement : Placement}

theorem mem_generalPlaces :
    placement ∈ deployment.generalPlaces ↔ deployment.General placement := by
  simp only [generalPlaces, List.mem_flatMap, List.mem_filter, List.mem_zipIdx_iff_getElem?,
    List.mem_map, List.mem_range, Bool.not_eq_true', ← Bool.not_eq_true,
    Platform.isAccelerator_iff]
  constructor
  · intro ⟨entry, ⟨inside, general⟩, unitIndex, unit, same⟩
    subst same
    exact ⟨inside, unit, general⟩
  · intro ⟨inside, unit, general⟩
    exact ⟨(placement.island, placement.islandIndex), ⟨inside, general⟩, placement.unitIndex, unit,
      rfl⟩

theorem generalPlaces_ordered : deployment.generalPlaces.Pairwise fun first second =>
    first.islandIndex < second.islandIndex ∨
      first.island = second.island ∧ first.unitIndex < second.unitIndex := by
  have numbered : deployment.solution.islands.zipIdx.Pairwise
      fun first second => first.2 < second.2 := by
    rw [← List.pairwise_map, List.zipIdx_map_snd]
    exact List.pairwise_lt_range'
  refine List.pairwise_flatMap.mpr ⟨fun entry _ => ?_, ?_⟩
  · refine List.pairwise_map.mpr (List.pairwise_lt_range.imp fun less => ?_)
    exact .inr ⟨rfl, less⟩
  · refine (numbered.filter _).imp fun {first second} less place member other otherMember => ?_
    obtain ⟨_, _, rfl⟩ := List.mem_map.mp member
    obtain ⟨_, _, rfl⟩ := List.mem_map.mp otherMember
    exact .inl less

theorem generalCpus_eq_map : deployment.platform.generalCpus deployment.solution.islands
    = deployment.generalPlaces.map fun placement =>
        (deployment.cpuAt placement, placement.island.frequency) := by
  have islands : deployment.platform.generalIslands deployment.solution.islands
      = (deployment.solution.islands.zipIdx.filter
          fun entry => !deployment.platform.isAccelerator entry.1).map Prod.fst := by
    rw [Platform.generalIslands, ← List.zipIdx_map_fst 0 deployment.solution.islands,
      List.filter_map, List.zipIdx_map_fst]
    rfl
  rw [Platform.generalCpus, islands, List.flatMap_map, generalPlaces, List.map_flatMap]
  simp only [List.map_map, Function.comp_def]
  rfl

/-- The units of the table, in its order. -/
theorem exists_places (deployment : Deployment) : ∃ places : List Placement,
    (∀ placement, placement ∈ places ↔ deployment.General placement) ∧
      places.Pairwise deployment.Precedes ∧
      deployment.cpuTable = places.map fun placement =>
        (deployment.cpuAt placement, placement.island.frequency) := by
  refine ⟨deployment.generalPlaces.mergeSort
    fun first second => deployment.cpuAt first ≤ deployment.cpuAt second, ?_, ?_, ?_⟩
  · intro placement
    rw [List.mem_mergeSort, mem_generalPlaces]
  · refine (pairwise_mergeSort_stable deployment.cpuAt generalPlaces_ordered).imp ?_
    intro first second stable
    rcases stable with less | ⟨same, earlier | ⟨island, unit⟩⟩
    · exact .inl less
    · exact .inr ⟨same, earlier⟩
    · -- Two units of one island have different CPUs.
      exfalso
      rw [cpuAt, cpuAt, island] at same
      exact Nat.ne_of_lt unit (Platform.cpuOf_injective _ _ same)
  · rw [cpuTable_eq, generalCpus_eq_map]
    symm
    apply List.map_mergeSort
    intro first _ second _
    rfl

end Deployment

end DagDeploy
