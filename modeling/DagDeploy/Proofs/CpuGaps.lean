import DagDeploy.Proofs.Acceptance
import DagDeploy.Proofs.CpuOrder
import Mathlib.Data.List.Pairwise
import Mathlib.Data.List.Perm.Subperm

/-! When the CPU table warns. Numbers are 0, 1, 2 and so on, in some order, when none comes twice and
none is left out below another. An island without units gives none. All others start at 0, but for
those of the big cluster of an Odroid, which start after four little cores. -/

namespace DagDeploy

/-- No two islands of the list have the property. -/
def AtMostOne (property : Island → Prop) (islands : List Island) : Prop :=
  islands.Pairwise fun first second => ¬ (property first ∧ property second)

theorem AtMostOne.same {property : Island → Prop} {islands : List Island} {first second : Island}
    (most : AtMostOne property islands) (firstMember : first ∈ islands) (has : property first)
    (secondMember : second ∈ islands) (alsoHas : property second) : first = second := by
  have symmetric : Std.Symm fun first second => ¬ (property first ∧ property second) :=
    ⟨fun _ _ notBoth both => notBoth both.symm⟩
  by_contra different
  exact List.Pairwise.forall most firstMember secondMember different ⟨has, alsoHas⟩

theorem perm_range_iff {numbers : List Nat} :
    numbers.Perm (List.range numbers.length) ↔
      numbers.Nodup ∧ ∀ number ∈ numbers, ∀ lower < number, lower ∈ numbers := by
  constructor
  · intro perm
    refine ⟨perm.nodup_iff.mpr List.nodup_range, fun number member lower less => ?_⟩
    have bounded := List.mem_range.mp (perm.mem_iff.mp member)
    exact perm.mem_iff.mpr (List.mem_range.mpr (Nat.lt_trans less bounded))
  · intro ⟨nodup, closed⟩
    have bounded : numbers ⊆ List.range numbers.length := by
      intro number member
      have below : List.range (number + 1) ⊆ numbers := by
        intro lower least
        rcases Nat.lt_succ_iff_lt_or_eq.mp (List.mem_range.mp least) with less | rfl
        · exact closed number member lower less
        · exact member
      have count := List.nodup_range.length_le_of_subset below
      rw [List.length_range] at count
      exact List.mem_range.mpr count
    exact (nodup.subperm bounded).perm_of_length_le (by rw [List.length_range])

namespace Platform

/-- The capacity is less than that of the reference core, or not a number. -/
def BelowReference (island : Island) : Prop :=
  ∀ capacity, island.capacity.value? = some capacity → capacity < (Binary64.unitsPerOne : Int)

/-- At most one island of each kind has units, and a big one needs four little cores before it. -/
def Gapless (islands : List Island) : Platform → Prop
  | .odroid =>
    AtMostOne (fun island => BelowReference island ∧ island.units ≠ []) islands ∧
      AtMostOne (fun island => AtReference island ∧ island.units ≠ []) islands ∧
      ∀ big ∈ islands, AtReference big → big.units ≠ [] →
        ∃ little ∈ islands, BelowReference little ∧ little.units.length = 4
  | board => AtMostOne (fun island => ¬ board.Accelerates island ∧ island.units ≠ []) islands

variable {board : Platform} {island first second : Island} {islands : List Island} {cpu : Nat}

theorem general_odroid_iff :
    ¬ Accelerates .odroid island ↔ BelowReference island ∨ AtReference island := by
  simp only [Accelerates, BelowReference, AtReference]
  -- Nothing here depends on how many units the reference core has.
  generalize (Binary64.unitsPerOne : Int) = reference
  cases island.capacity.value? with
  | none => simp
  | some capacity =>
    simp only [Option.some.injEq, exists_eq_left', forall_eq']
    omega

theorem BelowReference.not_at (below : BelowReference island) : ¬ AtReference island :=
  fun reference => Int.lt_irrefl _ (below _ reference)

theorem mem_cpusOf_plain (plain : board ≠ .odroid ∨ ¬ AtReference island) :
    cpu ∈ board.cpusOf island ↔ cpu < island.units.length := by
  simp [cpusOf, cpuOf_eq_self plain]

theorem mem_cpusOf_big (reference : AtReference island) :
    cpu ∈ cpusOf .odroid island ↔ 4 ≤ cpu ∧ cpu < 4 + island.units.length := by
  simp only [cpusOf, cpuOf_eq_add reference, List.mem_map, List.mem_range]
  constructor
  · intro ⟨unitIndex, inside, same⟩
    omega
  · intro ⟨least, inside⟩
    exact ⟨cpu - 4, by omega, by omega⟩

/-- Two islands have no CPU in common, as far as neither of them accelerates. -/
def Apart (board : Platform) (first second : Island) : Prop :=
  ¬ board.Accelerates first → ¬ board.Accelerates second →
    ∀ cpu ∈ board.cpusOf first, cpu ∉ board.cpusOf second

theorem apart_of_empty (empty : first.units = []) : board.Apart first second := by
  intro _ _ cpu given
  simp [cpusOf, empty] at given

theorem Apart.symm (apart : board.Apart first second) : board.Apart second first :=
  fun general otherGeneral cpu member otherMember =>
    apart otherGeneral general cpu otherMember member

/-- No CPU is given twice, and no CPU is left out below one that is given. -/
structure Contiguous (board : Platform) (islands : List Island) : Prop where
  apart : islands.Pairwise board.Apart
  closed : ∀ island ∈ islands, ¬ board.Accelerates island → ∀ cpu ∈ board.cpusOf island,
    ∀ lower < cpu, ∃ other ∈ islands, ¬ board.Accelerates other ∧ lower ∈ board.cpusOf other

/-- Islands that start at the same CPU are apart when one of them has no units. -/
theorem contiguous_plain_iff (plain : board ≠ .odroid) : board.Contiguous islands ↔
    AtMostOne (fun island => ¬ board.Accelerates island ∧ island.units ≠ []) islands := by
  have numbers : ∀ {island : Island} {cpu : Nat},
      cpu ∈ board.cpusOf island ↔ cpu < island.units.length := mem_cpusOf_plain (.inl plain)
  have apart : ∀ first second, board.Apart first second ↔
      ¬ ((¬ board.Accelerates first ∧ first.units ≠ []) ∧
        (¬ board.Accelerates second ∧ second.units ≠ [])) := by
    intro first second
    simp only [Apart, numbers, ← List.length_pos_iff]
    constructor
    · intro apart ⟨⟨general, units⟩, otherGeneral, otherUnits⟩
      exact apart general otherGeneral 0 units otherUnits
    · intro notBoth general otherGeneral cpu inside otherInside
      exact notBoth ⟨⟨general, by omega⟩, otherGeneral, by omega⟩
  rw [AtMostOne, ← List.Pairwise.iff apart]
  constructor
  · exact Contiguous.apart
  · intro pairwise
    refine ⟨pairwise, fun island member general cpu inside lower less => ?_⟩
    have bound := numbers.mp inside
    exact ⟨island, member, general, numbers.mpr (Nat.lt_trans less bound)⟩

section odroid

theorem Apart.little (apart : Apart .odroid first second) (below : BelowReference first)
    (alsoBelow : BelowReference second) (units : first.units ≠ []) : second.units = [] := by
  by_contra otherUnits
  exact apart (general_odroid_iff.mpr (.inl below)) (general_odroid_iff.mpr (.inl alsoBelow)) 0
    ((mem_cpusOf_plain (.inr below.not_at)).mpr (List.length_pos_iff.mpr units))
    ((mem_cpusOf_plain (.inr alsoBelow.not_at)).mpr (List.length_pos_iff.mpr otherUnits))

theorem Apart.big (apart : Apart .odroid first second) (reference : AtReference first)
    (alsoReference : AtReference second) (units : first.units ≠ []) : second.units = [] := by
  by_contra otherUnits
  have some := List.length_pos_iff.mpr units
  have otherSome := List.length_pos_iff.mpr otherUnits
  exact apart (general_odroid_iff.mpr (.inr reference)) (general_odroid_iff.mpr (.inr alsoReference))
    4 ((mem_cpusOf_big reference).mpr (by omega)) ((mem_cpusOf_big alsoReference).mpr (by omega))

theorem Apart.mixed (below : BelowReference first) (reference : AtReference second)
    (units : second.units ≠ []) :
    Apart .odroid first second ↔ first.units.length ≤ 4 := by
  have some := List.length_pos_iff.mpr units
  simp only [Apart, mem_cpusOf_plain (.inr below.not_at), mem_cpusOf_big reference]
  constructor
  · intro apart
    apply Nat.le_of_not_lt
    intro more
    exact apart (general_odroid_iff.mpr (.inl below)) (general_odroid_iff.mpr (.inr reference)) 4
      more (by omega)
  · intro few _ _ cpu inside otherInside
    omega

/-- The CPU before those of the big cluster is one of a little cluster, which has no more. -/
theorem Contiguous.exists_little (contiguous : Contiguous .odroid islands) {big : Island}
    (member : big ∈ islands) (reference : AtReference big) (units : big.units ≠ []) :
    ∃ little ∈ islands, BelowReference little ∧ little.units.length = 4 := by
  have some := List.length_pos_iff.mpr units
  obtain ⟨little, present, general, given⟩ := contiguous.closed big member
    (general_odroid_iff.mpr (.inr reference)) 4 ((mem_cpusOf_big reference).mpr (by omega)) 3
    (by decide)
  rcases general_odroid_iff.mp general with below | alsoReference
  · have enough := (mem_cpusOf_plain (.inr below.not_at)).mp given
    have different : little ≠ big := by
      intro same
      exact below.not_at (same ▸ reference)
    have symmetric : Std.Symm (Apart .odroid) := ⟨fun _ _ => Apart.symm⟩
    have apart := List.Pairwise.forall contiguous.apart present member different
    have most := (Apart.mixed below reference units).mp apart
    exact ⟨little, present, below, by omega⟩
  · have least := ((mem_cpusOf_big alsoReference).mp given).1
    omega

/-- A little cluster with units beside a big one is the one with four. -/
theorem length_of_gapless (gapless : Gapless islands .odroid) {little big : Island}
    (member : little ∈ islands) (below : BelowReference little) (units : little.units ≠ [])
    (bigMember : big ∈ islands) (reference : AtReference big) (bigUnits : big.units ≠ []) :
    little.units.length = 4 := by
  obtain ⟨oneLittle, -, filled⟩ := gapless
  obtain ⟨other, present, alsoBelow, four⟩ := filled big bigMember reference bigUnits
  have otherUnits : other.units ≠ [] := by
    rw [← List.length_pos_iff, four]
    decide
  rw [oneLittle.same member ⟨below, units⟩ present ⟨alsoBelow, otherUnits⟩]
  exact four

theorem apart_of_gapless (gapless : Gapless islands .odroid) :
    islands.Pairwise (Apart .odroid) := by
  refine (gapless.1.and gapless.2.1).imp_of_mem ?_
  intro first second member otherMember ⟨notBothLittle, notBothBig⟩
  by_cases units : first.units = []
  · exact apart_of_empty units
  by_cases otherUnits : second.units = []
  · exact (apart_of_empty otherUnits).symm
  intro general otherGeneral
  rcases general_odroid_iff.mp general with below | reference
  · rcases general_odroid_iff.mp otherGeneral with alsoBelow | reference
    · exact absurd ⟨⟨below, units⟩, alsoBelow, otherUnits⟩ notBothLittle
    · have four := length_of_gapless gapless member below units otherMember reference otherUnits
      exact (Apart.mixed below reference otherUnits).mpr (Nat.le_of_eq four) general otherGeneral
  · rcases general_odroid_iff.mp otherGeneral with below | alsoReference
    · have four := length_of_gapless gapless otherMember below otherUnits member reference units
      exact ((Apart.mixed below reference units).mpr (Nat.le_of_eq four)).symm general otherGeneral
    · exact absurd ⟨⟨reference, units⟩, alsoReference, otherUnits⟩ notBothBig

theorem closed_of_gapless (gapless : Gapless islands .odroid) {island : Island}
    (member : island ∈ islands) (general : ¬ Accelerates .odroid island) {cpu lower : Nat}
    (given : cpu ∈ cpusOf .odroid island) (less : lower < cpu) :
    ∃ other ∈ islands, ¬ Accelerates .odroid other ∧ lower ∈ cpusOf .odroid other := by
  rcases general_odroid_iff.mp general with below | reference
  · have inside := (mem_cpusOf_plain (.inr below.not_at)).mp given
    exact ⟨island, member, general,
      (mem_cpusOf_plain (.inr below.not_at)).mpr (Nat.lt_trans less inside)⟩
  · obtain ⟨least, inside⟩ := (mem_cpusOf_big reference).mp given
    by_cases big : 4 ≤ lower
    · exact ⟨island, member, general, (mem_cpusOf_big reference).mpr (by omega)⟩
    · have units : island.units ≠ [] := List.length_pos_iff.mp (by omega)
      obtain ⟨little, present, below, four⟩ := gapless.2.2 island member reference units
      exact ⟨little, present, general_odroid_iff.mpr (.inl below),
        (mem_cpusOf_plain (.inr below.not_at)).mpr (by omega)⟩

theorem contiguous_odroid_iff : Contiguous .odroid islands ↔ Gapless islands .odroid := by
  constructor
  · intro contiguous
    refine ⟨contiguous.apart.imp ?_, contiguous.apart.imp ?_, fun big member => ?_⟩
    · intro first second apart ⟨⟨below, units⟩, alsoBelow, otherUnits⟩
      exact otherUnits (apart.little below alsoBelow units)
    · intro first second apart ⟨⟨reference, units⟩, alsoReference, otherUnits⟩
      exact otherUnits (apart.big reference alsoReference units)
    · exact contiguous.exists_little member
  · intro gapless
    exact ⟨apart_of_gapless gapless,
      fun _ member general _ given _ less => closed_of_gapless gapless member general given less⟩

end odroid

theorem contiguous_iff : board.Contiguous islands ↔ Gapless islands board := by
  cases board with
  | odroid => exact contiguous_odroid_iff
  | zcu102 | xavierAgx => exact contiguous_plain_iff (by decide)

end Platform

namespace Deployment

variable {deployment : Deployment} {dag : Dag} {index : Nat} {run : RunLength}

theorem mem_tableCpus {cpu : Nat} : cpu ∈ deployment.tableCpus ↔
    ∃ island ∈ deployment.solution.islands, ¬ deployment.platform.Accelerates island ∧
      cpu ∈ deployment.platform.cpusOf island := by
  simp only [tableCpus_perm.mem_iff, List.mem_flatMap, Platform.mem_generalIslands, and_assoc]

theorem contiguous_iff_nodup : deployment.platform.Contiguous deployment.solution.islands ↔
    deployment.tableCpus.Nodup ∧
      ∀ cpu ∈ deployment.tableCpus, ∀ lower < cpu, lower ∈ deployment.tableCpus := by
  simp only [nodup_tableCpus, mem_tableCpus]
  constructor
  · intro contiguous
    refine ⟨contiguous.apart, fun cpu ⟨island, member, general, given⟩ lower less => ?_⟩
    exact contiguous.closed island member general cpu given lower less
  · intro ⟨apart, closed⟩
    refine ⟨apart, fun island member general cpu given lower less => ?_⟩
    exact closed cpu ⟨island, member, general, given⟩ lower less

/-- Sorted numbers are 0, 1, 2 and so on as soon as they are so in some order. -/
theorem tableCpus_eq_range_iff :
    deployment.tableCpus = List.range deployment.tableCpus.length ↔
      Platform.Gapless deployment.solution.islands deployment.platform := by
  have sorted : deployment.tableCpus.Pairwise (· ≤ ·) :=
    List.pairwise_map.mpr (pairwise_mergeSort Prod.fst _)
  rw [← Platform.contiguous_iff, contiguous_iff_nodup, ← perm_range_iff]
  constructor
  · exact List.Perm.of_eq
  · intro perm
    exact perm.eq_of_pairwise (fun _ _ _ _ => Nat.le_antisymm) sorted List.pairwise_le_range

theorem gapLines_of_gapless
    (gapless : Platform.Gapless deployment.solution.islands deployment.platform) :
    deployment.gapLines = [] :=
  if_pos (tableCpus_eq_range_iff.mpr gapless)

theorem gapLines_of_gapped
    (gapped : ¬ Platform.Gapless deployment.solution.islands deployment.platform) :
    deployment.gapLines = [.gappedCpus deployment.tableCpus] :=
  if_neg fun contiguous => gapped (tableCpus_eq_range_iff.mp contiguous)

/-- The table of frequencies holds those of the units of all islands that do not accelerate, by CPU
and then by island. A gap is told exactly when the islands leave or double a number, so the log of a
whole set tells it for each dag or for none. -/
theorem cpuFrequencies_outcome (deployment : Deployment) :
    (∃ places : List Placement,
      (∀ placement, placement ∈ places ↔ deployment.General placement) ∧
      places.Pairwise deployment.Precedes ∧
      deployment.cpuFrequencies.outcome
        = .ok (places.map fun placement => placement.island.frequency) ∧
      (Platform.Gapless deployment.solution.islands deployment.platform →
        deployment.cpuFrequencies.lines = []) ∧
      (¬ Platform.Gapless deployment.solution.islands deployment.platform →
        deployment.cpuFrequencies.lines = [.gappedCpus (places.map deployment.cpuAt)])) ∧
    ∀ set run descriptors,
      Deployment.of deployment.solution deployment.catalogue = .ok deployment →
      (describeAll set deployment.solution deployment.catalogue run).outcome = .ok descriptors →
      (describeAll set deployment.solution deployment.catalogue run).lines
        = (set.dags.zipIdx.flatMap fun entry =>
            (deployment.describe entry.1 entry.2 run).lines) ∧
      ∀ (index : Nat) (dag : Dag), set.dags[index]? = some dag →
        ((∃ cpus, .gappedCpus cpus ∈ (deployment.describe dag index run).lines) ↔
          ¬ Platform.Gapless deployment.solution.islands deployment.platform) := by
  constructor
  · obtain ⟨places, complete, ordered, table⟩ := exists_places deployment
    have cpus : deployment.tableCpus = places.map deployment.cpuAt := by
      rw [tableCpus, table, List.map_map]
      rfl
    refine ⟨places, complete, ordered, ?_, fun gapless => ?_, fun gapped => ?_⟩
    · rw [cpuFrequencies_eq, table, List.map_map]
      rfl
    · rw [cpuFrequencies_eq, gapLines_of_gapless gapless]
    · rw [cpuFrequencies_eq, gapLines_of_gapped gapped, cpus]
  · intro set run descriptors known converted
    rw [describeAll_eq_describeFrom known] at converted ⊢
    refine ⟨lines_describeFrom converted, fun index dag found => ?_⟩
    obtain ⟨descriptor, described⟩ := describeFrom_succeeds_iff.mp ⟨_, converted⟩ index dag found
    rw [Nat.zero_add] at described
    obtain ⟨inside, -, -, settled, complete, -⟩ := describe_eq_ok.mp described
    rw [← tableCpus_eq_range_iff, ← quiet_iff inside complete]
    push Not
    rfl

/-- A little cluster of unknown capacity with one core more than the numbers leave room for. -/
def oversizedSample : Deployment where
  solution := { sampleSolution with
    islands := [⟨.nan, 1400, [[], [], [], [], []]⟩, ⟨.one, 2000, [[.of 0 0]]⟩] }
  platform := .odroid
  catalogue := .standard

theorem cpuFrequencies_outcome_sample :
    ¬ Platform.Gapless oversizedSample.solution.islands .odroid ∧
    (∃ cpus, oversizedSample.cpuFrequencies.lines = [.gappedCpus cpus]) ∧
    Platform.Gapless sampleSolution.islands .odroid ∧
    (∃ descriptors, (describeAll ⟨[sampleDag]⟩ sampleSolution .standard sampleRun).outcome
      = .ok descriptors) ∧
    ¬ ∃ cpus, .gappedCpus cpus ∈ (sample.describe sampleDag 0 sampleRun).lines := by
  have gapped : ¬ Platform.Gapless oversizedSample.solution.islands .odroid := by
    have table : oversizedSample.tableCpus = [0, 1, 2, 3, 4, 4] := by
      rw [tableCpus, cpuTable_eq, List.mergeSort_of_pairwise (by decide)]
      rfl
    refine fun gapless => absurd (tableCpus_eq_range_iff.mpr gapless) ?_
    rw [table]
    decide
  have gapless : Platform.Gapless sampleSolution.islands .odroid := by
    have table : sample.tableCpus = [0, 1, 2, 3, 4, 5] := by
      rw [tableCpus, cpuTable_eq, List.mergeSort_of_pairwise (by decide)]
      rfl
    have contiguous : sample.tableCpus = List.range sample.tableCpus.length := by
      rw [table]
      rfl
    exact tableCpus_eq_range_iff.mp contiguous
  obtain ⟨⟨places, -, -, -, -, told⟩, -⟩ := cpuFrequencies_outcome oversizedSample
  obtain ⟨-, sets⟩ := cpuFrequencies_outcome sample
  obtain ⟨descriptors, converted⟩ : ∃ descriptors,
      (describeAll ⟨[sampleDag]⟩ sampleSolution .standard sampleRun).outcome = .ok descriptors :=
    ⟨_, rfl⟩
  obtain ⟨-, each⟩ := sets ⟨[sampleDag]⟩ sampleRun descriptors rfl converted
  refine ⟨gapped, ⟨_, told gapped⟩, gapless, ⟨_, converted⟩, ?_⟩
  exact fun warned => (each 0 sampleDag rfl).mp warned gapless

end Deployment

end DagDeploy
