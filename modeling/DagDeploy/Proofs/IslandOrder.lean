import DagDeploy.Proofs.CpuOrder

/-! The order of the islands decides nothing but their numbers, as long as it has nothing to choose:
no task of the dag is listed by several units, and no CPU is given twice. Then every order leads to
the same descriptor or to the same failure, and to the same lines up to the numbers of islands. -/

namespace DagDeploy

/-- The line without the number of an island, which only the line of a placement tells. -/
def LogLine.unnumbered : LogLine → LogLine
  | .placed dag task _ unit cpu kind => .placed dag task 0 unit cpu kind
  | line => line

namespace Logged

variable {α β : Type}

def unnumbered (logged : Logged α) : Logged α :=
  ⟨logged.lines.map LogLine.unnumbered, logged.outcome⟩

theorem unnumbered_bind (first : Logged α) (next : α → Logged β) :
    (first >>= next).unnumbered
      = first.unnumbered >>= fun value => (next value).unnumbered := by
  obtain ⟨lines, outcome⟩ := first
  cases outcome with
  | error failure => rfl
  | ok value => simp [unnumbered]

theorem gappedCpus_mem_unnumbered {logged : Logged α} {cpus : List Nat} :
    .gappedCpus cpus ∈ logged.unnumbered.lines ↔ .gappedCpus cpus ∈ logged.lines := by
  constructor
  · intro member
    obtain ⟨line, present, same⟩ := List.mem_map.mp member
    cases line with
    | gappedCpus => exact same ▸ present
    | _ => cases same
  · exact fun member => List.mem_map.mpr ⟨_, member, rfl⟩

end Logged

/-- No two units of the islands list the same task. -/
def ListedOnce (islands : List Island) (wanted : TaskId) : Prop :=
  (islands.flatMap Island.units).Pairwise fun first second =>
    wanted ∈ first.map Assignment.toTaskId → wanted ∉ second.map Assignment.toTaskId

section listings

variable {islands others : List Island} {wanted : TaskId}

theorem ListedOnce.perm (once : ListedOnce islands wanted) (perm : islands.Perm others) :
    ListedOnce others wanted :=
  (perm.flatMap_right Island.units).pairwise once fun apart also first => apart first also

/-- Of pairwise exclusive elements only one position holds. -/
theorem position_unique {α : Type} {holds : α → Prop} {list : List α}
    (exclusive : list.Pairwise fun first second => holds first → ¬ holds second)
    {position other : Nat} {element further : α} (found : list[position]? = some element)
    (here : holds element) (otherFound : list[other]? = some further) (there : holds further) :
    position = other := by
  obtain ⟨inside, rfl⟩ := List.getElem?_eq_some_iff.mp found
  obtain ⟨otherInside, rfl⟩ := List.getElem?_eq_some_iff.mp otherFound
  rw [List.pairwise_iff_getElem] at exclusive
  rcases Nat.lt_trichotomy position other with before | same | after
  · exact absurd there (exclusive _ _ inside otherInside before here)
  · exact same
  · exact absurd here (exclusive _ _ otherInside inside after there)

/-- A task that is listed once has one listing. -/
theorem ListedOnce.unique (once : ListedOnce islands wanted)
    {islandIndex unitIndex otherIsland otherUnit : Nat}
    (listed : Lists islands wanted islandIndex unitIndex)
    (also : Lists islands wanted otherIsland otherUnit) :
    islandIndex = otherIsland ∧ unitIndex = otherUnit := by
  obtain ⟨within, across⟩ := List.pairwise_flatMap.mp once
  obtain ⟨island, unit, inside, position, member⟩ := listed
  obtain ⟨other, further, otherInside, otherPosition, otherMember⟩ := also
  have exclusive : islands.Pairwise fun first second =>
      (∃ unit ∈ first.units, wanted ∈ unit.map Assignment.toTaskId) →
        ¬ ∃ unit ∈ second.units, wanted ∈ unit.map Assignment.toTaskId :=
    across.imp fun apart ⟨_, present, listed⟩ ⟨_, further, again⟩ =>
      apart _ present _ further listed again
  obtain rfl := position_unique exclusive inside
    ⟨unit, List.mem_of_getElem? position, member⟩ otherInside
    ⟨further, List.mem_of_getElem? otherPosition, otherMember⟩
  obtain rfl : island = other := Option.some.inj (inside.symm.trans otherInside)
  exact ⟨rfl, position_unique (within island (List.mem_of_getElem? inside)) position member
    otherPosition otherMember⟩

theorem Placement.IsFirst.perm {placement : Placement} (once : ListedOnce islands wanted)
    (perm : islands.Perm others) (placed : placement.IsFirst islands wanted) :
    ∃ islandIndex, IsFirst others wanted ⟨islandIndex, placement.island, placement.unitIndex⟩ := by
  obtain ⟨island, unit, inside, position, member⟩ := placed.listed
  obtain rfl : placement.island = island := Option.some.inj (placed.inside.symm.trans inside)
  obtain ⟨islandIndex, found⟩ :=
    List.mem_iff_getElem?.mp (perm.mem_iff.mp (List.mem_of_getElem? inside))
  have listed : Lists others wanted islandIndex placement.unitIndex :=
    ⟨placement.island, unit, found, position, member⟩
  refine ⟨islandIndex, found, listed, fun otherIsland otherUnit also => .inr ?_⟩
  obtain ⟨rfl, rfl⟩ := (once.perm perm).unique listed also
  exact ⟨rfl, Nat.le_refl _⟩

end listings

namespace Deployment

/-- The same solution with its islands in another order. -/
def withIslands (deployment : Deployment) (islands : List Island) : Deployment :=
  { deployment with solution := { deployment.solution with islands } }

/-- The order of the islands has nothing to choose. -/
structure Unambiguous (deployment : Deployment) (index : Nat) : Prop where
  listings : ∀ task, ListedOnce deployment.solution.islands ⟨index, task⟩
  cpus : ((deployment.platform.generalIslands deployment.solution.islands).flatMap
    deployment.platform.cpusOf).Nodup

variable {deployment : Deployment} {islands : List Island} {dag : Dag} {index position : Nat}

section tasks

variable (clear : deployment.Unambiguous index)
  (perm : deployment.solution.islands.Perm islands)
include clear perm

theorem Settles.withIslands {settled : Settled}
    (settles : deployment.Settles dag index position settled) :
    ∃ islandIndex, (deployment.withIslands islands).Settles dag index position
      ⟨settled.solved, settled.task,
        ⟨islandIndex, settled.placement.island, settled.placement.unitIndex⟩⟩ := by
  obtain ⟨islandIndex, placed⟩ := settles.placed.perm (clear.listings position) perm
  exact ⟨islandIndex, settles.ordered, settles.modelled, placed, settles.supported⟩

theorem Blocked.withIslands {solved : SolvedTask} {failure : Failure}
    (blocked : deployment.Blocked dag index position solved failure) :
    (deployment.withIslands islands).Blocked dag index position solved failure := by
  cases blocked with
  | misplaced different => exact .misplaced different
  | surplus ordered beyond => exact .surplus ordered beyond
  | unlisted ordered modelled absent =>
    refine .unlisted ordered modelled fun islandIndex unitIndex listed => ?_
    obtain ⟨island, member, listing⟩ := exists_lists.mp ⟨_, _, listed⟩
    obtain ⟨_, _, before⟩ := exists_lists.mpr ⟨island, perm.mem_iff.mpr member, listing⟩
    exact absent _ _ before
  | @unsupported task placement ordered modelled placed refused =>
    obtain ⟨islandIndex, moved⟩ := placed.perm (clear.listings position) perm
    have kind : deployment.kindAt placement = (deployment.withIslands islands).kindAt
        ⟨islandIndex, placement.island, placement.unitIndex⟩ := rfl
    rw [kind] at refused ⊢
    exact .unsupported ordered modelled moved refused

theorem resolve_withIslands (solved : SolvedTask) :
    ((deployment.withIslands islands).resolve dag index position solved).unnumbered
      = (deployment.resolve dag index position solved).unnumbered := by
  rcases settles_or_blocked deployment dag index position solved with
    ⟨settled, rfl, settles⟩ | ⟨failure, blocked⟩
  · obtain ⟨islandIndex, moved⟩ := settles.withIslands clear perm
    rw [resolve_of_settles settles]
    refine (congrArg Logged.unnumbered (resolve_of_settles moved)).trans ?_
    simp only [Logged.unnumbered, linesOf, List.map_append]
    rfl
  · rw [resolve_of_blocked blocked, resolve_of_blocked (blocked.withIslands clear perm)]

theorem resolveFrom_withIslands (tasks : List SolvedTask) :
    ((deployment.withIslands islands).resolveFrom dag index position tasks).unnumbered
      = (deployment.resolveFrom dag index position tasks).unnumbered := by
  induction tasks generalizing position with
  | nil => rfl
  | cons solved rest ih =>
    simp only [resolveFrom, Logged.unnumbered_bind, resolve_withIslands clear perm, ih]

theorem cpuTable_withIslands :
    (deployment.withIslands islands).cpuTable = deployment.cpuTable := by
  have distinct : deployment.tableCpus.Nodup := tableCpus_perm.nodup_iff.mpr clear.cpus
  have reordered : (deployment.platform.generalCpus islands).Perm
      (deployment.platform.generalCpus deployment.solution.islands) :=
    (perm.symm.filter _).flatMap_right _
  have same : (deployment.withIslands islands).cpuTable.Perm deployment.cpuTable :=
    cpuTable_perm.trans (reordered.trans cpuTable_perm.symm)
  refine same.eq_of_pairwise ?_ (pairwise_mergeSort Prod.fst _) (pairwise_mergeSort Prod.fst _)
  intro first second member otherMember less more
  exact List.inj_on_of_nodup_map distinct (same.mem_iff.mp member) otherMember
    (Nat.le_antisymm less more)

theorem describe_withIslands (run : RunLength) :
    ((deployment.withIslands islands).describe dag index run).unnumbered
      = (deployment.describe dag index run).unnumbered := by
  have frequencies : (deployment.withIslands islands).cpuFrequencies
      = deployment.cpuFrequencies := by
    simp only [cpuFrequencies, cpuTable_withIslands clear perm]
  simp only [describe, Logged.unnumbered_bind, resolveFrom_withIslands clear perm, frequencies]
  rfl

end tasks

/-- Where the order of the islands has nothing to choose, no other order changes what becomes of a
dag, or any line but for the numbers of the islands. -/
theorem describe_ignores_island_order (deployment : Deployment) (islands : List Island) (dag : Dag)
    (index : Nat) (run : RunLength) (clear : deployment.Unambiguous index)
    (perm : deployment.solution.islands.Perm islands) :
    ((deployment.withIslands islands).describe dag index run).outcome
      = (deployment.describe dag index run).outcome ∧
    ((deployment.withIslands islands).describe dag index run).lines.map LogLine.unnumbered
      = (deployment.describe dag index run).lines.map LogLine.unnumbered ∧
    ∀ cpus, .gappedCpus cpus ∈ ((deployment.withIslands islands).describe dag index run).lines ↔
      .gappedCpus cpus ∈ (deployment.describe dag index run).lines := by
  have same : ((deployment.withIslands islands).describe dag index run).unnumbered
      = (deployment.describe dag index run).unnumbered := describe_withIslands clear perm run
  have outcome := congrArg Logged.outcome same
  have lines := congrArg Logged.lines same
  refine ⟨outcome, lines, fun cpus => ?_⟩
  rw [← Logged.gappedCpus_mem_unnumbered, same, Logged.gappedCpus_mem_unnumbered]

theorem describe_ignores_island_order_reversed : sample.Unambiguous 0 ∧
    sampleSolution.islands.Perm sampleSolution.islands.reverse ∧ ∃ descriptor,
      (sample.describe sampleDag 0 sampleRun).outcome = .ok descriptor ∧
      ((sample.withIslands sampleSolution.islands.reverse).describe sampleDag 0 sampleRun).outcome
        = .ok descriptor := by
  have clear : sample.Unambiguous 0 := by
    refine ⟨fun task => ?_, by decide⟩
    simp [ListedOnce, sample, sampleSolution]
    omega
  have perm := sampleSolution.islands.reverse_perm.symm
  obtain ⟨descriptor, described⟩ :
      ∃ descriptor, (sample.describe sampleDag 0 sampleRun).outcome = .ok descriptor := ⟨_, rfl⟩
  have same := (describe_ignores_island_order sample _ sampleDag 0 sampleRun clear perm).1
  exact ⟨clear, perm, descriptor, described, same.trans described⟩

end Deployment

end DagDeploy
