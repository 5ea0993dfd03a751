import DagDeploy.Program
import DagDeploy.Proofs.BoardRules
import DagDeploy.Proofs.Description
import DagDeploy.Proofs.Hyperperiod

/-! Which conversions succeed, as a condition on the input in which no order of the checks is left.
Once the run length is known, no period is too long for a descriptor. -/

namespace DagDeploy

/-- The solution places every task of the dag, once and in order, on units whose kind of task is
supported. -/
structure Dag.Deployable (dag : Dag) (index : Nat) (board : Platform) (solution : Solution)
    (catalogue : Catalogue) : Prop where
  edges : ∀ edge ∈ dag.edges,
    edge.source < dag.tasks.length ∧ edge.target < dag.tasks.length
  order : (solution.tasksOf index).map SolvedTask.task = List.range dag.tasks.length
  listed : ∀ task < dag.tasks.length,
    ∃ island ∈ solution.islands, ∃ unit ∈ island.units,
      ⟨index, task⟩ ∈ unit.map Assignment.toTaskId
  supported : ∀ task < dag.tasks.length, ∀ placement : Placement,
    placement.IsFirst solution.islands ⟨index, task⟩ →
      (board.Accelerates placement.island → .fred ∈ catalogue.supportedKinds) ∧
        (¬ board.Accelerates placement.island → .cpu ∈ catalogue.supportedKinds)

/-- The board must be known even when the set is empty. -/
structure DagSet.Convertible (set : DagSet) (solution : Solution) (catalogue : Catalogue)
    (minSeconds : Nat) : Prop where
  nonzero : ∀ dag ∈ set.dags, dag.period ≠ 0
  common : (set.periods : Multiset Nat).lcm ≤ Period.longest
  span : minSeconds * Period.nsPerSecond ≤ Period.longestSpan
  board : Platform.Mentions solution.platformName "odroid" ∨
    Platform.Mentions solution.platformName "zcu102" ∨
    Platform.Mentions solution.platformName "xavier-agx"
  dags : ∀ board, Platform.Told solution.platformName board →
    ∀ (index : Nat) (dag : Dag), set.dags[index]? = some dag →
      dag.Deployable index board solution catalogue

namespace Deployment

variable {deployment : Deployment} {dag : Dag} {index : Nat} {run : RunLength}

theorem supported_iff {placement : Placement} :
    deployment.kindAt placement ∈ deployment.catalogue.supportedKinds ↔
      (deployment.platform.Accelerates placement.island →
        .fred ∈ deployment.catalogue.supportedKinds) ∧
      (¬ deployment.platform.Accelerates placement.island →
        .cpu ∈ deployment.catalogue.supportedKinds) := by
  unfold kindAt
  by_cases accelerates : deployment.platform.Accelerates placement.island
  · simp [Platform.kindOf_eq_fred.mpr accelerates, accelerates]
  · simp [Platform.kindOf_eq_cpu.mpr accelerates, accelerates]

/-- Solved tasks in order, with a listing and a supported kind each, all settle. -/
theorem complete_of_deployable
    (deployable : dag.Deployable index deployment.platform deployment.solution
      deployment.catalogue) : ∃ settled, deployment.Complete dag index settled := by
  obtain ⟨settled, all, ending⟩ :=
    settled_prefix deployment dag index 0 (deployment.solution.tasksOf index)
  have order := deployable.order
  rcases ending with records | ⟨solved, rest, failure, records, blocked⟩
  · refine ⟨settled, records, ?_, all⟩
    have length := congrArg List.length order
    simpa [records] using length
  · -- The blocked task stands at its own id, which is that of a task with a supported unit.
    exfalso
    have ordered : solved.task = settled.length ∧ settled.length < dag.tasks.length := by
      have own : ((deployment.solution.tasksOf index).map SolvedTask.task)[settled.length]?
          = some solved.task := by
        rw [List.getElem?_map, getElem?_after records, Option.map_some]
      rw [order] at own
      obtain ⟨inside, equal⟩ := List.getElem?_eq_some_iff.mp own
      exact ⟨by simpa using equal.symm, by simpa using inside⟩
    obtain ⟨own, within⟩ := ordered
    rw [Nat.zero_add] at blocked
    cases blocked with
    | misplaced different => exact different own
    | surplus _ beyond => exact Nat.not_le.mpr within (List.getElem?_eq_none_iff.mp beyond)
    | unlisted _ _ absent =>
      obtain ⟨islandIndex, unitIndex, listed⟩ :=
        exists_lists.mpr (deployable.listed settled.length within)
      exact absent islandIndex unitIndex listed
    | unsupported _ _ placed refused =>
      exact refused (supported_iff.mpr (deployable.supported settled.length within _ placed))

theorem deployable_of_complete {settled : List Settled} (inside : dag.Inside)
    (complete : deployment.Complete dag index settled) :
    dag.Deployable index deployment.platform deployment.solution deployment.catalogue where
  edges := inside
  order := complete.order
  listed task within := by
    obtain ⟨entry, -, settles⟩ := complete.task_at within
    exact exists_lists.mp ⟨_, _, settles.placed.listed⟩
  supported task within placement placed := by
    obtain ⟨entry, -, settles⟩ := complete.task_at within
    rw [placed.unique settles.placed]
    exact supported_iff.mp settles.supported

theorem describe_succeeds_iff :
    (∃ descriptor, (deployment.describe dag index run).outcome = .ok descriptor) ↔
      run.hyperPeriod ≤ Period.longest ∧ dag.period ≤ Period.longest ∧
        dag.Deployable index deployment.platform deployment.solution deployment.catalogue := by
  simp only [describe_eq_ok]
  constructor
  · intro ⟨_, inside, fits, fitsToo, settled, complete, _⟩
    exact ⟨fits, fitsToo, deployable_of_complete inside complete⟩
  · intro ⟨fits, fitsToo, deployable⟩
    obtain ⟨settled, complete⟩ := complete_of_deployable deployable
    exact ⟨_, deployable.edges, fits, fitsToo, settled, complete, rfl⟩

theorem describeFrom_succeeds_iff {dags : List Dag} :
    (∃ descriptors, (deployment.describeFrom run index dags).outcome = .ok descriptors) ↔
      ∀ offset dag, dags[offset]? = some dag →
        ∃ descriptor, (deployment.describe dag (index + offset) run).outcome = .ok descriptor := by
  induction dags generalizing index with
  | nil => simp [describeFrom]
  | cons dag rest ih =>
    simp only [describeFrom, Logged.outcome_bind_eq_ok, Logged.outcome_pure, Except.ok.injEq]
    constructor
    · intro ⟨_, first, described, others, converted, _⟩ offset later found
      cases offset with
      | zero => cases found; exact ⟨first, described⟩
      | succ offset =>
        obtain ⟨descriptor, after⟩ := ih.mp ⟨others, converted⟩ offset later found
        exact ⟨descriptor, by rwa [Nat.add_assoc, Nat.add_comm 1] at after⟩
    · intro all
      obtain ⟨first, described⟩ := all 0 dag rfl
      have later : ∀ offset dag, rest[offset]? = some dag → ∃ descriptor,
          (deployment.describe dag (index + 1 + offset) run).outcome = .ok descriptor := by
        intro offset dag found
        rw [Nat.add_assoc, Nat.add_comm 1]
        exact all (offset + 1) dag found
      obtain ⟨others, converted⟩ := ih.mpr later
      exact ⟨_, first, described, others, converted, rfl⟩

/-- One descriptor for each dag, in the same order. -/
theorem describeFrom_eq_ok {dags : List Dag} {descriptors : List Descriptor} :
    (deployment.describeFrom run index dags).outcome = .ok descriptors ↔
      descriptors.length = dags.length ∧
        ∀ (offset : Nat) (dag : Dag) (descriptor : Descriptor), dags[offset]? = some dag →
          descriptors[offset]? = some descriptor →
            (deployment.describe dag (index + offset) run).outcome = .ok descriptor := by
  induction dags generalizing index descriptors with
  | nil => simp [describeFrom, eq_comm]
  | cons dag rest ih =>
    simp only [describeFrom, Logged.outcome_bind_eq_ok, Logged.outcome_pure, Except.ok.injEq]
    constructor
    · intro ⟨first, described, others, converted, same⟩
      obtain ⟨count, each⟩ := ih.mp converted
      subst same
      refine ⟨by rw [List.length_cons, count, List.length_cons], ?_⟩
      intro offset later descriptor found told
      cases offset with
      | zero => cases found; cases told; exact described
      | succ offset =>
        have after := each offset later descriptor found told
        rwa [Nat.add_assoc, Nat.add_comm 1] at after
    · intro ⟨count, each⟩
      cases descriptors with
      | nil => cases count
      | cons first others =>
        have converted : (deployment.describeFrom run (index + 1) rest).outcome = .ok others := by
          refine ih.mpr ⟨Nat.succ.inj count, fun offset later descriptor found told => ?_⟩
          rw [Nat.add_assoc, Nat.add_comm 1]
          exact each (offset + 1) later descriptor found told
        exact ⟨first, each 0 dag first rfl rfl, others, converted, rfl⟩

/-- When all dags are described, their lines follow each other. -/
theorem lines_describeFrom {dags : List Dag} {descriptors : List Descriptor}
    (converted : (deployment.describeFrom run index dags).outcome = .ok descriptors) :
    (deployment.describeFrom run index dags).lines
      = (dags.zipIdx index).flatMap fun entry =>
          (deployment.describe entry.1 entry.2 run).lines := by
  induction dags generalizing index descriptors with
  | nil => rfl
  | cons dag rest ih =>
    simp only [describeFrom, Logged.outcome_bind_eq_ok] at converted
    obtain ⟨first, described, others, further, -⟩ := converted
    rw [List.zipIdx_cons, List.flatMap_cons, ← ih further]
    cases here : deployment.describe dag index run with
    | mk lines outcome =>
      cases later : deployment.describeFrom run (index + 1) rest with
      | mk laterLines laterOutcome =>
        rw [here] at described
        rw [later] at further
        obtain rfl : outcome = .ok first := described
        obtain rfl : laterOutcome = .ok others := further
        simp only [describeFrom, here, later, Logged.bind_ok, Logged.lines_pure, List.append_nil]

theorem describeAll_eq_describeFrom {solution : Solution} {catalogue : Catalogue}
    (known : Deployment.of solution catalogue = .ok deployment) (set : DagSet) :
    describeAll set solution catalogue run = deployment.describeFrom run 0 set.dags := by
  rw [describeAll, known, Logged.ofExcept_ok, pure_bind]

theorem of_eq_ok {solution : Solution} {catalogue : Catalogue} :
    Deployment.of solution catalogue = .ok deployment ↔
      ∃ board, Platform.Told solution.platformName board ∧
        deployment = ⟨solution, board, catalogue⟩ := by
  simp only [Deployment.of, ← Platform.ofName_eq_ok]
  cases Platform.ofName solution.platformName with
  | error failure => simp [Bind.bind, Except.bind]
  | ok board => simp [Bind.bind, Except.bind, Pure.pure, Except.pure, eq_comm]

theorem describeAll_eq_ok {set : DagSet} {solution : Solution} {catalogue : Catalogue}
    {descriptors : List Descriptor} :
    (describeAll set solution catalogue run).outcome = .ok descriptors ↔
      ∃ board, Platform.Told solution.platformName board ∧
        descriptors.length = set.dags.length ∧
        ∀ (index : Nat) (dag : Dag) (descriptor : Descriptor), set.dags[index]? = some dag →
          descriptors[index]? = some descriptor →
            (describe ⟨solution, board, catalogue⟩ dag index run).outcome = .ok descriptor := by
  simp only [describeAll, Logged.outcome_bind_eq_ok, Logged.outcome_ofExcept, of_eq_ok]
  constructor
  · intro ⟨_, ⟨board, told, same⟩, converted⟩
    subst same
    have described := describeFrom_eq_ok.mp converted
    simp only [Nat.zero_add] at described
    exact ⟨board, told, described⟩
  · intro ⟨board, told, described⟩
    refine ⟨_, ⟨board, told, rfl⟩, describeFrom_eq_ok.mpr ?_⟩
    simpa only [Nat.zero_add] using described

theorem describeAll_succeeds_iff {set : DagSet} {solution : Solution} {catalogue : Catalogue} :
    (∃ descriptors, (describeAll set solution catalogue run).outcome = .ok descriptors) ↔
      (∃ board, Platform.Told solution.platformName board) ∧
        ∀ board, Platform.Told solution.platformName board →
          ∀ (index : Nat) (dag : Dag), set.dags[index]? = some dag →
            run.hyperPeriod ≤ Period.longest ∧ dag.period ≤ Period.longest ∧
              dag.Deployable index board solution catalogue := by
  simp only [describeAll, Logged.outcome_bind_eq_ok, Logged.outcome_ofExcept, of_eq_ok]
  constructor
  · intro converts
    obtain ⟨descriptors, _, ⟨board, told, rfl⟩, converted⟩ := converts
    refine ⟨⟨board, told⟩, fun same sameTold index dag found => ?_⟩
    obtain rfl := Platform.told_unique sameTold told
    have described := describeFrom_succeeds_iff.mp ⟨descriptors, converted⟩ index dag found
    rw [Nat.zero_add] at described
    exact describe_succeeds_iff.mp described
  · intro ⟨⟨board, told⟩, all⟩
    have each : ∀ (offset : Nat) (dag : Dag), set.dags[offset]? = some dag → ∃ descriptor,
        (describe ⟨solution, board, catalogue⟩ dag (0 + offset) run).outcome = .ok descriptor := by
      intro offset dag found
      rw [Nat.zero_add]
      exact describe_succeeds_iff.mpr (all board told offset dag found)
    obtain ⟨descriptors, converted⟩ := describeFrom_succeeds_iff.mpr each
    exact ⟨descriptors, _, ⟨board, told, rfl⟩, converted⟩

end Deployment

/-- The run length of a set bounds the hyperperiod and all periods that a descriptor states. -/
theorem RunLength.describe_fits {set : DagSet} {iterations minSeconds : Nat} {run : RunLength}
    (computed : (RunLength.of set.periods iterations minSeconds).outcome = .ok run) {dag : Dag}
    (member : dag ∈ set.dags) : run.hyperPeriod ≤ Period.longest ∧ dag.period ≤ Period.longest := by
  have fits := RunLength.hyperPeriod_le computed
  have least := RunLength.period_le computed (List.mem_map_of_mem member)
  exact ⟨fits, Nat.le_trans least fits⟩

/-- A conversion succeeds exactly on convertible input. Its only complaint about lengths comes from
the computation of the run length, never from a descriptor. -/
theorem convert_succeeds_iff (set : DagSet) (solution : Solution) (catalogue : Catalogue)
    (iterations minSeconds : Nat) :
    ((∃ descriptors, (convert set solution catalogue iterations minSeconds).outcome
        = .ok descriptors) ↔ set.Convertible solution catalogue minSeconds) ∧
      ∀ run, (RunLength.of set.periods iterations minSeconds).outcome = .ok run →
        ∀ (deployment : Deployment), ∀ dag ∈ set.dags, ∀ index other,
          (deployment.describe dag index run).outcome ≠ .error (.hyperPeriodOverflow other) := by
  refine ⟨⟨?_, ?_⟩, ?_⟩
  · intro ⟨descriptors, converted⟩
    obtain ⟨run, computed, described⟩ := Logged.outcome_bind_eq_ok.mp converted
    obtain ⟨nonzero, common, span⟩ := (RunLength.of_succeeds_iff _ _ _).mp ⟨run, computed⟩
    obtain ⟨told, all⟩ := Deployment.describeAll_succeeds_iff.mp ⟨descriptors, described⟩
    exact {
      nonzero := fun dag member => nonzero dag.period (List.mem_map_of_mem member)
      common, span
      board := Platform.told_iff.mp told
      dags := fun board isBoard index dag found => (all board isBoard index dag found).2.2 }
  · intro convertible
    have nonzero : ∀ period ∈ set.periods, period ≠ 0 := by
      intro period member
      obtain ⟨dag, present, rfl⟩ := List.mem_map.mp member
      exact convertible.nonzero dag present
    obtain ⟨run, computed⟩ := (RunLength.of_succeeds_iff _ iterations _).mpr
      ⟨nonzero, convertible.common, convertible.span⟩
    have ready : ∀ board, Platform.Told solution.platformName board →
        ∀ (index : Nat) (dag : Dag), set.dags[index]? = some dag →
          run.hyperPeriod ≤ Period.longest ∧ dag.period ≤ Period.longest ∧
            dag.Deployable index board solution catalogue := by
      intro board told index dag found
      obtain ⟨fits, fitsToo⟩ := RunLength.describe_fits computed (List.mem_of_getElem? found)
      exact ⟨fits, fitsToo, convertible.dags board told index dag found⟩
    obtain ⟨descriptors, described⟩ := Deployment.describeAll_succeeds_iff.mpr
      ⟨Platform.told_iff.mpr convertible.board, ready⟩
    exact ⟨descriptors, Logged.outcome_bind_eq_ok.mpr ⟨run, computed, described⟩⟩
  · intro run computed deployment dag member index other stopped
    obtain ⟨fits, fitsToo⟩ := RunLength.describe_fits computed member
    rcases Deployment.describe_eq_overflow stopped with long | long <;> omega

end DagDeploy
