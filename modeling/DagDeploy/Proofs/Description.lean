import DagDeploy.Proofs.Resolution
import DagDeploy.Proofs.TaskGraph

/-! What the conversion of one dag gives, for every way in which it can end: an edge leaves the dag,
a solved task is blocked, too few tasks are solved, a period is too long, or all is well. In each
case the lines and the outcome are given in full. -/

namespace DagDeploy.Deployment

variable (deployment : Deployment)

/-- All solved tasks of the dag settle, and they are as many as its tasks. -/
structure Complete (dag : Dag) (index : Nat) (settled : List Settled) : Prop where
  records : deployment.solution.tasksOf index = settled.map Settled.solved
  count : settled.length = dag.tasks.length
  all : deployment.AllSettle dag index 0 settled

def cycleLines (dag : Dag) (index : Nat) : List LogLine :=
  if dag.graph.isCyclic then [.cycle index] else []

def tableCpus : List Nat := deployment.cpuTable.map Prod.fst

def gapLines : List LogLine :=
  if deployment.tableCpus = List.range deployment.tableCpus.length then []
  else [.gappedCpus deployment.tableCpus]

/-- The descriptor of a dag whose tasks are all settled. -/
def descriptorOf (dag : Dag) (index : Nat) (run : RunLength) (settled : List Settled) :
    Descriptor :=
  deployment.assemble dag index run dag.graph (settled.map deployment.entryOf)
    (deployment.cpuTable.map Prod.snd) run.hyperPeriod dag.period
    (Graph.matrix dag.tasks.length (dag.edges.map fun edge => (edge.source, edge.target)))

variable {deployment} {dag : Dag} {index : Nat} {run : RunLength} {settled : List Settled}

theorem Complete.settles_at (complete : deployment.Complete dag index settled) {position : Nat}
    {entry : Settled} (found : settled[position]? = some entry) :
    deployment.Settles dag index position entry := by
  have settles := complete.all position entry found
  rwa [Nat.zero_add] at settles

theorem Complete.task_at (complete : deployment.Complete dag index settled) {task : Nat}
    (inside : task < dag.tasks.length) :
    ∃ entry, settled[task]? = some entry ∧ deployment.Settles dag index task entry := by
  have present : task < settled.length := complete.count ▸ inside
  have found := List.getElem?_eq_getElem present
  exact ⟨_, found, complete.settles_at found⟩

theorem Complete.order (complete : deployment.Complete dag index settled) :
    (deployment.solution.tasksOf index).map SolvedTask.task = List.range dag.tasks.length := by
  rw [complete.records, List.map_map, ← complete.count]
  apply List.ext_getElem (by simp)
  intro position inside _
  have present : position < settled.length := by simpa using inside
  have settles := complete.settles_at (List.getElem?_eq_getElem present)
  simpa using settles.ordered

theorem cpuFrequencies_eq :
    deployment.cpuFrequencies = ⟨deployment.gapLines, .ok (deployment.cpuTable.map Prod.snd)⟩ := by
  have said : (if deployment.tableCpus != List.range deployment.tableCpus.length then
      [LogLine.gappedCpus deployment.tableCpus] else []) = deployment.gapLines := by
    unfold gapLines
    by_cases contiguous : deployment.tableCpus = List.range deployment.tableCpus.length
    · rw [if_pos contiguous, if_neg (by simpa using contiguous)]
    · rw [if_neg contiguous, if_pos (by simpa using contiguous)]
  simp only [cpuFrequencies, Logged.sayIf_bind, Logged.lines_pure, Logged.outcome_pure,
    List.append_nil]
  exact congrArg (Logged.mk · _) said

theorem bounded_of_le {ns : Nat} (fits : ns ≤ Period.longest) :
    bounded index ns = pure (ns : Int) := if_pos fits

theorem bounded_of_lt {ns : Nat} (long : Period.longest < ns) :
    bounded index ns = Logged.fail (.hyperPeriodOverflow index) := if_neg (Nat.not_le.mpr long)

theorem describe_of_stray {edge : Edge} (stray : dag.stray? = some edge) :
    deployment.describe dag index run
      = Logged.fail
        (.inconsistent (.invalidEdge index edge.source edge.target dag.tasks.length)) := by
  simp only [describe, Dag.toGraph_of_stray stray, Logged.fail_bind]

theorem describe_of_blocked {solved : SolvedTask} {rest : List SolvedTask} {failure : Failure}
    (inside : dag.Inside)
    (records : deployment.solution.tasksOf index = settled.map Settled.solved ++ solved :: rest)
    (all : deployment.AllSettle dag index 0 settled)
    (blocked : deployment.Blocked dag index settled.length solved failure) :
    deployment.describe dag index run
      = ⟨cycleLines dag index ++ deployment.linesFrom index 0 settled, .error failure⟩ := by
  have here : deployment.Blocked dag index (0 + settled.length) solved failure := by
    rwa [Nat.zero_add]
  simp only [describe, Dag.toGraph_of_inside inside, Logged.bind_ok, records,
    resolveFrom_of_blocked rest all here, Logged.bind_error, cycleLines]

theorem describe_of_short (inside : dag.Inside)
    (records : deployment.solution.tasksOf index = settled.map Settled.solved)
    (short : settled.length ≠ dag.tasks.length)
    (all : deployment.AllSettle dag index 0 settled) :
    deployment.describe dag index run
      = ⟨cycleLines dag index ++ deployment.linesFrom index 0 settled,
        .error (.inconsistent (.taskCountMismatch index dag.tasks.length settled.length))⟩ := by
  simp only [describe, Dag.toGraph_of_inside inside, Logged.bind_ok, records,
    resolveFrom_of_settled all, List.length_map, ne_eq, short, not_false_eq_true, if_true,
    Logged.fail, List.append_nil, cycleLines]

/-- The lines on the CPU table come before the periods are checked. -/
theorem describe_of_complete (inside : dag.Inside)
    (complete : deployment.Complete dag index settled) :
    deployment.describe dag index run
      = ⟨cycleLines dag index ++ (deployment.linesFrom index 0 settled ++ deployment.gapLines),
        if run.hyperPeriod ≤ Period.longest ∧ dag.period ≤ Period.longest then
          .ok (deployment.descriptorOf dag index run settled)
        else .error (.hyperPeriodOverflow index)⟩ := by
  have tail : ∀ frequencies, (do
      let hyperPeriod ← bounded index run.hyperPeriod
      let period ← bounded index dag.period
      let adjacency ← Logged.ofExcept (dag.graph.adjacency.mapError .fault)
      return deployment.assemble dag index run dag.graph (settled.map deployment.entryOf)
        frequencies hyperPeriod period adjacency) = (⟨[],
      if run.hyperPeriod ≤ Period.longest ∧ dag.period ≤ Period.longest then
        .ok (deployment.assemble dag index run dag.graph (settled.map deployment.entryOf)
          frequencies run.hyperPeriod dag.period (Graph.matrix dag.tasks.length
            (dag.edges.map fun edge => (edge.source, edge.target))))
      else .error (.hyperPeriodOverflow index)⟩ : Logged Descriptor) := by
    intro frequencies
    by_cases fits : run.hyperPeriod ≤ Period.longest
    case neg =>
      simp only [bounded_of_lt (Nat.not_le.mp fits), Logged.fail_bind, fits, false_and, if_false]
      rfl
    by_cases fitsToo : dag.period ≤ Period.longest
    case neg =>
      simp only [bounded_of_le fits, pure_bind, bounded_of_lt (Nat.not_le.mp fitsToo),
        Logged.fail_bind, fitsToo, and_false, if_false]
      rfl
    simp only [bounded_of_le fits, bounded_of_le fitsToo, pure_bind,
      Dag.adjacency_of_inside inside, Logged.ofExcept_mapError_ok, fits, fitsToo,
      and_self, if_true]
    rfl
  have sameLength : (settled.map deployment.entryOf).length = dag.tasks.length := by
    rw [List.length_map, complete.count]
  simp only [describe, Dag.toGraph_of_inside inside, Logged.bind_ok, complete.records,
    resolveFrom_of_settled complete.all, sameLength, ne_eq, not_true, if_false,
    cpuFrequencies_eq, tail, List.append_nil, cycleLines]
  rfl

/-- Every way in which the conversion of a dag can end. -/
theorem describe_cases (deployment : Deployment) (dag : Dag) (index : Nat) :
    (∃ edge, dag.stray? = some edge) ∨
    dag.Inside ∧ ∃ settled, deployment.AllSettle dag index 0 settled ∧
      ((∃ solved rest failure,
          deployment.solution.tasksOf index = settled.map Settled.solved ++ solved :: rest ∧
          deployment.Blocked dag index settled.length solved failure) ∨
        deployment.solution.tasksOf index = settled.map Settled.solved ∧
          settled.length ≠ dag.tasks.length ∨
        deployment.Complete dag index settled) := by
  cases searched : dag.stray? with
  | some edge => exact .inl ⟨edge, rfl⟩
  | none =>
    obtain ⟨settled, all, ending⟩ :=
      settled_prefix deployment dag index 0 (deployment.solution.tasksOf index)
    refine .inr ⟨Dag.stray_eq_none.mp searched, settled, all, ?_⟩
    rcases ending with records | ⟨solved, rest, failure, records, blocked⟩
    · by_cases count : settled.length = dag.tasks.length
      · exact .inr (.inr ⟨records, count, all⟩)
      · exact .inr (.inl ⟨records, count⟩)
    · rw [Nat.zero_add] at blocked
      exact .inl ⟨solved, rest, failure, records, blocked⟩

/-- A dag whose tasks do not all settle is refused, and not for its periods. -/
theorem describe_of_incomplete
    (incomplete : ¬ (dag.Inside ∧ ∃ settled, deployment.Complete dag index settled)) :
    ∃ failure, (deployment.describe dag index run).outcome = .error failure ∧
      ∀ other, failure ≠ .hyperPeriodOverflow other := by
  rcases describe_cases deployment dag index with ⟨edge, stray⟩ | ⟨inside, settled, all, ending⟩
  · rw [describe_of_stray stray]
    exact ⟨_, rfl, by simp⟩
  rcases ending with ⟨solved, rest, failure, records, blocked⟩ | ⟨records, short⟩ | complete
  · rw [describe_of_blocked inside records all blocked]
    refine ⟨failure, rfl, ?_⟩
    cases blocked
    all_goals simp
  · rw [describe_of_short inside records short all]
    exact ⟨_, rfl, by simp⟩
  · exact absurd ⟨inside, settled, complete⟩ incomplete

theorem describe_eq_ok {descriptor : Descriptor} :
    (deployment.describe dag index run).outcome = .ok descriptor ↔
      dag.Inside ∧ run.hyperPeriod ≤ Period.longest ∧ dag.period ≤ Period.longest ∧
        ∃ settled, deployment.Complete dag index settled ∧
          descriptor = deployment.descriptorOf dag index run settled := by
  constructor
  · intro described
    by_cases ready : dag.Inside ∧ ∃ settled, deployment.Complete dag index settled
    · obtain ⟨inside, settled, complete⟩ := ready
      rw [describe_of_complete inside complete] at described
      simp only at described
      split at described
      next fits =>
        cases described
        exact ⟨inside, fits.1, fits.2, settled, complete, rfl⟩
      · cases described
    · obtain ⟨failure, stopped, -⟩ := describe_of_incomplete ready
      rw [stopped] at described
      cases described
  · intro result
    obtain ⟨inside, fits, fitsToo, settled, complete, rfl⟩ := result
    rw [describe_of_complete inside complete]
    exact if_pos ⟨fits, fitsToo⟩

/-- Only periods that are too long are told as such. -/
theorem describe_eq_overflow {other : Nat}
    (stopped : (deployment.describe dag index run).outcome = .error (.hyperPeriodOverflow other)) :
    Period.longest < run.hyperPeriod ∨ Period.longest < dag.period := by
  by_cases ready : dag.Inside ∧ ∃ settled, deployment.Complete dag index settled
  · obtain ⟨inside, settled, complete⟩ := ready
    rw [describe_of_complete inside complete] at stopped
    simp only at stopped
    split at stopped
    · cases stopped
    next long => omega
  · obtain ⟨failure, alsoStopped, different⟩ := describe_of_incomplete ready
    rw [alsoStopped] at stopped
    exact absurd (Except.error.inj stopped) (different other)

/-- A little cluster, a part of a big one, and an accelerator, with tasks of two dags. -/
def sampleSolution : Solution where
  platformName := "odroid-xu4"
  islands := [
    ⟨.ofRank false 0x3fe0000000000000, 1400, [[.of 0 0, .of 1 0], [], [], [.of 1 1]]⟩,
    ⟨.one, 2000, [[], [.of 0 2]]⟩,
    ⟨.ofRank false 0x4000000000000000, 300, [[.of 0 1]]⟩]
  tasks := [⟨0, 0, 2000999, 50000000⟩, ⟨1, 0, 7, 8⟩, ⟨0, 1, 899473, 30000000⟩, ⟨0, 2, -1999, 9⟩]

def sample : Deployment := ⟨sampleSolution, .odroid, .standard⟩

def sampleDag : Dag where
  tasks := [⟨1000000⟩, ⟨0⟩, ⟨2500⟩]
  edges := [⟨0, 1, none⟩, ⟨0, 2, some 64⟩]
  period := 100000000
  deadline := 90000500

def sampleRun : RunLength := ⟨100000000, 10⟩

end DagDeploy.Deployment
