import DagDeploy.Proofs.Acceptance
import DagDeploy.Proofs.CheckedSteps
import DagDeploy.Proofs.FailureCauses

/-! The conversion is never trapped: on data of the sizes that documents can have, it comes to the
same success or failure, with the same lines, as the plain one. The lists of the draft agree with
the tasks that are resolved so far, which is what each access to them rests on. -/

namespace DagDeploy

/-- Tasks and edges that a graph has room for, and times that signed words hold. -/
structure Dag.Sized (dag : Dag) : Prop where
  tasks : dag.tasks.length < 2 ^ 32 - 1
  edges : dag.edges.length < 2 ^ 32 - 1
  references : ∀ task ∈ dag.tasks, Checked.Signed task.wcetRef
  deadline : Checked.Signed dag.deadline

/-- Islands with room for the cores before their units, and times that signed words hold. -/
structure Solution.Sized (solution : Solution) : Prop where
  units : ∀ island ∈ solution.islands, island.units.length < 2 ^ 64 - 4
  wcets : ∀ solved ∈ solution.tasks, Checked.Signed solved.wcet
  deadlines : ∀ solved ∈ solution.tasks, Checked.Signed solved.deadline

namespace Checked

/-- The draft once the first tasks are resolved: their entries, and for the tasks that are left
their reference times. -/
def draftOf (dag : Dag) (done : List ResolvedTask) : Draft where
  wcets := done.map ResolvedTask.wcet ++
    (dag.tasks.drop done.length).map fun task => Period.toMicros .towardZero task.wcetRef
  kinds := done.map ResolvedTask.kind
  runtimes := done.map ResolvedTask.runtime
  deadlines := done.map ResolvedTask.deadline
  cpus := done.map ResolvedTask.cpu
  kernels := done.map ResolvedTask.kernel

variable {deployment : Deployment} {dag : Dag} {index : Nat} {run : RunLength}
  {done : List ResolvedTask} {solved : SolvedTask}

theorem wcets_draftOf {task : Task} (next : dag.tasks[done.length]? = some task) :
    (draftOf dag done).wcets = done.map ResolvedTask.wcet ++
      Period.toMicros .towardZero task.wcetRef ::
        (dag.tasks.drop (done.length + 1)).map fun task =>
          Period.toMicros .towardZero task.wcetRef := by
  obtain ⟨inside, same⟩ := List.getElem?_eq_some_iff.mp next
  rw [draftOf, List.drop_eq_getElem_cons inside, same, List.map_cons]

/-- The reference time of the next task is there, and is mended where it stands. -/
theorem mend_wcets {task : Task} (next : dag.tasks[done.length]? = some task) (runtime : Int) :
    mend (draftOf dag done).wcets done.length runtime
      = pure (done.map ResolvedTask.wcet ++ Deployment.nominalWcet task runtime ::
        (dag.tasks.drop (done.length + 1)).map fun task =>
          Period.toMicros .towardZero task.wcetRef) := by
  have present : (draftOf dag done).wcets[done.length]?
      = some (Period.toMicros .towardZero task.wcetRef) := by
    simp [wcets_draftOf next]
  have inside : done.length < (draftOf dag done).wcets.length :=
    (List.getElem?_eq_some_iff.mp present).1
  simp only [mend, read, present, pure_bind, write, inside, if_true, Deployment.nominalWcet]
  split <;> simp [wcets_draftOf next]

example : mend [] 0 5 = throw (.outside 0 0) := rfl

/-- The draft grows as the list of resolved tasks does. -/
theorem resolve_eq (sized : deployment.solution.Sized)
    (listed : solved ∈ deployment.solution.tasks) :
    resolve deployment dag index (draftOf dag done) solved
      = ofLogged (deployment.resolve dag index done.length solved) >>= fun resolved =>
          pure (draftOf dag (done ++ [resolved])) := by
  have position : (draftOf dag done).runtimes.length = done.length := List.length_map _
  by_cases ordered : solved.task = done.length
  case neg =>
    simp only [resolve, Deployment.resolve, position, ne_eq, ordered, not_false_eq_true, if_true,
      ofLogged_fail, fail_bind]
  cases next : dag.tasks[done.length]? with
  | none =>
    have beyond : dag.tasks.length ≤ done.length := List.getElem?_eq_none_iff.mp next
    simp only [resolve, Deployment.resolve, position, ne_eq, ordered, not_true, if_false, beyond,
      if_true, next, ofLogged_fail, fail_bind]
  | some task =>
    have inside : ¬ dag.tasks.length ≤ done.length :=
      Nat.not_le.mpr (List.getElem?_eq_some_iff.mp next).1
    simp only [resolve, Deployment.resolve, position, ne_eq, ordered, not_true, if_false, inside,
      next, toMicros_eq _ (sized.wcets solved listed), toMicros_eq _ (sized.deadlines solved listed),
      mend_wcets next, pure_bind, ofLogged_bind, ofLogged_pure, bind_assoc]
    -- The island and the unit are those that the search came across, so both are there.
    apply ofLogged_bind_congr
    intro placement found
    have first := Placement.find_eq_ok.mp found
    have island : read deployment.solution.islands placement.islandIndex
        = pure placement.island := by
      simp only [read, first.inside]
    have unit : cpuOf deployment.platform placement.island placement.unitIndex
        = pure (deployment.platform.cpuOf placement.island placement.unitIndex) :=
      cpuOf_eq (sized.units _ (List.mem_of_getElem? first.inside)) first.unit_inside
    simp only [island, unit, pure_bind]
    simp [draftOf, Deployment.entry]

theorem resolveFrom_eq (sized : deployment.solution.Sized) {tasks : List SolvedTask}
    (listed : ∀ solved ∈ tasks, solved ∈ deployment.solution.tasks) :
    tasks.foldlM (resolve deployment dag index) (draftOf dag done)
      = ofLogged (deployment.resolveFrom dag index done.length tasks) >>= fun resolved =>
          pure (draftOf dag (done ++ resolved)) := by
  induction tasks generalizing done with
  | nil =>
    simp only [List.foldlM_nil, Deployment.resolveFrom, ofLogged_pure, pure_bind, List.append_nil]
  | cons solved rest ih =>
    obtain ⟨first, others⟩ := List.forall_mem_cons.mp listed
    have next : ∀ resolved : ResolvedTask,
        (done ++ [resolved]).length = done.length + 1 := fun resolved => by simp
    simp only [List.foldlM_cons, resolve_eq sized first, bind_assoc, pure_bind, ih others, next,
      Deployment.resolveFrom, ofLogged_bind, ofLogged_pure, List.append_assoc,
      List.singleton_append]

theorem toMicros_bounded {ns : Nat} {bound : Int}
    (fits : (Deployment.bounded index ns).outcome = .ok bound) :
    toMicros .towardZero bound = pure (Period.toMicros .towardZero bound) := by
  apply toMicros_eq
  by_cases short : ns ≤ Period.longest
  · rw [Deployment.bounded_of_le short] at fits
    cases fits
    have limit : Period.longest < 0x8000000000000000 := by decide
    unfold Signed
    omega
  · rw [Deployment.bounded_of_lt (Nat.not_le.mp short)] at fits
    cases fits

/-- Once all tasks are resolved, no reference time is left in the draft. -/
theorem wcets_full (count : done.length = dag.tasks.length) :
    (draftOf dag done).wcets = done.map ResolvedTask.wcet := by
  simp [draftOf, count]

theorem describe_eq (dagSized : dag.Sized) (sized : deployment.solution.Sized) :
    describe deployment dag index run = ofLogged (deployment.describe dag index run) := by
  have references : dag.tasks.mapM (fun task => toMicros .towardZero task.wcetRef)
      = pure (dag.tasks.map fun task => Period.toMicros .towardZero task.wcetRef) :=
    mapM_eq_map fun task member => toMicros_eq _ (dagSized.references task member)
  have blank : (⟨dag.tasks.map fun task => Period.toMicros .towardZero task.wcetRef,
      [], [], [], [], []⟩ : Draft) = draftOf dag [] := rfl
  have listed : ∀ solved ∈ deployment.solution.tasksOf index,
      solved ∈ deployment.solution.tasks := fun solved => List.mem_of_mem_filter
  simp only [describe, Deployment.describe, toGraph_eq dagSized.tasks dagSized.edges, references,
    blank, resolveFrom_eq sized listed, cpuFrequencies_eq sized.units, ofLogged_bind, pure_bind,
    bind_assoc, List.nil_append]
  apply ofLogged_bind_congr
  intro graph built
  obtain ⟨inside, rfl⟩ := Dag.toGraph_eq_ok built
  apply ofLogged_bind_congr
  intro resolved _
  have length : (draftOf dag resolved).runtimes.length = resolved.length := List.length_map _
  by_cases count : resolved.length = dag.tasks.length
  case neg =>
    simp only [length, count, ne_eq, not_false_eq_true, if_true, ofLogged_fail]
  simp only [length, count, ne_eq, not_true, if_false, ofLogged_bind]
  apply ofLogged_bind_congr
  intro frequencies _
  apply ofLogged_bind_congr
  intro hyperPeriod fits
  apply ofLogged_bind_congr
  intro period fitsToo
  simp only [toMicros_bounded fits, toMicros_bounded fitsToo, toMicros_eq _ dagSized.deadline,
    adjacency_eq inside, Dag.adjacency_of_inside inside, Logged.ofExcept_mapError_ok, pure_bind,
    ofLogged_pure, wcets_full count]
  rfl

theorem describeFrom_eq (sized : deployment.solution.Sized) {dags : List Dag}
    (dagsSized : ∀ dag ∈ dags, dag.Sized) :
    describeFrom deployment run index dags
      = ofLogged (deployment.describeFrom run index dags) := by
  induction dags generalizing index with
  | nil => simp only [describeFrom, Deployment.describeFrom, ofLogged_pure]
  | cons dag rest ih =>
    obtain ⟨first, others⟩ := List.forall_mem_cons.mp dagsSized
    simp only [describeFrom, Deployment.describeFrom, describe_eq first sized, ih others,
      ofLogged_bind, ofLogged_pure]

variable {set : DagSet} {solution : Solution} {catalogue : Catalogue}

theorem describeAll_eq (sized : solution.Sized) (dagsSized : ∀ dag ∈ set.dags, dag.Sized) :
    describeAll set solution catalogue run
      = ofLogged (DagDeploy.describeAll set solution catalogue run) := by
  simp only [describeAll, DagDeploy.describeAll, ofLogged_bind]
  apply ofLogged_bind_congr
  intro deployment known
  obtain ⟨board, -, rfl⟩ := Deployment.of_eq_ok.mp known
  exact describeFrom_eq sized dagsSized

theorem convert_eq {iterations minSeconds : Nat} (sized : solution.Sized)
    (dagsSized : ∀ dag ∈ set.dags, dag.Sized) :
    convert set solution catalogue iterations minSeconds
      = ofLogged (DagDeploy.convert set solution catalogue iterations minSeconds) := by
  simp only [convert, DagDeploy.convert, runLength_eq, describeAll_eq sized dagsSized,
    ofLogged_bind]

/-- The checked computation is never trapped, and does what the plain one does, which in turn never
asks its graph for what is not there. -/
structure Safe {α : Type} (checked : Checked α) (plain : Logged α) : Prop where
  untrapped : ∀ trap, checked.run.outcome ≠ .ok (.error trap)
  agrees : checked = ofLogged plain
  faultless : ∀ cause, plain.outcome ≠ .error (.fault cause)

theorem safe_of_eq {α : Type} {checked : Checked α} {plain : Logged α}
    (same : checked = ofLogged plain)
    (causes : ∀ failure, plain.outcome = .error failure → failure.OfData) :
    Safe checked plain where
  untrapped trap trapped := by
    rw [same, outcome_run_ofLogged] at trapped
    cases ended : plain.outcome with
    | error failure => simp [ended, Except.map] at trapped
    | ok value => simp [ended, Except.map] at trapped
  agrees := same
  faultless cause stopped := (causes _ stopped).faultless cause rfl

/-- Numbers are turned into microseconds, runs measured, deployments settled and descriptors made
without a trap, for single dags under any index and run length as well as for the whole set. -/
theorem conversion_untrapped (set : DagSet) (solution : Solution) (catalogue : Catalogue)
    (iterations minSeconds : Nat) (sized : solution.Sized)
    (dagsSized : ∀ dag ∈ set.dags, dag.Sized) :
    (∀ rounding ns, Signed ns → toMicros rounding ns = pure (Period.toMicros rounding ns)) ∧
      Safe (runLength set.periods iterations minSeconds)
        (RunLength.of set.periods iterations minSeconds) ∧
      (∀ cause, Deployment.of solution catalogue ≠ .error (.fault cause)) ∧
      (∀ deployment, Deployment.of solution catalogue = .ok deployment →
        ∀ dag : Dag, dag.Sized → ∀ index run,
          Safe (describe deployment dag index run) (deployment.describe dag index run)) ∧
      (∀ run, Safe (describeAll set solution catalogue run)
        (DagDeploy.describeAll set solution catalogue run)) ∧
      Safe (convert set solution catalogue iterations minSeconds)
        (DagDeploy.convert set solution catalogue iterations minSeconds) := by
  refine ⟨fun rounding ns => toMicros_eq rounding, ?_, ?_, ?_, ?_, ?_⟩
  · exact safe_of_eq (runLength_eq _ _ _) fun failure => RunLength.of_eq_error
  · intro cause stopped
    exact (Deployment.of_eq_error stopped).faultless cause rfl
  · intro deployment known dag dagSized index run
    obtain ⟨board, -, rfl⟩ := Deployment.of_eq_ok.mp known
    exact safe_of_eq (describe_eq dagSized sized) fun failure => Deployment.describe_eq_error
  · intro run
    exact safe_of_eq (describeAll_eq sized dagsSized) fun failure => describeAll_eq_error
  · exact safe_of_eq (convert_eq sized dagsSized) fun failure => convert_eq_error

/-- Extreme times, a period of the largest word, and an edge that would be cut down to a task. -/
def extremeDag : Dag where
  tasks := [⟨-0x8000000000000000⟩, ⟨0x7fffffffffffffff⟩]
  edges := [⟨0, 1, none⟩, ⟨1, 0x100000000, some 8⟩]
  period := 0xffffffffffffffff
  deadline := -0x8000000000000000

theorem conversion_untrapped_extremes :
    Deployment.sampleSolution.Sized ∧
      (∀ dag ∈ [Deployment.sampleDag, extremeDag], dag.Sized) ∧
      toMicros .up 0x7fffffffffffffff = pure 0x20c49ba5e353f8 ∧
      Deployment.of Deployment.sampleSolution .standard = .ok Deployment.sample ∧
      Safe (describe Deployment.sample extremeDag 1 ⟨0xffffffffffffffff, 0⟩)
        (Deployment.sample.describe extremeDag 1 ⟨0xffffffffffffffff, 0⟩) ∧
      Safe (convert ⟨[Deployment.sampleDag, extremeDag]⟩ Deployment.sampleSolution .standard 0 1)
        (DagDeploy.convert ⟨[Deployment.sampleDag, extremeDag]⟩ Deployment.sampleSolution
          .standard 0 1) := by
  have sized : Deployment.sampleSolution.Sized := ⟨by decide, by decide, by decide⟩
  have plain : Deployment.sampleDag.Sized := ⟨by decide, by decide, by decide, by decide⟩
  have extreme : extremeDag.Sized := ⟨by decide, by decide, by decide, by decide⟩
  have dagsSized : ∀ dag ∈ [Deployment.sampleDag, extremeDag], dag.Sized := by
    simpa using ⟨plain, extreme⟩
  obtain ⟨micros, -, -, described, -, converted⟩ := conversion_untrapped
    ⟨[Deployment.sampleDag, extremeDag]⟩ Deployment.sampleSolution .standard 0 1 sized dagsSized
  exact ⟨sized, dagsSized, micros .up _ (by decide), rfl,
    described _ rfl extremeDag extreme 1 _, converted⟩

end Checked

end DagDeploy
