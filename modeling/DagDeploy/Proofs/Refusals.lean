import DagDeploy.Proofs.Acceptance

/-! Which failure a conversion ends with. The reasons to refuse a dag exclude each other, so each
input has at most one of them: an edge leaves the dag, or a solved task is the first one amiss, or
too few tasks are solved, or a period is too long. A set fails with the first of its dags that is
refused, and nothing after that dag is looked at. -/

namespace DagDeploy.Deployment

variable (deployment : Deployment)

/-- The solved task stands at a wrong position or is one too many, or no unit lists it, or it is
placed on a unit for tasks of a kind that is not supported. -/
def Amiss (dag : Dag) (index position : Nat) (solved : SolvedTask) : Prop :=
  solved.task ≠ position ∨ dag.tasks.length ≤ position ∨
    (∀ islandIndex unitIndex,
      ¬ Lists deployment.solution.islands ⟨index, position⟩ islandIndex unitIndex) ∨
    ∃ placement : Placement, placement.IsFirst deployment.solution.islands ⟨index, position⟩ ∧
      deployment.kindAt placement ∉ deployment.catalogue.supportedKinds

/-- No solved task before this position is amiss. -/
def SoundBelow (dag : Dag) (index bound : Nat) : Prop :=
  ∀ position < bound, ∀ solved, (deployment.solution.tasksOf index)[position]? = some solved →
    ¬ deployment.Amiss dag index position solved

/-- Why a dag is refused. -/
inductive Refused (dag : Dag) (index : Nat) (run : RunLength) : Failure → Prop where
  | stray {before after : List Edge} {edge : Edge} (edges : dag.edges = before ++ edge :: after)
    (inside : ∀ earlier ∈ before,
      earlier.source < dag.tasks.length ∧ earlier.target < dag.tasks.length)
    (outside : ¬ (edge.source < dag.tasks.length ∧ edge.target < dag.tasks.length)) :
    Refused dag index run
      (.inconsistent (.invalidEdge index edge.source edge.target dag.tasks.length))
  | amiss {position : Nat} {solved : SolvedTask} {failure : Failure} (inside : dag.Inside)
    (sound : deployment.SoundBelow dag index position)
    (found : (deployment.solution.tasksOf index)[position]? = some solved)
    (blocked : deployment.Blocked dag index position solved failure) :
    Refused dag index run failure
  | unsolved (inside : dag.Inside)
    (sound : deployment.SoundBelow dag index (deployment.solution.tasksOf index).length)
    (few : (deployment.solution.tasksOf index).length < dag.tasks.length) :
    Refused dag index run (.inconsistent (.taskCountMismatch index dag.tasks.length
      (deployment.solution.tasksOf index).length))
  | long (inside : dag.Inside)
    (sound : deployment.SoundBelow dag index (deployment.solution.tasksOf index).length)
    (enough : dag.tasks.length ≤ (deployment.solution.tasksOf index).length)
    (exceeds : Period.longest < run.hyperPeriod ∨ Period.longest < dag.period) :
    Refused dag index run (.hyperPeriodOverflow index)

variable {deployment} {dag : Dag} {index position bound : Nat} {run : RunLength}
  {solved : SolvedTask} {settled : List Settled} {failure : Failure}

section tasks

theorem Settles.not_amiss {entry : Settled}
    (settles : deployment.Settles dag index position entry) :
    ¬ deployment.Amiss dag index position entry.solved := by
  rintro (misplaced | surplus | unlisted | ⟨placement, placed, refused⟩)
  · exact misplaced settles.ordered
  · have within := (List.getElem?_eq_some_iff.mp settles.modelled).1
    exact Nat.not_le.mpr within surplus
  · exact unlisted _ _ settles.placed.listed
  · rw [placed.unique settles.placed] at refused
    exact refused settles.supported

theorem Blocked.amiss (blocked : deployment.Blocked dag index position solved failure) :
    deployment.Amiss dag index position solved := by
  cases blocked with
  | misplaced different => exact .inl different
  | surplus ordered beyond => exact .inr (.inl (List.getElem?_eq_none_iff.mp beyond))
  | unlisted ordered modelled absent => exact .inr (.inr (.inl absent))
  | unsupported ordered modelled placed refused =>
    exact .inr (.inr (.inr ⟨_, placed, refused⟩))

theorem length_le_of_settled (all : deployment.AllSettle dag index 0 settled) :
    settled.length ≤ dag.tasks.length := by
  apply Nat.le_of_not_lt
  intro more
  have within := all.within more
  rw [Nat.zero_add] at within
  exact Nat.lt_irrefl _ within

/-- The solved tasks before a sound bound all settle. -/
theorem settled_of_sound (sound : deployment.SoundBelow dag index bound)
    (fits : bound ≤ (deployment.solution.tasksOf index).length) :
    ∃ settled, deployment.AllSettle dag index 0 settled ∧ settled.length = bound ∧
      (deployment.solution.tasksOf index).take bound = settled.map Settled.solved := by
  obtain ⟨settled, all, ending⟩ :=
    settled_prefix deployment dag index 0 ((deployment.solution.tasksOf index).take bound)
  rcases ending with records | ⟨solved, rest, failure, records, blocked⟩
  · have count := congrArg List.length records
    rw [List.length_take_of_le fits, List.length_map] at count
    exact ⟨settled, all, count.symm, records⟩
  · exfalso
    rw [Nat.zero_add] at blocked
    have found := getElem?_after records
    rw [List.getElem?_take] at found
    split at found
    next before => exact sound settled.length before solved found blocked.amiss
    next => cases found

theorem sound_of_settled {rest : List SolvedTask}
    (all : deployment.AllSettle dag index 0 settled)
    (records : deployment.solution.tasksOf index = settled.map Settled.solved ++ rest) :
    deployment.SoundBelow dag index settled.length := by
  intro position before solved found
  rw [records, List.getElem?_append_left (by simpa using before), List.getElem?_map,
    List.getElem?_eq_getElem before] at found
  obtain rfl := Option.some.inj found
  have settles := all position _ (List.getElem?_eq_getElem before)
  rw [Nat.zero_add] at settles
  exact settles.not_amiss

end tasks

section dags

theorem outcome_of_refused (refused : deployment.Refused dag index run failure) :
    (deployment.describe dag index run).outcome = .error failure := by
  cases refused with
  | @stray before after edge edges inside outside =>
    rw [describe_of_stray (Dag.stray_eq_some.mpr ⟨outside, before, after, edges, inside⟩)]
    rfl
  | @amiss position solved _ inside sound found blocked =>
    obtain ⟨bound, isSolved⟩ := List.getElem?_eq_some_iff.mp found
    obtain ⟨settled, all, count, records⟩ := settled_of_sound sound (Nat.le_of_lt bound)
    have split : deployment.solution.tasksOf index = settled.map Settled.solved
        ++ solved :: (deployment.solution.tasksOf index).drop (position + 1) := by
      rw [← records, ← isSolved, List.cons_getElem_drop_succ, List.take_append_drop]
    rw [describe_of_blocked inside split all (count ▸ blocked)]
  | unsolved inside sound few =>
    obtain ⟨settled, all, count, records⟩ := settled_of_sound sound (Nat.le_refl _)
    rw [List.take_length] at records
    have short : settled.length ≠ dag.tasks.length := by omega
    rw [describe_of_short inside records short all, count]
  | long inside sound enough exceeds =>
    obtain ⟨settled, all, count, records⟩ := settled_of_sound sound (Nat.le_refl _)
    rw [List.take_length] at records
    have most := length_le_of_settled all
    rw [describe_of_complete inside ⟨records, by omega, all⟩]
    exact if_neg (by omega)

/-- A dag is described when it is not refused. -/
theorem refused_or_described (deployment : Deployment) (dag : Dag) (index : Nat)
    (run : RunLength) : (∃ failure, deployment.Refused dag index run failure) ∨
      ∃ descriptor, (deployment.describe dag index run).outcome = .ok descriptor := by
  rcases describe_cases deployment dag index with ⟨edge, stray⟩ | ⟨inside, settled, all, ending⟩
  · obtain ⟨outside, before, after, edges, earlier⟩ := Dag.stray_eq_some.mp stray
    exact .inl ⟨_, .stray edges earlier outside⟩
  rcases ending with ⟨solved, rest, failure, records, blocked⟩ | ⟨records, short⟩ | complete
  · have sound := sound_of_settled all records
    exact .inl ⟨failure, .amiss inside sound (getElem?_after records) blocked⟩
  · have count : (deployment.solution.tasksOf index).length = settled.length := by
      rw [records, List.length_map]
    have sound := sound_of_settled all (records.trans (List.append_nil _).symm)
    have most := length_le_of_settled all
    rw [← count] at sound
    exact .inl ⟨_, .unsolved inside sound (by omega)⟩
  · have count : (deployment.solution.tasksOf index).length = settled.length := by
      rw [complete.records, List.length_map]
    have sound := sound_of_settled all (complete.records.trans (List.append_nil _).symm)
    rw [← count] at sound
    by_cases fits : run.hyperPeriod ≤ Period.longest ∧ dag.period ≤ Period.longest
    · right
      rw [describe_of_complete inside complete]
      exact ⟨_, if_pos fits⟩
    · have full : dag.tasks.length ≤ (deployment.solution.tasksOf index).length := by
        rw [count, complete.count]
      exact .inl ⟨_, .long inside sound full (by omega)⟩

theorem describe_eq_error_iff :
    (deployment.describe dag index run).outcome = .error failure ↔
      deployment.Refused dag index run failure := by
  constructor
  · intro stopped
    rcases refused_or_described deployment dag index run with ⟨cause, refused⟩ | ⟨_, described⟩
    · have same := (outcome_of_refused refused).symm.trans stopped
      exact Except.error.inj same ▸ refused
    · rw [stopped] at described
      cases described
  · exact outcome_of_refused

theorem described_iff :
    (∃ descriptor, (deployment.describe dag index run).outcome = .ok descriptor) ↔
      ∀ failure, ¬ deployment.Refused dag index run failure := by
  constructor
  · intro ⟨descriptor, described⟩ failure refused
    rw [outcome_of_refused refused] at described
    cases described
  · intro free
    exact (refused_or_described deployment dag index run).resolve_left
      fun ⟨failure, refused⟩ => free failure refused

end dags

section sets

/-- The dags of a set are described part by part. -/
theorem describeFrom_append (deployment : Deployment) (run : RunLength) (index : Nat)
    (before after : List Dag) :
    deployment.describeFrom run index (before ++ after) = do
      let first ← deployment.describeFrom run index before
      let others ← deployment.describeFrom run (index + before.length) after
      return first ++ others := by
  induction before generalizing index with
  | nil => simp [describeFrom]
  | cons dag rest ih =>
    have shifted : index + 1 + rest.length = index + (rest.length + 1) := by omega
    simp only [List.cons_append, describeFrom, ih, bind_assoc, pure_bind, List.length_cons,
      shifted]

theorem describeFrom_of_first {before after : List Dag}
    (described : ∀ (offset : Nat) (other : Dag), before[offset]? = some other →
      ∃ descriptor, (deployment.describe other (index + offset) run).outcome = .ok descriptor)
    (stopped : (deployment.describe dag (index + before.length) run).outcome = .error failure) :
    (deployment.describeFrom run index (before ++ dag :: after)).outcome = .error failure := by
  obtain ⟨descriptors, converted⟩ := describeFrom_succeeds_iff.mpr described
  rw [describeFrom_append]
  refine Logged.outcome_bind_eq_error.mpr (.inr ⟨descriptors, converted, ?_⟩)
  refine Logged.outcome_bind_eq_error.mpr (.inl ?_)
  exact Logged.outcome_bind_eq_error.mpr (.inl stopped)

/-- The first dag that stops the conversion of a set decides how it fails. -/
theorem describeFrom_eq_error_iff {dags : List Dag} :
    (deployment.describeFrom run index dags).outcome = .error failure ↔
      ∃ before dag after, dags = before ++ dag :: after ∧
        (deployment.describe dag (index + before.length) run).outcome = .error failure ∧
        ∀ (offset : Nat) (other : Dag), before[offset]? = some other → ∃ descriptor,
          (deployment.describe other (index + offset) run).outcome = .ok descriptor := by
  constructor
  · intro stopped
    induction dags generalizing index with
    | nil => cases stopped
    | cons dag rest ih =>
      rcases Logged.outcome_bind_eq_error.mp stopped with here | ⟨descriptor, described, further⟩
      · exact ⟨[], dag, rest, rfl, here, by simp⟩
      rcases Logged.outcome_bind_eq_error.mp further with later | ⟨descriptors, -, last⟩
      · obtain ⟨before, other, after, rfl, here, earlier⟩ := ih later
        refine ⟨dag :: before, other, after, rfl, ?_, ?_⟩
        · rwa [Nat.add_assoc, Nat.add_comm 1] at here
        · intro offset another found
          cases offset with
          | zero => cases found; exact ⟨descriptor, described⟩
          | succ offset =>
            have told := earlier offset another found
            rwa [Nat.add_assoc, Nat.add_comm 1] at told
      · cases last
  · intro ⟨before, dag, after, split, here, earlier⟩
    subst split
    exact describeFrom_of_first earlier here

/-- What comes after a failure changes nothing. -/
theorem describeFrom_append_of_error {before : List Dag}
    (stopped : (deployment.describeFrom run index before).outcome = .error failure)
    (after : List Dag) :
    deployment.describeFrom run index (before ++ after)
      = ⟨(deployment.describeFrom run index before).lines, .error failure⟩ := by
  rw [describeFrom_append]
  cases first : deployment.describeFrom run index before with
  | mk lines outcome =>
    rw [first] at stopped
    simp only at stopped
    rw [stopped, Logged.bind_error]

theorem describeFrom_stops {before : List Dag}
    (refused : deployment.Refused dag (index + before.length) run failure) :
    ∃ cause, (deployment.describeFrom run index (before ++ [dag])).outcome = .error cause := by
  cases outcome : (deployment.describeFrom run index (before ++ [dag])).outcome with
  | error cause => exact ⟨cause, rfl⟩
  | ok descriptors =>
    exfalso
    have found : (before ++ [dag])[before.length]? = some dag := by simp
    obtain ⟨descriptor, described⟩ := describeFrom_succeeds_iff.mp ⟨_, outcome⟩ _ dag found
    exact described_iff.mp ⟨descriptor, described⟩ failure refused

end sets

/-- On a known board, a dag is described unless there is a reason to refuse it, and then that one is
told. A set fails with the reason of the first dag that is refused, and neither the failure nor the
lines of the log depend on the dags after it. -/
theorem describe_refusals (solution : Solution) (catalogue : Catalogue) (deployment : Deployment)
    (run : RunLength) (known : Deployment.of solution catalogue = .ok deployment) :
    (∀ dag index failure, (deployment.describe dag index run).outcome = .error failure ↔
      deployment.Refused dag index run failure) ∧
    (∀ dag index, (∃ descriptor, (deployment.describe dag index run).outcome = .ok descriptor) ↔
      ∀ failure, ¬ deployment.Refused dag index run failure) ∧
    (∀ set failure, (describeAll set solution catalogue run).outcome = .error failure ↔
      ∃ before dag after, set.dags = before ++ dag :: after ∧
        deployment.Refused dag before.length run failure ∧
        ∀ (earlier : Nat) (other : Dag), before[earlier]? = some other →
          ∀ cause, ¬ deployment.Refused other earlier run cause) ∧
    ∀ (before : List Dag) dag failure, deployment.Refused dag before.length run failure →
      ∀ after others, describeAll ⟨before ++ dag :: after⟩ solution catalogue run
        = describeAll ⟨before ++ dag :: others⟩ solution catalogue run := by
  refine ⟨fun _ _ _ => describe_eq_error_iff, fun _ _ => described_iff, ?_, ?_⟩
  · intro set failure
    simp only [describeAll_eq_describeFrom known, describeFrom_eq_error_iff, Nat.zero_add,
      describe_eq_error_iff, described_iff]
  · intro before dag failure refused after others
    rw [← Nat.zero_add before.length] at refused
    obtain ⟨cause, stopped⟩ := describeFrom_stops refused
    simp only [describeAll_eq_describeFrom known]
    rw [List.append_cons, describeFrom_append_of_error stopped, List.append_cons _ _ others,
      describeFrom_append_of_error stopped]

/-- No tasks, of which the sample solves one, and a period that is too long. -/
def crowdedSample : Dag := ⟨[], [], Nat.pow 2 63, 0⟩

/-- An edge that leaves the dag. -/
def straySample : Dag := ⟨[⟨0⟩], [⟨0, 1, none⟩], 1000, 1000⟩

theorem describe_refusals_sample : Deployment.of sampleSolution .standard = .ok sample ∧
    sample.Refused crowdedSample 1 sampleRun (.inconsistent (.taskCountMismatch 1 0 1)) ∧
    (describeAll ⟨[sampleDag, crowdedSample, straySample]⟩ sampleSolution .standard
      sampleRun).outcome = .error (.inconsistent (.taskCountMismatch 1 0 1)) ∧
    describeAll ⟨[sampleDag, crowdedSample, straySample]⟩ sampleSolution .standard sampleRun
      = describeAll ⟨[sampleDag, crowdedSample]⟩ sampleSolution .standard sampleRun := by
  have known : Deployment.of sampleSolution .standard = .ok sample := rfl
  obtain ⟨refused, described, fails, stops⟩ :=
    describe_refusals sampleSolution .standard sample sampleRun known
  have crowded := (refused crowdedSample 1 (.inconsistent (.taskCountMismatch 1 0 1))).mp rfl
  refine ⟨known, crowded, ?_, stops [sampleDag] crowdedSample _ crowded [straySample] []⟩
  refine (fails _ _).mpr ⟨[sampleDag], crowdedSample, [straySample], rfl, crowded, ?_⟩
  intro earlier other found
  cases earlier with
  | zero => cases found; exact (described sampleDag 0).mp ⟨_, rfl⟩
  | succ later => cases found

end DagDeploy.Deployment
