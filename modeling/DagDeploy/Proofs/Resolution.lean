import DagDeploy.Conversion
import DagDeploy.Proofs.FirstListing

/-! The solved tasks of a dag are resolved one after the other. A solved task either settles, and
then it adds one entry and its lines, or it is blocked for one of four reasons, and then it adds
nothing and stops the conversion. -/

namespace DagDeploy

/-- A solved task with the task of the model that it settles, and its placement. -/
structure Settled where
  solved : SolvedTask
  task : Task
  placement : Placement

namespace Deployment

variable (deployment : Deployment)

/-- Accelerated tasks run the kernel of their solved execution time. -/
def kernelId (kind : TaskKind) (wcet : Int) : Int :=
  match kind with
  | .fred => (deployment.catalogue.kernelIds.find? wcet).getD deployment.catalogue.defaultKernel
  | _ => deployment.catalogue.notAccelerated

def kernelLines (kind : TaskKind) (wcet : Int) : List LogLine :=
  if kind = .fred ∧ deployment.catalogue.kernelIds.find? wcet = none then
    [.unknownKernel wcet deployment.catalogue.defaultKernel]
  else []

def kindAt (placement : Placement) : TaskKind := deployment.platform.kindOf placement.island

def cpuAt (placement : Placement) : Nat :=
  deployment.platform.cpuOf placement.island placement.unitIndex

def entryOf (settled : Settled) : ResolvedTask :=
  deployment.entry settled.task settled.solved settled.placement
    (deployment.kernelId (deployment.kindAt settled.placement) settled.solved.wcet)

def linesOf (index position : Nat) (settled : Settled) : List LogLine :=
  deployment.kernelLines (deployment.kindAt settled.placement) settled.solved.wcet ++
    [.placed index position settled.placement.islandIndex settled.placement.unitIndex
      (deployment.cpuAt settled.placement) (deployment.kindAt settled.placement)]

/-- The lines of settled tasks, numbered from `position`. -/
def linesFrom (index position : Nat) : List Settled → List LogLine
  | [] => []
  | first :: rest => deployment.linesOf index position first ++ linesFrom index (position + 1) rest

structure Settles (dag : Dag) (index position : Nat) (settled : Settled) : Prop where
  ordered : settled.solved.task = position
  modelled : dag.tasks[position]? = some settled.task
  placed : settled.placement.IsFirst deployment.solution.islands ⟨index, position⟩
  supported : deployment.kindAt settled.placement ∈ deployment.catalogue.supportedKinds

/-- Why a solved task cannot settle. Each reason supposes that those before it do not apply. -/
inductive Blocked (dag : Dag) (index position : Nat) (solved : SolvedTask) : Failure → Prop where
  | misplaced (different : solved.task ≠ position) :
    Blocked dag index position solved
      (.inconsistent (.taskOutOfOrder index position solved.task))
  | surplus (ordered : solved.task = position) (beyond : dag.tasks[position]? = none) :
    Blocked dag index position solved
      (.inconsistent (.taskCountMismatch index dag.tasks.length
        (deployment.solution.tasksOf index).length))
  | unlisted {task : Task} (ordered : solved.task = position)
    (modelled : dag.tasks[position]? = some task)
    (absent : ∀ islandIndex unitIndex,
      ¬ Lists deployment.solution.islands ⟨index, position⟩ islandIndex unitIndex) :
    Blocked dag index position solved (.inconsistent (.missingMapping index position))
  | unsupported {task : Task} {placement : Placement} (ordered : solved.task = position)
    (modelled : dag.tasks[position]? = some task)
    (placed : placement.IsFirst deployment.solution.islands ⟨index, position⟩)
    (refused : deployment.kindAt placement ∉ deployment.catalogue.supportedKinds) :
    Blocked dag index position solved (.unsupportedKind (deployment.kindAt placement))

variable {deployment} {dag : Dag} {index position : Nat} {solved : SolvedTask}

theorem kernelFor_of_supported {kind : TaskKind} (wcet : Int)
    (supported : kind ∈ deployment.catalogue.supportedKinds) :
    deployment.kernelFor kind wcet
      = ⟨deployment.kernelLines kind wcet, .ok (deployment.kernelId kind wcet)⟩ := by
  have allowed : deployment.catalogue.ensureSupported kind = .ok () := if_pos supported
  simp only [kernelFor, allowed, Logged.ofExcept_ok, pure_bind]
  cases kind with
  | cpu | omp => simp only [kernelLines, kernelId, reduceCtorEq, false_and, if_false]; rfl
  | fred =>
    cases known : deployment.catalogue.kernelIds.find? wcet with
    | some kernel =>
      simp only [Catalogue.kernelOf, known, kernelLines, kernelId, reduceCtorEq, and_false,
        if_false, Option.getD_some]
      rfl
    | none =>
      simp only [Catalogue.kernelOf, known, kernelLines, kernelId, and_self, if_true,
        Option.getD_none]
      rfl

theorem kernelFor_of_refused {kind : TaskKind} (wcet : Int)
    (refused : kind ∉ deployment.catalogue.supportedKinds) :
    deployment.kernelFor kind wcet = Logged.fail (.unsupportedKind kind) := by
  have stopped : deployment.catalogue.ensureSupported kind = .error (.unsupportedKind kind) :=
    if_neg refused
  simp only [kernelFor, stopped, Logged.ofExcept_error, Logged.fail_bind]

theorem resolve_of_settles {settled : Settled}
    (settles : deployment.Settles dag index position settled) :
    deployment.resolve dag index position settled.solved
      = ⟨deployment.linesOf index position settled, .ok (deployment.entryOf settled)⟩ := by
  have found := Placement.find_eq_ok.mpr settles.placed
  have kernel := kernelFor_of_supported settled.solved.wcet settles.supported
  simp only [kindAt] at kernel
  simp only [resolve, settles.ordered, ne_eq, not_true, if_false, settles.modelled, found,
    Logged.ofExcept_ok, pure_bind, kernel, Logged.bind_ok, Logged.say_bind, Logged.lines_pure,
    Logged.outcome_pure]
  rfl

theorem resolve_of_blocked {failure : Failure}
    (blocked : deployment.Blocked dag index position solved failure) :
    deployment.resolve dag index position solved = Logged.fail failure := by
  cases blocked with
  | misplaced different => simp only [resolve, ne_eq, different, not_false_eq_true, if_true]
  | surplus ordered beyond => simp only [resolve, ordered, ne_eq, not_true, if_false, beyond]
  | unlisted ordered modelled absent =>
    have missing := Placement.find_eq_error.mpr ⟨rfl, absent⟩
    simp only [resolve, ordered, ne_eq, not_true, if_false, modelled, missing,
      Logged.ofExcept_error, Logged.fail_bind]
  | unsupported ordered modelled placed refused =>
    have found := Placement.find_eq_ok.mpr placed
    have kernel := kernelFor_of_refused solved.wcet refused
    simp only [kindAt] at kernel
    simp only [resolve, ordered, ne_eq, not_true, if_false, modelled, found, Logged.ofExcept_ok,
      pure_bind, kernel, Logged.fail_bind, kindAt]

/-- A solved task settles or is blocked; there is no third way. -/
theorem settles_or_blocked (deployment : Deployment) (dag : Dag) (index position : Nat)
    (solved : SolvedTask) :
    (∃ settled, settled.solved = solved ∧ deployment.Settles dag index position settled) ∨
      ∃ failure, deployment.Blocked dag index position solved failure := by
  by_cases ordered : solved.task = position
  case neg => exact .inr ⟨_, .misplaced ordered⟩
  cases modelled : dag.tasks[position]? with
  | none => exact .inr ⟨_, .surplus ordered modelled⟩
  | some task =>
    cases searched : Placement.find deployment.solution.islands index position with
    | error failure =>
      have absent := (Placement.find_eq_error.mp searched).2
      exact .inr ⟨_, .unlisted ordered modelled absent⟩
    | ok placement =>
      have placed := Placement.find_eq_ok.mp searched
      by_cases supported : deployment.kindAt placement ∈ deployment.catalogue.supportedKinds
      · exact .inl ⟨⟨solved, task, placement⟩, rfl, ordered, modelled, placed, supported⟩
      · exact .inr ⟨_, .unsupported ordered modelled placed supported⟩

/-- All of the tasks settle, the first of them at `position`. -/
def AllSettle (deployment : Deployment) (dag : Dag) (index position : Nat)
    (settled : List Settled) : Prop :=
  ∀ offset entry, settled[offset]? = some entry →
    deployment.Settles dag index (position + offset) entry

theorem allSettle_cons {first : Settled} {rest : List Settled} :
    deployment.AllSettle dag index position (first :: rest) ↔
      deployment.Settles dag index position first ∧
        deployment.AllSettle dag index (position + 1) rest := by
  constructor
  · intro all
    refine ⟨all 0 first rfl, fun offset entry found => ?_⟩
    have shifted := all (offset + 1) entry found
    rwa [Nat.add_comm offset, ← Nat.add_assoc] at shifted
  · intro ⟨settles, others⟩ offset entry found
    cases offset with
    | zero => cases found; exact settles
    | succ offset =>
      have shifted := others offset entry found
      rwa [Nat.add_assoc, Nat.add_comm 1] at shifted

/-- Each solved task that settles has a task of its own. -/
theorem AllSettle.within {settled : List Settled}
    (all : deployment.AllSettle dag index position settled) {offset : Nat}
    (inside : offset < settled.length) : position + offset < dag.tasks.length :=
  (List.getElem?_eq_some_iff.mp
    (all offset _ (List.getElem?_eq_getElem inside)).modelled).1

theorem resolveFrom_of_settled {settled : List Settled}
    (all : deployment.AllSettle dag index position settled) :
    deployment.resolveFrom dag index position (settled.map Settled.solved)
      = ⟨deployment.linesFrom index position settled, .ok (settled.map deployment.entryOf)⟩ := by
  induction settled generalizing position with
  | nil => rfl
  | cons first rest ih =>
    obtain ⟨settles, others⟩ := allSettle_cons.mp all
    simp only [List.map_cons, resolveFrom, resolve_of_settles settles, ih others, Logged.bind_ok,
      Logged.lines_pure, Logged.outcome_pure, List.append_nil, linesFrom]

theorem resolveFrom_of_blocked {settled : List Settled} {failure : Failure}
    (rest : List SolvedTask) (all : deployment.AllSettle dag index position settled)
    (blocked : deployment.Blocked dag index (position + settled.length) solved failure) :
    deployment.resolveFrom dag index position (settled.map Settled.solved ++ solved :: rest)
      = ⟨deployment.linesFrom index position settled, .error failure⟩ := by
  induction settled generalizing position with
  | nil =>
    have here : deployment.Blocked dag index position solved failure := blocked
    rw [List.map_nil, List.nil_append, resolveFrom, resolve_of_blocked here, Logged.fail_bind]
    rfl
  | cons first others ih =>
    obtain ⟨settles, remaining⟩ := allSettle_cons.mp all
    have later : deployment.Blocked dag index (position + 1 + others.length) solved failure := by
      rwa [List.length_cons, Nat.add_comm others.length, ← Nat.add_assoc] at blocked
    simp only [List.map_cons, List.cons_append, resolveFrom, resolve_of_settles settles,
      ih remaining later, Logged.bind_ok, Logged.bind_error, linesFrom]

theorem getElem?_after {settled : List Settled} {tasks rest : List SolvedTask}
    (records : tasks = settled.map Settled.solved ++ solved :: rest) :
    tasks[settled.length]? = some solved := by
  rw [records, List.getElem?_append_right (by simp), List.length_map, Nat.sub_self]
  rfl

/-- A list of solved tasks settles up to the first one that is blocked. -/
theorem settled_prefix (deployment : Deployment) (dag : Dag) (index position : Nat)
    (tasks : List SolvedTask) :
    ∃ settled, deployment.AllSettle dag index position settled ∧
      (tasks = settled.map Settled.solved ∨
        ∃ solved rest failure, tasks = settled.map Settled.solved ++ solved :: rest ∧
          deployment.Blocked dag index (position + settled.length) solved failure) := by
  induction tasks generalizing position with
  | nil => exact ⟨[], by simp [AllSettle], .inl rfl⟩
  | cons solved rest ih =>
    rcases settles_or_blocked deployment dag index position solved with
      ⟨first, rfl, settles⟩ | ⟨failure, blocked⟩
    · obtain ⟨settled, all, ending⟩ := ih (position + 1)
      refine ⟨first :: settled, allSettle_cons.mpr ⟨settles, all⟩, ?_⟩
      rcases ending with rfl | ⟨stuck, beyond, failure, rfl, blocked⟩
      · exact .inl rfl
      · refine .inr ⟨stuck, beyond, failure, rfl, ?_⟩
        rwa [List.length_cons, Nat.add_comm settled.length, ← Nat.add_assoc]
    · exact ⟨[], by simp [AllSettle], .inr ⟨solved, rest, failure, rfl, blocked⟩⟩

end Deployment

end DagDeploy
