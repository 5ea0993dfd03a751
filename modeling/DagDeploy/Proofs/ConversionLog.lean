import DagDeploy.Proofs.Circuits
import DagDeploy.Proofs.CpuOrder
import DagDeploy.Proofs.Refusals

/-! The log of a conversion, line by line. It warns of a cycle, then it speaks of the solved tasks
in their order, as far as they are resolved, and when all tasks of the dag are, it may warn of a gap
in the numbers of the CPUs. How many placements it tells is how far the conversion came. -/

namespace DagDeploy

/-- This one line if something holds, and else none. -/
def SaidIf (holds : Prop) (line : LogLine) (lines : List LogLine) : Prop :=
  holds ∧ lines = [line] ∨ ¬ holds ∧ lines = []

theorem saidIf_ite (holds : Prop) [Decidable holds] (line : LogLine) :
    SaidIf holds line (if holds then [line] else []) := by
  by_cases isTrue : holds
  · exact .inl ⟨isTrue, if_pos isTrue⟩
  · exact .inr ⟨isTrue, if_neg isTrue⟩

theorem SaidIf.of_iff {holds also : Prop} {line : LogLine} {lines : List LogLine}
    (said : SaidIf holds line lines) (same : holds ↔ also) : SaidIf also line lines :=
  propext same ▸ said

def LogLine.isPlacement : LogLine → Bool
  | .placed .. => true
  | _ => false

/-- A log in its parts, with the lines on each solved task. -/
structure Trace where
  warning : List LogLine
  tasks : List (List LogLine)
  gap : List LogLine

def Trace.lines (trace : Trace) : List LogLine :=
  trace.warning ++ (trace.tasks.flatten ++ trace.gap)

namespace Deployment

variable (deployment : Deployment)

/-- The solved tasks of the dag are resolved as far as this: all of them, or those before the first
one that is amiss. -/
structure ResolvedTo (dag : Dag) (index count : Nat) : Prop where
  sound : deployment.SoundBelow dag index count
  ending : count = (deployment.solution.tasksOf index).length ∨
    ∃ solved, (deployment.solution.tasksOf index)[count]? = some solved ∧
      deployment.Amiss dag index count solved

/-- The lines on a solved task tell where it is placed, after a line on its kernel if it is
accelerated and its time is that of no kernel. -/
def Traces (index position : Nat) (solved : SolvedTask) (placement : Placement)
    (lines : List LogLine) : Prop :=
  ∃ kernel, SaidIf (deployment.platform.Accelerates placement.island ∧
      solved.wcet ∉ deployment.catalogue.kernelIds.entries.map Prod.fst)
      (.unknownKernel solved.wcet deployment.catalogue.defaultKernel) kernel ∧
    lines = kernel ++ [.placed index position placement.islandIndex placement.unitIndex
      (deployment.platform.cpuOf placement.island placement.unitIndex)
      (deployment.platform.kindOf placement.island)]

/-- A trace speaks of each solved task that is resolved, and of nothing that is not so. -/
structure Faithful (dag : Dag) (index : Nat) (trace : Trace) : Prop where
  warning : SaidIf dag.HasCircuit (.cycle index) trace.warning
  resolved : deployment.ResolvedTo dag index trace.tasks.length
  tasks : ∀ (position : Nat) (lines : List LogLine), trace.tasks[position]? = some lines →
    ∃ solved placement, (deployment.solution.tasksOf index)[position]? = some solved ∧
      Placement.find deployment.solution.islands index position = .ok placement ∧
      deployment.Traces index position solved placement lines
  gap : ∃ cpus : List Nat,
    cpus.Perm ((deployment.platform.generalIslands deployment.solution.islands).flatMap
      deployment.platform.cpusOf) ∧ cpus.Pairwise (· ≤ ·) ∧
    SaidIf (trace.tasks.length = (deployment.solution.tasksOf index).length ∧
      (deployment.solution.tasksOf index).length = dag.tasks.length ∧
      cpus ≠ List.range cpus.length) (.gappedCpus cpus) trace.gap

variable {deployment} {dag : Dag} {index position : Nat} {settled : List Settled}

theorem saidIf_cycleLines (dag : Dag) (index : Nat) :
    SaidIf dag.HasCircuit (.cycle index) (cycleLines dag index) :=
  (saidIf_ite _ _).of_iff Dag.isCyclic_graph

theorem saidIf_gapLines (deployment : Deployment) :
    SaidIf (deployment.tableCpus ≠ List.range deployment.tableCpus.length)
      (.gappedCpus deployment.tableCpus) deployment.gapLines := by
  unfold gapLines
  split
  next contiguous => exact .inr ⟨not_not_intro contiguous, rfl⟩
  next gapped => exact .inl ⟨gapped, rfl⟩

/-- A time is looked for among the entries, whatever their order. -/
theorem unknown_iff {ids : KernelIds} {wcet : Int} :
    ids.find? wcet = none ↔ wcet ∉ ids.entries.map Prod.fst := by
  rw [KernelIds.find?, List.lookup_eq_none_iff]
  constructor
  · intro different member
    obtain ⟨entry, present, rfl⟩ := List.mem_map.mp member
    have apart := different entry present
    simp at apart
  · intro absent entry present
    rw [bne_iff_ne]
    rintro rfl
    exact absent (List.mem_map_of_mem present)

theorem traces_linesOf (index position : Nat) (entry : Settled) :
    deployment.Traces index position entry.solved entry.placement
      (deployment.linesOf index position entry) := by
  refine ⟨_, (saidIf_ite _ _).of_iff ?_, rfl⟩
  exact and_congr Platform.kindOf_eq_fred unknown_iff

theorem linesFrom_eq_flatten : deployment.linesFrom index position settled
    = (settled.mapIdx fun offset entry =>
        deployment.linesOf index (position + offset) entry).flatten := by
  induction settled generalizing position with
  | nil => rfl
  | cons first rest ih =>
    simp only [linesFrom, ih, List.mapIdx_cons, List.flatten_cons, Nat.add_zero, Nat.add_assoc,
      Nat.add_comm 1]

theorem filter_linesFrom :
    (deployment.linesFrom index position settled).filter LogLine.isPlacement
      = settled.mapIdx fun offset entry => .placed index (position + offset)
          entry.placement.islandIndex entry.placement.unitIndex
          (deployment.cpuAt entry.placement) (deployment.kindAt entry.placement) := by
  induction settled generalizing position with
  | nil => rfl
  | cons first rest ih =>
    have kernel : ∀ kind wcet,
        (deployment.kernelLines kind wcet).filter LogLine.isPlacement = [] := by
      intro kind wcet
      unfold kernelLines
      split <;> rfl
    simp only [linesFrom, linesOf, List.filter_append, kernel, ih, List.mapIdx_cons,
      List.nil_append, Nat.add_zero, Nat.add_assoc, Nat.add_comm 1]
    rfl

theorem sorted_tableCpus : deployment.tableCpus.Pairwise (· ≤ ·) :=
  List.pairwise_map.mpr (pairwise_mergeSort Prod.fst _)

variable {run : RunLength} {trace : Trace}

/-- The trace of solved tasks that settle, with what is said at the end. -/
def traceOf (deployment : Deployment) (dag : Dag) (index : Nat) (settled : List Settled)
    (gap : List LogLine) : Trace where
  warning := cycleLines dag index
  tasks := settled.mapIdx (deployment.linesOf index)
  gap := gap

theorem length_tasks_traceOf {gap : List LogLine} :
    (deployment.traceOf dag index settled gap).tasks.length = settled.length := List.length_mapIdx

theorem lines_traceOf {gap : List LogLine} : (deployment.traceOf dag index settled gap).lines
    = cycleLines dag index ++ (deployment.linesFrom index 0 settled ++ gap) := by
  simp only [Trace.lines, traceOf, linesFrom_eq_flatten, Nat.zero_add]

theorem placements_traceOf {gap : List LogLine} (silent : gap.filter LogLine.isPlacement = []) :
    (deployment.traceOf dag index settled gap).lines.filter LogLine.isPlacement
      = settled.mapIdx fun position entry => .placed index position
          entry.placement.islandIndex entry.placement.unitIndex
          (deployment.cpuAt entry.placement) (deployment.kindAt entry.placement) := by
  have cycle : (cycleLines dag index).filter LogLine.isPlacement = [] := by
    unfold cycleLines
    split <;> rfl
  simp only [lines_traceOf, List.filter_append, cycle, silent, filter_linesFrom, List.nil_append,
    List.append_nil, Nat.zero_add]

/-- A trace of all solved tasks that settle is faithful as far as its end is. -/
theorem faithful_traceOf {rest : List SolvedTask} {gap : List LogLine}
    (all : deployment.AllSettle dag index 0 settled)
    (records : deployment.solution.tasksOf index = settled.map Settled.solved ++ rest)
    (ending : rest = [] ∨ ∃ solved further, rest = solved :: further ∧
      deployment.Amiss dag index settled.length solved)
    (said : SaidIf (rest = [] ∧ settled.length = dag.tasks.length ∧
      deployment.tableCpus ≠ List.range deployment.tableCpus.length)
      (.gappedCpus deployment.tableCpus) gap) :
    deployment.Faithful dag index (deployment.traceOf dag index settled gap) where
  warning := saidIf_cycleLines dag index
  resolved := by
    rw [length_tasks_traceOf]
    refine ⟨sound_of_settled all records, ?_⟩
    rcases ending with rfl | ⟨solved, further, rfl, amiss⟩
    · exact .inl (by rw [records, List.append_nil, List.length_map])
    · exact .inr ⟨solved, getElem?_after records, amiss⟩
  tasks position lines found := by
    rw [traceOf, List.getElem?_mapIdx, Option.map_eq_some_iff] at found
    obtain ⟨entry, settledHere, rfl⟩ := found
    have settles := all position entry settledHere
    rw [Nat.zero_add] at settles
    refine ⟨entry.solved, entry.placement, ?_, Placement.find_eq_ok.mpr settles.placed,
      traces_linesOf index position entry⟩
    have inside := (List.getElem?_eq_some_iff.mp settledHere).1
    rw [records, List.getElem?_append_left (by simpa using inside), List.getElem?_map, settledHere,
      Option.map_some]
  gap := by
    refine ⟨deployment.tableCpus, tableCpus_perm, sorted_tableCpus, said.of_iff ?_⟩
    have whole : rest = [] ↔ settled.length = (deployment.solution.tasksOf index).length := by
      rw [records, List.length_append, List.length_map, ← List.length_eq_zero_iff]
      omega
    rw [whole, length_tasks_traceOf]
    constructor
    · intro ⟨all, enough, gapped⟩
      exact ⟨all, all ▸ enough, gapped⟩
    · intro ⟨all, enough, gapped⟩
      exact ⟨all, all ▸ enough, gapped⟩

theorem filter_gapLines : deployment.gapLines.filter LogLine.isPlacement = [] := by
  unfold gapLines
  split <;> rfl

/-- Each way in which the conversion can end leaves a trace. -/
theorem exists_traceOf (deployment : Deployment) (index : Nat) (run : RunLength)
    (inside : dag.Inside) : ∃ settled gap,
      (deployment.describe dag index run).lines
        = (deployment.traceOf dag index settled gap).lines ∧
      gap.filter LogLine.isPlacement = [] ∧
      deployment.Faithful dag index (deployment.traceOf dag index settled gap) := by
  rcases describe_cases deployment dag index with ⟨edge, stray⟩ | ⟨-, settled, all, ending⟩
  · rw [Dag.stray_eq_none.mpr inside] at stray
    cases stray
  rcases ending with ⟨solved, rest, failure, records, blocked⟩ | ⟨records, short⟩ | complete
  · refine ⟨settled, [], ?_, rfl, faithful_traceOf all records ?_ (.inr ⟨?_, rfl⟩)⟩
    · rw [describe_of_blocked inside records all blocked, lines_traceOf, List.append_nil]
    · exact .inr ⟨solved, rest, rfl, blocked.amiss⟩
    · rintro ⟨isLast, -⟩
      cases isLast
  · have none := records.trans (List.append_nil _).symm
    refine ⟨settled, [], ?_, rfl, faithful_traceOf all none (.inl rfl) (.inr ⟨?_, rfl⟩)⟩
    · rw [describe_of_short inside records short all, lines_traceOf, List.append_nil]
    · exact fun said => short said.2.1
  · -- Gaps are told only here, and also when a period is then found to be too long.
    have none := complete.records.trans (List.append_nil _).symm
    refine ⟨settled, deployment.gapLines, ?_, filter_gapLines,
      faithful_traceOf all none (.inl rfl) ?_⟩
    · rw [describe_of_complete inside complete, lines_traceOf]
    · refine (saidIf_gapLines deployment).of_iff ?_
      simp only [complete.count, true_and]

/-- There is one first task that is amiss. -/
theorem ResolvedTo.eq_of_amiss {count : Nat} {solved : SolvedTask}
    (resolved : deployment.ResolvedTo dag index count)
    (sound : deployment.SoundBelow dag index position)
    (found : (deployment.solution.tasksOf index)[position]? = some solved)
    (amiss : deployment.Amiss dag index position solved) : count = position := by
  rcases Nat.lt_trichotomy count position with before | same | after
  · exfalso
    rcases resolved.ending with whole | ⟨other, otherFound, otherAmiss⟩
    · have present := (List.getElem?_eq_some_iff.mp found).1
      omega
    · exact sound count before other otherFound otherAmiss
  · exact same
  · exact absurd amiss (resolved.sound position after solved found)

theorem placements_of_ok {descriptor : Descriptor}
    (described : (deployment.describe dag index run).outcome = .ok descriptor) :
    ((deployment.describe dag index run).lines.filter LogLine.isPlacement).length
        = dag.tasks.length ∧
      ∀ task < dag.tasks.length, ∃ island unit cpu kind,
        ((deployment.describe dag index run).lines.filter LogLine.isPlacement)[task]?
          = some (.placed index task island unit cpu kind) ∧
        descriptor.taskCpus[task]? = some cpu ∧ descriptor.taskKinds[task]? = some kind := by
  obtain ⟨inside, -, -, settled, complete, rfl⟩ := describe_eq_ok.mp described
  rw [describe_of_complete inside complete]
  simp only
  rw [← lines_traceOf, placements_traceOf filter_gapLines]
  refine ⟨List.length_mapIdx.trans complete.count, fun task inside => ?_⟩
  obtain ⟨entry, found, -⟩ := complete.task_at inside
  refine ⟨entry.placement.islandIndex, entry.placement.unitIndex,
    deployment.cpuAt entry.placement, deployment.kindAt entry.placement, ?_, ?_, ?_⟩
  · rw [List.getElem?_mapIdx, found, Option.map_some]
  · simp only [descriptorOf, assemble, List.getElem?_map, found, Option.map_some]
    rfl
  · simp only [descriptorOf, assemble, List.getElem?_map, found, Option.map_some]
    rfl

/-- The log of a dag is a trace of its conversion, and says nothing else. It tells one placement for
each task that is resolved: those before the task at which the conversion fails, and all of those of
the descriptor when there is one. -/
theorem describe_trace (deployment : Deployment) (dag : Dag) (index : Nat) (run : RunLength)
    (inside : dag.Inside) :
    ∃ trace : Trace, deployment.Faithful dag index trace ∧
      (deployment.describe dag index run).lines = trace.lines ∧
      ((deployment.describe dag index run).lines.filter LogLine.isPlacement).length
        = trace.tasks.length ∧
      (∀ position solved, deployment.SoundBelow dag index position →
        (deployment.solution.tasksOf index)[position]? = some solved →
        deployment.Amiss dag index position solved → ∃ failure,
          deployment.Blocked dag index position solved failure ∧
          (deployment.describe dag index run).outcome = .error failure ∧
          trace.tasks.length = position) ∧
      ∀ descriptor, (deployment.describe dag index run).outcome = .ok descriptor →
        trace.tasks.length = dag.tasks.length ∧
        ∀ task < dag.tasks.length, ∃ island unit cpu kind,
          ((deployment.describe dag index run).lines.filter LogLine.isPlacement)[task]?
            = some (.placed index task island unit cpu kind) ∧
          descriptor.taskCpus[task]? = some cpu ∧ descriptor.taskKinds[task]? = some kind := by
  obtain ⟨settled, gap, lines, silent, faithful⟩ := exists_traceOf deployment index run inside
  have placements :
      ((deployment.describe dag index run).lines.filter LogLine.isPlacement).length
        = (deployment.traceOf dag index settled gap).tasks.length := by
    rw [lines, placements_traceOf silent, List.length_mapIdx, length_tasks_traceOf]
  refine ⟨_, faithful, lines, placements, ?_, ?_⟩
  · intro position solved sound found amiss
    rcases settles_or_blocked deployment dag index position solved with
      ⟨entry, rfl, settles⟩ | ⟨failure, blocked⟩
    · exact absurd amiss settles.not_amiss
    · have refused : (deployment.describe dag index run).outcome = .error failure :=
        outcome_of_refused (.amiss inside sound found blocked)
      exact ⟨failure, blocked, refused, faithful.resolved.eq_of_amiss sound found amiss⟩
  · intro descriptor described
    have told := placements_of_ok described
    exact ⟨placements.symm.trans told.1, told.2⟩

theorem describe_trace_sample : sampleDag.Inside ∧ ∃ trace : Trace,
    sample.Faithful sampleDag 0 trace ∧
    (sample.describe sampleDag 0 sampleRun).lines = trace.lines ∧ trace.tasks.length = 3 := by
  have inside : sampleDag.Inside := by unfold Dag.Inside; decide
  obtain ⟨trace, faithful, lines, -, -, converted⟩ :=
    describe_trace sample sampleDag 0 sampleRun inside
  obtain ⟨descriptor, described⟩ : ∃ descriptor,
      (sample.describe sampleDag 0 sampleRun).outcome = .ok descriptor := ⟨_, rfl⟩
  exact ⟨inside, trace, faithful, lines, (converted descriptor described).1⟩

end Deployment

end DagDeploy
