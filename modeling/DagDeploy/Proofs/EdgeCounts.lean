import DagDeploy.Proofs.Description
import Mathlib.Algebra.BigOperators.Group.List.Basic
import Mathlib.Algebra.BigOperators.Ring.Finset
import Mathlib.Algebra.Order.BigOperators.Group.Finset
import Mathlib.Data.Int.Order.Basic

/-! The degrees and the matrix of a descriptor against the list of edges. Degrees count each edge of
the list, and the matrix marks each pair of ends once, so rows, columns and the whole of the matrix
hold at most as many ones as there are edges; without parallel edges, they hold as many. -/

namespace DagDeploy

/-- The greatest of the first `size` values, and zero when there are none. -/
structure Greatest {α : Type} [LE α] [Zero α] (size : Nat) (value : Nat → α) (greatest : α) :
    Prop where
  bound : ∀ place < size, value place ≤ greatest
  reached : size = 0 ∧ greatest = 0 ∨ ∃ place < size, value place = greatest

theorem greatest_foldl (size : Nat) (value : Nat → Nat) :
    Greatest size value (((List.range size).map value).foldl max 0) := by
  induction size with
  | zero => exact ⟨by simp, .inl ⟨rfl, rfl⟩⟩
  | succ size ih =>
    simp only [List.range_succ, List.map_append, List.map_cons, List.map_nil, List.foldl_append,
      List.foldl_cons, List.foldl_nil]
    constructor
    · intro place inside
      rcases Nat.lt_succ_iff_lt_or_eq.mp inside with before | rfl
      · exact Nat.le_trans (ih.bound place before) (Nat.le_max_left _ _)
      · exact Nat.le_max_right _ _
    · right
      rcases Nat.le_total (((List.range size).map value).foldl max 0) (value size)
        with last | other
      · exact ⟨size, Nat.lt_succ_self _, (Nat.max_eq_right last).symm⟩
      rw [Nat.max_eq_left other]
      rcases ih.reached with ⟨empty, zero⟩ | ⟨place, inside, reaches⟩
      · rw [zero] at other ⊢
        exact ⟨size, Nat.lt_succ_self _, Nat.le_zero.mp other⟩
      · exact ⟨place, Nat.lt_succ_of_lt inside, reaches⟩

/-- Counts stay greatest as whole numbers. -/
theorem Greatest.cast {size : Nat} {count : Nat → Nat} {value : Nat → Int} {greatest : Nat}
    (counts : Greatest size count greatest) (same : ∀ place < size, value place = count place) :
    Greatest size value (greatest : Int) where
  bound place inside := by
    rw [same place inside]
    exact Int.ofNat_le.mpr (counts.bound place inside)
  reached := by
    rcases counts.reached with ⟨empty, zero⟩ | ⟨place, inside, reaches⟩
    · exact .inl ⟨empty, by simp [zero]⟩
    · exact .inr ⟨place, inside, by rw [same place inside, reaches]⟩

namespace Graph

theorem greatest_outDegree (graph : Graph) :
    Greatest graph.size graph.outDegree graph.maxOutDegree :=
  greatest_foldl graph.size graph.outDegree

theorem greatest_inDegree (graph : Graph) :
    Greatest graph.size graph.inDegree graph.maxInDegree :=
  greatest_foldl graph.size graph.inDegree

open Finset (range)

/-- Sums over the keys of a list count its elements, whatever else is asked of them. -/
theorem sum_countP {α : Type} {size : Nat} {key : α → Nat} (asked : α → Bool) {items : List α}
    (inside : ∀ item ∈ items, key item < size) :
    ∑ place ∈ range size, items.countP (fun item => asked item && key item == place)
      = items.countP asked := by
  induction items with
  | nil => simp
  | cons item rest ih =>
    obtain ⟨first, others⟩ := List.forall_mem_cons.mp inside
    simp only [List.countP_cons, Finset.sum_add_distrib, ih others]
    cases asked item <;> simp [first]

/-- One if the cell is marked. -/
def mark (cells : List (Nat × Nat)) (row column : Nat) : Nat :=
  if cells.contains (row, column) then 1 else 0

variable {cells : List (Nat × Nat)} {size row column : Nat}

theorem mark_of_mem (member : (row, column) ∈ cells) : mark cells row column = 1 :=
  if_pos (List.contains_iff_mem.mpr member)

theorem mark_of_notMem (absent : (row, column) ∉ cells) : mark cells row column = 0 :=
  if_neg (mt List.contains_iff_mem.mp absent)

theorem mark_le_count : mark cells row column ≤ cells.count (row, column) := by
  by_cases member : (row, column) ∈ cells
  · rw [mark_of_mem member]
    exact List.count_pos_iff.mpr member
  · rw [mark_of_notMem member]
    exact Nat.zero_le _

theorem mark_eq_count (distinct : cells.Nodup) :
    mark cells row column = cells.count (row, column) := by
  by_cases member : (row, column) ∈ cells
  · rw [mark_of_mem member, List.count_eq_one_of_mem distinct member]
  · rw [mark_of_notMem member, List.count_eq_zero.mpr member]

theorem sum_count_row (inside : ∀ cell ∈ cells, cell.1 < size ∧ cell.2 < size) :
    ∑ column ∈ range size, cells.count (row, column) = cells.countP (·.1 == row) := by
  have split : ∀ column, cells.count (row, column)
      = cells.countP fun cell => cell.1 == row && cell.2 == column := by
    intro column
    rfl
  simp only [split]
  exact sum_countP (fun cell => cell.1 == row) fun cell member => (inside cell member).2

theorem sum_count_column (inside : ∀ cell ∈ cells, cell.1 < size ∧ cell.2 < size) :
    ∑ row ∈ range size, cells.count (row, column) = cells.countP (·.2 == column) := by
  have split : ∀ row, cells.count (row, column)
      = cells.countP fun cell => cell.2 == column && cell.1 == row := by
    intro row
    apply List.countP_congr
    intro cell _
    simp [Prod.ext_iff, and_comm]
  simp only [split]
  exact sum_countP (fun cell => cell.2 == column) fun cell member => (inside cell member).1

theorem sum_count (inside : ∀ cell ∈ cells, cell.1 < size ∧ cell.2 < size) :
    ∑ row ∈ range size, ∑ column ∈ range size, cells.count (row, column) = cells.length := by
  have rows : ∀ row, ∑ column ∈ range size, cells.count (row, column)
      = cells.countP fun cell => true && cell.1 == row := by
    intro row
    simpa using sum_count_row inside
  simp only [rows]
  rw [sum_countP (fun _ => true) fun cell member => (inside cell member).1]
  simp

theorem sum_map_range {α : Type} [AddCommMonoid α] (value : Nat → α) :
    ((List.range size).map value).sum = ∑ place ∈ range size, value place := rfl

theorem cell_matrix (rowInside : row < size) (columnInside : column < size) :
    ((matrix size cells)[row]?.bind fun entries => entries[column]?)
      = some (mark cells row column : Int) := by
  simp [matrix, rowInside, columnInside, mark]

theorem sum_row_matrix (inside : row < size) :
    ((matrix size cells)[row]?.getD []).sum
      = ((∑ column ∈ range size, mark cells row column : Nat) : Int) := by
  simp [matrix, inside, mark, sum_map_range]

theorem sum_column_matrix (inside : column < size) :
    ((matrix size cells).map fun entries => entries[column]?.getD 0).sum
      = ((∑ row ∈ range size, mark cells row column : Nat) : Int) := by
  simp [matrix, inside, mark, sum_map_range, Function.comp_def]

theorem count_one_matrix : (matrix size cells).flatten.count 1
    = ∑ row ∈ range size, ∑ column ∈ range size, mark cells row column := by
  have ones : ∀ row width, ((List.range width).map fun column =>
      if (row, column) ∈ cells then (1 : Int) else 0).count 1
        = ∑ column ∈ range width, mark cells row column := by
    intro row width
    induction width with
    | zero => rfl
    | succ width ih =>
      rw [List.range_succ, List.map_append, List.count_append, ih, Finset.sum_range_succ]
      congr 1
      by_cases member : (row, width) ∈ cells
      · simp [mark_of_mem, member]
      · simp [mark_of_notMem, member]
  rw [List.count_flatten, matrix, List.map_map]
  simp only [Function.comp_def, ones]
  exact sum_map_range _

end Graph

namespace Dag

/-- The edges that leave a task, parallel ones counted each. -/
def leaving (dag : Dag) (task : Nat) : Nat := dag.edges.countP (·.source == task)

def entering (dag : Dag) (task : Nat) : Nat := dag.edges.countP (·.target == task)

/-- The pairs of tasks that the edges join, with or without a label. -/
def ends (dag : Dag) : List (Nat × Nat) := dag.edges.map fun edge => (edge.source, edge.target)

end Dag

namespace Descriptor

def rowSum (descriptor : Descriptor) (row : Nat) : Int := (descriptor.adjacency[row]?.getD []).sum

def columnSum (descriptor : Descriptor) (column : Nat) : Int :=
  (descriptor.adjacency.map fun entries => entries[column]?.getD 0).sum

def ones (descriptor : Descriptor) : Nat := descriptor.adjacency.flatten.count 1

/-- The entry at a row and a column of the matrix, if there is one. -/
def cell? (descriptor : Descriptor) (row column : Nat) : Option Int :=
  descriptor.adjacency[row]?.bind fun entries => entries[column]?

/-- The numbers and the matrix that a scan of the edges gives. -/
structure Scans (descriptor : Descriptor) (dag : Dag) : Prop where
  edges : descriptor.edgeCount = dag.edges.length
  leaving : Greatest dag.tasks.length dag.leaving descriptor.maxOutEdges
  entering : Greatest dag.tasks.length dag.entering descriptor.maxInEdges
  height : descriptor.adjacency.length = dag.tasks.length
  width : ∀ entries ∈ descriptor.adjacency, entries.length = dag.tasks.length
  joined : ∀ row < dag.tasks.length, ∀ column < dag.tasks.length,
    (∃ edge ∈ dag.edges, edge.source = row ∧ edge.target = column) →
      descriptor.cell? row column = some 1
  apart : ∀ row < dag.tasks.length, ∀ column < dag.tasks.length,
    (¬ ∃ edge ∈ dag.edges, edge.source = row ∧ edge.target = column) →
      descriptor.cell? row column = some 0

/-- The matrix holds no more ones than the counts of edges allow. -/
structure Limited (descriptor : Descriptor) (dag : Dag) : Prop where
  rows : ∀ row < dag.tasks.length, descriptor.rowSum row ≤ descriptor.maxOutEdges
  columns : ∀ column < dag.tasks.length, descriptor.columnSum column ≤ descriptor.maxInEdges
  total : descriptor.ones ≤ descriptor.edgeCount

/-- It holds as many ones as there are edges, and the greatest sums are the greatest counts. -/
structure Exhausted (descriptor : Descriptor) (dag : Dag) : Prop where
  rows : Greatest dag.tasks.length descriptor.rowSum descriptor.maxOutEdges
  columns : Greatest dag.tasks.length descriptor.columnSum descriptor.maxInEdges
  total : descriptor.ones = descriptor.edgeCount

end Descriptor

namespace Dag

variable {dag : Dag}

theorem outDegree_graph : dag.graph.outDegree = dag.leaving := by
  funext task
  simp [Graph.outDegree, graph, leaving, List.countP_map, Function.comp_def, Edge.toLink]

theorem inDegree_graph : dag.graph.inDegree = dag.entering := by
  funext task
  simp [Graph.inDegree, graph, entering, List.countP_map, Function.comp_def, Edge.toLink]

theorem ends_inside (inside : dag.Inside) :
    ∀ cell ∈ dag.ends, cell.1 < dag.tasks.length ∧ cell.2 < dag.tasks.length := by
  intro cell member
  obtain ⟨edge, present, rfl⟩ := List.mem_map.mp member
  exact inside edge present

theorem mem_ends {row column : Nat} :
    (row, column) ∈ dag.ends ↔ ∃ edge ∈ dag.edges, edge.source = row ∧ edge.target = column := by
  simp [ends]

theorem countP_ends_source (task : Nat) : dag.ends.countP (·.1 == task) = dag.leaving task := by
  simp [ends, leaving, List.countP_map, Function.comp_def]

theorem countP_ends_target (task : Nat) : dag.ends.countP (·.2 == task) = dag.entering task := by
  simp [ends, entering, List.countP_map, Function.comp_def]

end Dag

namespace Deployment

open Finset (range)

variable {deployment : Deployment} {dag : Dag} {index : Nat} {run : RunLength}
  {settled : List Settled}

theorem cell_descriptorOf {row column : Nat} (rowInside : row < dag.tasks.length)
    (columnInside : column < dag.tasks.length) :
    (deployment.descriptorOf dag index run settled).cell? row column
      = some (Graph.mark dag.ends row column : Int) :=
  Graph.cell_matrix rowInside columnInside

theorem scans_descriptorOf :
    (deployment.descriptorOf dag index run settled).Scans dag where
  edges := rfl
  leaving := by
    have greatest := dag.graph.greatest_outDegree
    rwa [Dag.graph_size, Dag.outDegree_graph] at greatest
  entering := by
    have greatest := dag.graph.greatest_inDegree
    rwa [Dag.graph_size, Dag.inDegree_graph] at greatest
  height := by simp [descriptorOf, assemble, Graph.matrix]
  width entries member := by
    obtain ⟨row, -, rfl⟩ := List.mem_map.mp member
    simp
  joined row rowInside column columnInside edge := by
    rw [cell_descriptorOf rowInside columnInside, Graph.mark_of_mem (Dag.mem_ends.mpr edge)]
    rfl
  apart row rowInside column columnInside unjoined := by
    rw [cell_descriptorOf rowInside columnInside,
      Graph.mark_of_notMem (mt Dag.mem_ends.mp unjoined)]
    rfl

theorem rowSum_descriptorOf {row : Nat} (inside : row < dag.tasks.length) :
    (deployment.descriptorOf dag index run settled).rowSum row
      = ((∑ column ∈ range dag.tasks.length, Graph.mark dag.ends row column : Nat) : Int) :=
  Graph.sum_row_matrix inside

theorem columnSum_descriptorOf {column : Nat} (inside : column < dag.tasks.length) :
    (deployment.descriptorOf dag index run settled).columnSum column
      = ((∑ row ∈ range dag.tasks.length, Graph.mark dag.ends row column : Nat) : Int) :=
  Graph.sum_column_matrix inside

theorem ones_descriptorOf : (deployment.descriptorOf dag index run settled).ones
    = ∑ row ∈ range dag.tasks.length, ∑ column ∈ range dag.tasks.length,
        Graph.mark dag.ends row column :=
  Graph.count_one_matrix

/-- A mark stands for at least one edge. -/
theorem limited_descriptorOf (inside : dag.Inside) :
    (deployment.descriptorOf dag index run settled).Limited dag where
  rows row rowInside := by
    have bound : dag.leaving row
        ≤ (deployment.descriptorOf dag index run settled).maxOutEdges :=
      scans_descriptorOf.leaving.bound row rowInside
    rw [rowSum_descriptorOf rowInside, Int.ofNat_le]
    calc ∑ column ∈ range dag.tasks.length, Graph.mark dag.ends row column
        ≤ ∑ column ∈ range dag.tasks.length, dag.ends.count (row, column) :=
          Finset.sum_le_sum fun column _ => Graph.mark_le_count
      _ = dag.leaving row := by
        rw [Graph.sum_count_row (Dag.ends_inside inside), Dag.countP_ends_source]
      _ ≤ _ := bound
  columns column columnInside := by
    have bound : dag.entering column
        ≤ (deployment.descriptorOf dag index run settled).maxInEdges :=
      scans_descriptorOf.entering.bound column columnInside
    rw [columnSum_descriptorOf columnInside, Int.ofNat_le]
    calc ∑ row ∈ range dag.tasks.length, Graph.mark dag.ends row column
        ≤ ∑ row ∈ range dag.tasks.length, dag.ends.count (row, column) :=
          Finset.sum_le_sum fun row _ => Graph.mark_le_count
      _ = dag.entering column := by
        rw [Graph.sum_count_column (Dag.ends_inside inside), Dag.countP_ends_target]
      _ ≤ _ := bound
  total := by
    rw [ones_descriptorOf]
    calc ∑ row ∈ range dag.tasks.length, ∑ column ∈ range dag.tasks.length,
          Graph.mark dag.ends row column
        ≤ ∑ row ∈ range dag.tasks.length, ∑ column ∈ range dag.tasks.length,
          dag.ends.count (row, column) :=
          Finset.sum_le_sum fun row _ => Finset.sum_le_sum fun column _ => Graph.mark_le_count
      _ = dag.ends.length := Graph.sum_count (Dag.ends_inside inside)
      _ = dag.edges.length := List.length_map _

/-- Without parallel edges a mark stands for exactly one of them. -/
theorem exhausted_descriptorOf (inside : dag.Inside) (distinct : dag.ends.Nodup) :
    (deployment.descriptorOf dag index run settled).Exhausted dag where
  rows := by
    refine scans_descriptorOf.leaving.cast fun row rowInside => ?_
    rw [rowSum_descriptorOf rowInside]
    simp only [Graph.mark_eq_count distinct]
    rw [Graph.sum_count_row (Dag.ends_inside inside), Dag.countP_ends_source]
  columns := by
    refine scans_descriptorOf.entering.cast fun column columnInside => ?_
    rw [columnSum_descriptorOf columnInside]
    simp only [Graph.mark_eq_count distinct]
    rw [Graph.sum_count_column (Dag.ends_inside inside), Dag.countP_ends_target]
  total := by
    rw [ones_descriptorOf]
    simp only [Graph.mark_eq_count distinct]
    rw [Graph.sum_count (Dag.ends_inside inside), Dag.ends, List.length_map]
    rfl

/-- The degrees and the matrix of a descriptor are those of a scan of the edges. -/
theorem describe_scans_edges (deployment : Deployment) (dag : Dag) (index : Nat)
    (run : RunLength) (descriptor : Descriptor)
    (described : (deployment.describe dag index run).outcome = .ok descriptor) :
    descriptor.Scans dag ∧ descriptor.Limited dag ∧
      (dag.ends.Nodup → descriptor.Exhausted dag) := by
  obtain ⟨inside, -, -, settled, -, rfl⟩ := describe_eq_ok.mp described
  exact ⟨scans_descriptorOf, limited_descriptorOf inside, exhausted_descriptorOf inside⟩

theorem describe_scans_edges_sample : ∃ descriptor,
    (sample.describe sampleDag 0 sampleRun).outcome = .ok descriptor ∧ sampleDag.ends.Nodup ∧
      descriptor.Scans sampleDag ∧ descriptor.Limited sampleDag ∧
      descriptor.Exhausted sampleDag := by
  obtain ⟨descriptor, described⟩ :
      ∃ descriptor, (sample.describe sampleDag 0 sampleRun).outcome = .ok descriptor := ⟨_, rfl⟩
  have distinct : sampleDag.ends.Nodup := by decide
  obtain ⟨scans, limited, exhausted⟩ :=
    describe_scans_edges sample sampleDag 0 sampleRun descriptor described
  exact ⟨descriptor, described, distinct, scans, limited, exhausted distinct⟩

end Deployment

end DagDeploy
