import DagDeploy.Checked.Conversion
import DagDeploy.Proofs.TaskGraph

/-! Where checked operations are not trapped. Quotients toward zero stay words, the running
hyperperiod stays positive and so its divisors do, and a graph within the limit on its positions
takes all links whose ends it has. -/

namespace DagDeploy.Checked

section numbers

variable {ns : Int}

theorem natAbs_micros (ns : Int) :
    (ns.tdiv Period.nsPerMicro).natAbs = ns.natAbs / 1000 := Int.natAbs_tdiv ns Period.nsPerMicro

theorem divideSigned_eq (fits : Signed ns) :
    divideSigned ns Period.nsPerMicro = pure (ns.tdiv Period.nsPerMicro) := by
  have smaller : Signed (ns.tdiv Period.nsPerMicro) := by
    have magnitude := natAbs_micros ns
    unfold Signed at *
    omega
  simp only [divideSigned, signed, smaller, if_true]
  exact if_neg (by decide)

/-- One more than a thousandth of a word is a word. -/
theorem toMicros_eq (rounding : Period.Rounding) (fits : Signed ns) :
    toMicros rounding ns = pure (Period.toMicros rounding ns) := by
  have next : Signed (ns.tdiv Period.nsPerMicro + 1) := by
    have magnitude := natAbs_micros ns
    unfold Signed at *
    omega
  cases rounding with
  | towardZero => simp only [toMicros, divideSigned_eq fits, pure_bind, Period.toMicros]
  | up =>
    simp only [toMicros, remainderSigned, divideSigned_eq fits, pure_bind, Period.toMicros, signed,
      next, if_true]
    split <;> rfl

theorem product_filter (first second : Nat) :
    (product? first second).filter (· ≤ Period.longest)
      = if first * second ≤ Period.longest then some (first * second) else none := by
  unfold product?
  by_cases isWord : first * second ≤ largest
  · simp only [isWord, if_true, Option.filter_some, decide_eq_true_eq]
  · have within : Period.longest ≤ largest := by decide
    have long : ¬ first * second ≤ Period.longest := fun fits =>
      isWord (Nat.le_trans fits within)
    simp only [isWord, long, if_false, Option.filter_none]

/-- No divisor is zero, because the hyperperiod so far is not. -/
theorem extend_eq {dag current : Nat} {periods : List Nat} (positive : 0 < current) :
    extend dag current periods
      = ofLogged (Logged.ofExcept (Period.extend dag current periods)) := by
  induction periods generalizing dag current with
  | nil => rw [extend, Period.extend, Logged.ofExcept_ok, ofLogged_pure]
  | cons period rest ih =>
    by_cases zero : period = 0
    · simp only [extend, Period.extend, zero, if_true]
      rfl
    have divisor : 0 < current.gcd period := Nat.gcd_pos_of_pos_left _ positive
    have quotient : 0 < current / current.gcd period :=
      Nat.div_pos (Nat.gcd_le_left _ positive) divisor
    simp only [extend, Period.extend, zero, if_false, divide, Nat.ne_of_gt divisor, pure_bind,
      product_filter]
    by_cases fits : current / current.gcd period * period ≤ Period.longest
    · simp only [fits, if_true]
      exact ih (Nat.mul_pos quotient (Nat.pos_of_ne_zero zero))
    · simp only [fits, if_false]
      rfl

theorem divideUp_eq {number divisor : Nat} (isWord : number ≤ largest) (positive : 0 < divisor) :
    divideUp number divisor = pure ((number + divisor - 1) / divisor) := by
  have parts := Nat.div_add_mod number divisor
  have below := Nat.mod_lt number positive
  simp only [divideUp, divide, remainder, Nat.ne_of_gt positive, if_false, pure_bind]
  split
  next left =>
    have fits : number / divisor + 1 ≤ largest := by
      have grown := Nat.le_mul_of_pos_left (number / divisor) positive
      omega
    have up : (number + divisor - 1) / divisor = number / divisor + 1 := by
      rw [Nat.div_eq_iff positive, Nat.succ_mul, Nat.mul_comm]
      omega
    rw [word, if_pos fits, up]
  next whole =>
    have same : (number + divisor - 1) / divisor = number / divisor := by
      rw [Nat.div_eq_iff positive, Nat.mul_comm]
      omega
    rw [same]

theorem repetitions_eq (iterations minSeconds hyperPeriod : Nat) :
    repetitions iterations minSeconds hyperPeriod
      = ofLogged (Logged.ofExcept (Period.repetitions iterations minSeconds hyperPeriod)) := by
  by_cases unasked : minSeconds = 0 ∨ hyperPeriod = 0
  · simp only [repetitions, Period.repetitions, unasked, if_true, Logged.ofExcept_ok, ofLogged_pure]
  have positive : 0 < hyperPeriod := Nat.pos_of_ne_zero (not_or.mp unasked).2
  have same : Period.longestSpan = largest := by decide
  by_cases isWord : minSeconds * Period.nsPerSecond ≤ largest
  · have product : product? minSeconds Period.nsPerSecond
        = some (minSeconds * Period.nsPerSecond) := if_pos isWord
    have plain : Period.repetitions iterations minSeconds hyperPeriod = .ok (max iterations
        ((minSeconds * Period.nsPerSecond + hyperPeriod - 1) / hyperPeriod)) := by
      rw [Period.repetitions, if_neg unasked]
      exact if_pos (same ▸ isWord)
    simp only [repetitions, unasked, if_false, product, divideUp_eq isWord positive, pure_bind,
      plain, Logged.ofExcept_ok, ofLogged_pure]
  · have product : product? minSeconds Period.nsPerSecond = none := if_neg isWord
    have plain : Period.repetitions iterations minSeconds hyperPeriod
        = .error (.minSecondsOverflow minSeconds) := by
      rw [Period.repetitions, if_neg unasked]
      exact if_neg (same ▸ isWord)
    simp only [repetitions, unasked, if_false, product, plain, Logged.ofExcept_error,
      ofLogged_fail]

theorem runLength_eq (periods : List Nat) (iterations minSeconds : Nat) :
    runLength periods iterations minSeconds
      = ofLogged (RunLength.of periods iterations minSeconds) := by
  simp only [runLength, RunLength.of, hyperPeriod, Period.hyperPeriod, extend_eq Nat.one_pos,
    repetitions_eq, ofLogged_bind, ofLogged_pure]

end numbers

section graphs

variable {graph : Graph}

theorem addNodes_eq {nodes : List Graph.Node}
    (room : graph.nodes.length + nodes.length < positions) :
    nodes.foldlM addNode graph = pure (nodes.foldl Graph.addNode graph) := by
  induction nodes generalizing graph with
  | nil => rfl
  | cons node rest ih =>
    rw [List.length_cons] at room
    have added : addNode graph node = pure (graph.addNode node) := if_pos (by omega)
    have further : (graph.addNode node).nodes.length + rest.length < positions := by
      simp only [Graph.addNode, List.length_append, List.length_singleton]
      omega
    rw [List.foldlM_cons, added, pure_bind, ih further, List.foldl_cons]

/-- Ends inside of the graph are not changed by cutting them down. -/
theorem addLinks_eq {links : List Graph.Link} (sized : graph.size ≤ positions)
    (room : graph.links.length + links.length < positions)
    (inside : ∀ link ∈ links, link.source < graph.size ∧ link.target < graph.size) :
    links.foldlM addLink graph = pure { graph with links := graph.links ++ links } := by
  induction links generalizing graph with
  | nil => simp
  | cons link rest ih =>
    rw [List.length_cons] at room
    obtain ⟨⟨source, target⟩, others⟩ := List.forall_mem_cons.mp inside
    have sourceKept : link.source % positions = link.source := Nat.mod_eq_of_lt (by omega)
    have targetKept : link.target % positions = link.target := Nat.mod_eq_of_lt (by omega)
    have free : graph.links.length + 1 < positions := by omega
    have added : addLink graph link = pure { graph with links := graph.links ++ [link] } := by
      simp only [addLink, sourceKept, targetKept, free, source, target, and_self, if_true]
    have further : (graph.links ++ [link]).length + rest.length < positions := by
      simp only [List.length_append, List.length_singleton]
      omega
    rw [List.foldlM_cons, added, pure_bind]
    refine (@ih { graph with links := graph.links ++ [link] } sized further others).trans ?_
    simp

variable {dag : Dag} {index : Nat}

/-- What no graph can hold is refused by a trap, and what is too far out by a failure. -/
theorem toGraph_eq (tasks : dag.tasks.length < positions - 1)
    (edges : dag.edges.length < positions - 1) :
    toGraph dag index = ofLogged (dag.toGraph index) := by
  cases searched : dag.stray? with
  | some edge =>
    have found : (dag.edges.find? fun edge => !edge.inside dag.tasks.length) = some edge := searched
    simp only [toGraph, found, Dag.toGraph_of_stray searched, ofLogged_fail]
  | none =>
    have inside := Dag.stray_eq_none.mp searched
    have absent : (dag.edges.find? fun edge => !edge.inside dag.tasks.length) = none := searched
    have nodes : dag.taskNodes.foldlM addNode Graph.empty = pure ⟨dag.taskNodes, []⟩ := by
      rw [addNodes_eq, Graph.foldl_addNode]
      · rfl
      · simp only [Graph.empty, Dag.taskNodes, List.length_map, List.length_zipIdx, List.length_nil]
        omega
    have links : (dag.edges.map Edge.toLink).foldlM addLink ⟨dag.taskNodes, []⟩
        = pure dag.graph := by
      have size : (⟨dag.taskNodes, []⟩ : Graph).size = dag.tasks.length := Dag.graph_size
      rw [addLinks_eq]
      · rfl
      · omega
      · simp only [List.length_nil, List.length_map]
        omega
      · rw [List.forall_mem_map, size]
        exact inside
    simp only [toGraph, Dag.toGraph, absent, nodes, links, Dag.buildGraph_of_inside inside,
      Logged.ofExcept_mapError_ok, pure_bind, ofLogged_bind, ofLogged_pure]

variable {size row column : Nat} {cells : List (Nat × Nat)}

/-- Marking a cell in place is the same as listing it with the others. -/
theorem set_matrix (row column : Nat) :
    (Graph.matrix size cells).set row (((List.range size).map fun place =>
        if (row, place) ∈ cells then (1 : Int) else 0).set column 1)
      = Graph.matrix size (cells ++ [(row, column)]) := by
  apply List.ext_getElem (by simp [Graph.matrix])
  intro first _ firstInside
  apply List.ext_getElem (by simp [Graph.matrix, List.getElem_set]; split <;> simp)
  intro second _ secondInside
  by_cases sameRow : row = first
  · by_cases sameColumn : column = second
    · simp [Graph.matrix, sameRow, sameColumn]
    · simp [Graph.matrix, sameRow, sameColumn, Ne.symm sameColumn]
  · simp [Graph.matrix, sameRow, Ne.symm sameRow]

theorem read_nodes {node : Nat} (present : node < dag.tasks.length) :
    read dag.graph.nodes node = pure ⟨node, dag.tasks[node].wcetRef⟩ := by
  have stored : dag.graph.nodes[node]? = some ⟨node, dag.tasks[node].wcetRef⟩ := by
    simp [Dag.graph, Dag.getElem?_taskNodes, present]
  simp only [read, stored]

/-- Nodes stand at the positions of their ids, so both ids have a place in the matrix. -/
theorem markLink_eq {link : Graph.Link} (source : link.source < dag.tasks.length)
    (target : link.target < dag.tasks.length) :
    markLink dag.graph (Graph.matrix dag.tasks.length cells) link
      = pure (Graph.matrix dag.tasks.length (cells ++ [(link.source, link.target)])) := by
  have row : read (Graph.matrix dag.tasks.length cells) link.source
      = pure ((List.range dag.tasks.length).map fun place =>
        if (link.source, place) ∈ cells then (1 : Int) else 0) := by
    simp [read, Graph.matrix, source]
  simp only [markLink, read_nodes source, read_nodes target, row, pure_bind, write,
    List.length_map, List.length_range, target, if_true, set_matrix]
  exact if_pos (by simpa [Graph.matrix] using source)

theorem adjacency_eq (inside : dag.Inside) :
    adjacency dag.graph = pure (Graph.matrix dag.tasks.length
      (dag.edges.map fun edge => (edge.source, edge.target))) := by
  have blank : List.replicate dag.graph.size (List.replicate dag.graph.size (0 : Int))
      = Graph.matrix dag.tasks.length [] := by
    simp [Graph.matrix, List.map_const']
  have marked : ∀ (cells : List (Nat × Nat)) (edges : List Edge),
      (∀ edge ∈ edges, edge.source < dag.tasks.length ∧ edge.target < dag.tasks.length) →
      (edges.map Edge.toLink).foldlM (markLink dag.graph) (Graph.matrix dag.tasks.length cells)
        = pure (Graph.matrix dag.tasks.length
          (cells ++ edges.map fun edge => (edge.source, edge.target))) := by
    intro cells edges
    induction edges generalizing cells with
    | nil => simp
    | cons edge rest ih =>
      intro all
      obtain ⟨⟨source, target⟩, others⟩ := List.forall_mem_cons.mp all
      have first : markLink dag.graph (Graph.matrix dag.tasks.length cells) edge.toLink
          = pure (Graph.matrix dag.tasks.length (cells ++ [(edge.source, edge.target)])) :=
        markLink_eq source target
      rw [List.map_cons, List.foldlM_cons, first, pure_bind, ih _ others]
      simp
  rw [adjacency, blank]
  exact marked [] dag.edges inside

end graphs

section cpus

variable {deployment : Deployment}

/-- Units are fewer than words, even by the cores that come before them. -/
theorem cpuOf_eq {board : Platform} {island : Island} {unitIndex : Nat}
    (sized : island.units.length < largest - 3) (inside : unitIndex < island.units.length) :
    cpuOf board island unitIndex = pure (board.cpuOf island unitIndex) := by
  have fits : Platform.littleCores + unitIndex ≤ largest := by
    unfold Platform.littleCores
    omega
  unfold cpuOf Platform.cpuOf
  split
  · rfl
  cases board with
  | odroid =>
    simp only [word, fits, if_true]
    split <;> rfl
  | zcu102 | xavierAgx => rfl

theorem cpuTable_eq
    (sized : ∀ island ∈ deployment.solution.islands, island.units.length < largest - 3) :
    cpuTable deployment = pure deployment.cpuTable := by
  have rows : ∀ island ∈ deployment.solution.islands.filter fun island =>
        !deployment.platform.isAccelerator island,
      ((List.range island.units.length).mapM fun unitIndex => do
        let cpu ← cpuOf deployment.platform island unitIndex
        return (cpu, island.frequency)) = pure ((List.range island.units.length).map fun unitIndex =>
          (deployment.platform.cpuOf island unitIndex, island.frequency)) := by
    intro island member
    apply mapM_eq_map
    intro unitIndex inside
    rw [cpuOf_eq (sized island (List.mem_filter.mp member).1) (List.mem_range.mp inside),
      pure_bind]
  simp only [cpuTable, mapM_eq_map rows, pure_bind, Deployment.cpuTable, List.flatMap_def]

theorem cpuFrequencies_eq
    (sized : ∀ island ∈ deployment.solution.islands, island.units.length < largest - 3) :
    cpuFrequencies deployment = ofLogged deployment.cpuFrequencies := by
  simp only [cpuFrequencies, cpuTable_eq sized, pure_bind, Deployment.cpuFrequencies,
    ofLogged_bind, ofLogged_pure]

end cpus

end DagDeploy.Checked
