import DagDeploy.Model
import DagDeploy.Proofs.Traversals

/-! The graph of a dag. When all edges are in range it can be built, its nodes stand at the position
of their ids, and so its adjacency matrix exists. -/

namespace DagDeploy.Graph

theorem foldl_addNode (graph : Graph) (nodes : List Node) :
    nodes.foldl addNode graph = { graph with nodes := graph.nodes ++ nodes } := by
  induction nodes generalizing graph with
  | nil => simp
  | cons node rest ih => simp [ih, addNode]

theorem foldlM_addLink (graph : Graph) (links : List Link)
    (inside : ∀ link ∈ links, link.source < graph.size ∧ link.target < graph.size) :
    links.foldlM addLink graph = .ok { graph with links := graph.links ++ links } := by
  induction links generalizing graph with
  | nil => simp; rfl
  | cons link rest ih =>
    obtain ⟨first, others⟩ := List.forall_mem_cons.mp inside
    have added : addLink graph link = .ok { graph with links := graph.links ++ [link] } :=
      if_pos first
    rw [List.foldlM_cons, added]
    refine (ih { graph with links := graph.links ++ [link] } others).trans ?_
    simp

/-- Rows exist for all links as soon as each node is stored at its id. -/
theorem adjacency_of_rows {graph : Graph}
    (rows : ∀ link ∈ graph.links, graph.rowsOf link = .ok (link.source, link.target)) :
    graph.adjacency
      = .ok (matrix graph.size (graph.links.map fun link => (link.source, link.target))) := by
  have cells : graph.links.mapM graph.rowsOf
      = .ok (graph.links.map fun link => (link.source, link.target)) := mapM_eq_map rows
  rw [adjacency, cells]
  rfl

end DagDeploy.Graph

namespace DagDeploy.Dag

variable {dag : Dag} {index : Nat}

/-- Every edge joins tasks of the dag. -/
def Inside (dag : Dag) : Prop :=
  ∀ edge ∈ dag.edges, edge.source < dag.tasks.length ∧ edge.target < dag.tasks.length

/-- The first edge that leaves the dag. -/
def stray? (dag : Dag) : Option Edge := dag.edges.find? fun edge => !edge.inside dag.tasks.length

def graph (dag : Dag) : Graph := ⟨dag.taskNodes, dag.edges.map Edge.toLink⟩

theorem stray_eq_none : dag.stray? = none ↔ dag.Inside := by
  simp [stray?, Inside, Edge.inside, List.find?_eq_none]

/-- The first edge that leaves the dag, and only such edges before it as do not. -/
theorem stray_eq_some {edge : Edge} :
    dag.stray? = some edge ↔
      ¬ (edge.source < dag.tasks.length ∧ edge.target < dag.tasks.length) ∧
        ∃ before after, dag.edges = before ++ edge :: after ∧ ∀ earlier ∈ before,
          earlier.source < dag.tasks.length ∧ earlier.target < dag.tasks.length := by
  simp only [stray?, List.find?_eq_some_iff_append, Edge.inside, Bool.not_not, Bool.not_eq_true',
    Bool.and_eq_true, Bool.and_eq_false_iff, decide_eq_true_eq, decide_eq_false_iff_not,
    Decidable.not_and_iff_not_or_not]

@[simp] theorem graph_size : dag.graph.size = dag.tasks.length := by
  simp [graph, Graph.size, taskNodes]

theorem getElem?_taskNodes (node : Nat) :
    dag.taskNodes[node]? = dag.tasks[node]?.map fun task => ⟨node, task.wcetRef⟩ := by
  simp [taskNodes, Function.comp_def]

theorem buildGraph_of_inside (inside : dag.Inside) : dag.buildGraph = .ok dag.graph := by
  have links : ∀ link ∈ dag.edges.map Edge.toLink,
      link.source < dag.taskNodes.length ∧ link.target < dag.taskNodes.length := by
    intro link member
    obtain ⟨edge, present, rfl⟩ := List.mem_map.mp member
    simpa [taskNodes, Edge.toLink] using inside edge present
  rw [buildGraph, Graph.foldl_addNode]
  exact Graph.foldlM_addLink _ _ links

theorem toGraph_of_inside (inside : dag.Inside) : dag.toGraph index
    = ⟨if dag.graph.isCyclic then [.cycle index] else [], .ok dag.graph⟩ := by
  have absent : (dag.edges.find? fun edge => !edge.inside dag.tasks.length) = none :=
    stray_eq_none.mpr inside
  simp only [toGraph, absent, buildGraph_of_inside inside, Logged.ofExcept_mapError_ok,
    pure_bind, Logged.sayIf_bind, Logged.lines_pure, Logged.outcome_pure, List.append_nil]

theorem toGraph_of_stray {edge : Edge} (stray : dag.stray? = some edge) : dag.toGraph index
    = Logged.fail
        (.inconsistent (.invalidEdge index edge.source edge.target dag.tasks.length)) := by
  have found : (dag.edges.find? fun edge => !edge.inside dag.tasks.length) = some edge := stray
  simp only [toGraph, found]

theorem toGraph_eq_ok {graph : Graph} (built : (dag.toGraph index).outcome = .ok graph) :
    dag.Inside ∧ graph = dag.graph := by
  cases searched : dag.stray? with
  | some edge =>
    rw [toGraph_of_stray searched] at built
    cases built
  | none =>
    have inside := stray_eq_none.mp searched
    rw [toGraph_of_inside inside] at built
    cases built
    exact ⟨inside, rfl⟩

theorem rowOf_graph {node : Nat} (present : node < dag.tasks.length) :
    dag.graph.rowOf node = .ok node := by
  have stored : dag.graph.nodes[node]? = some ⟨node, dag.tasks[node].wcetRef⟩ := by
    simp [graph, getElem?_taskNodes, present]
  simp only [Graph.rowOf, stored, graph_size, present, if_true]

theorem adjacency_of_inside (inside : dag.Inside) :
    dag.graph.adjacency = .ok (Graph.matrix dag.tasks.length
      (dag.edges.map fun edge => (edge.source, edge.target))) := by
  have rows : ∀ link ∈ dag.graph.links,
      dag.graph.rowsOf link = .ok (link.source, link.target) := by
    intro link member
    obtain ⟨edge, present, rfl⟩ := List.mem_map.mp member
    obtain ⟨source, target⟩ := inside edge present
    simp only [Graph.rowsOf, Edge.toLink, rowOf_graph source, rowOf_graph target]
    rfl
  rw [Graph.adjacency_of_rows rows, graph_size]
  simp [graph, Edge.toLink, Function.comp_def]

end DagDeploy.Dag
