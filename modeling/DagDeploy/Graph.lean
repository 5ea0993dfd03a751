/-! Directed multigraphs. Nodes and links are kept in the order of their addition; a node is
addressed by its position, and carries an id of its own that indexes the adjacency matrix. A graph
is cyclic when peeling off the links that leave a source never empties it. -/

namespace DagDeploy

structure Graph.Node where
  id : Nat
  wcetRef : Int
  deriving DecidableEq, Repr

structure Graph.Link where
  source : Nat
  target : Nat
  weight : Nat
  deriving DecidableEq, Repr

structure Graph where
  nodes : List Graph.Node
  links : List Graph.Link
  deriving DecidableEq, Repr

namespace Graph

/-- A request that the graph cannot answer. -/
inductive Fault where
  | missingNode
  | idOutside (size id : Nat)
  deriving DecidableEq, Repr

def Fault.message : Fault → String
  | .missingNode => "Graph::add_edge: node indices out of bounds"
  | .idOutside size id => s!"index out of bounds: the len is {size} but the index is {id}"

def empty : Graph := ⟨[], []⟩

def size (graph : Graph) : Nat := graph.nodes.length

def addNode (graph : Graph) (node : Node) : Graph :=
  { graph with nodes := graph.nodes ++ [node] }

/-- Links only join nodes that exist. -/
def addLink (graph : Graph) (link : Link) : Except Fault Graph :=
  if link.source < graph.size ∧ link.target < graph.size then
    .ok { graph with links := graph.links ++ [link] }
  else .error .missingNode

/-- Parallel links count once each. -/
def inDegree (graph : Graph) (node : Nat) : Nat := graph.links.countP (·.target == node)

def outDegree (graph : Graph) (node : Nat) : Nat := graph.links.countP (·.source == node)

def inDegrees (graph : Graph) : List Nat := (List.range graph.size).map graph.inDegree

def outDegrees (graph : Graph) : List Nat := (List.range graph.size).map graph.outDegree

def maxInDegree (graph : Graph) : Nat := graph.inDegrees.foldl max 0

def maxOutDegree (graph : Graph) : Nat := graph.outDegrees.foldl max 0

/-- The id stored in a node, as an index of a matrix with one row per node. -/
def rowOf (graph : Graph) (node : Nat) : Except Fault Nat :=
  match graph.nodes[node]? with
  | none => .error .missingNode
  | some stored =>
    if stored.id < graph.size then .ok stored.id else .error (.idOutside graph.size stored.id)

def rowsOf (graph : Graph) (link : Link) : Except Fault (Nat × Nat) := do
  let source ← graph.rowOf link.source
  let target ← graph.rowOf link.target
  return (source, target)

/-- The square matrix with a one exactly at the given cells. -/
def matrix (size : Nat) (cells : List (Nat × Nat)) : List (List Int) :=
  (List.range size).map fun row =>
    (List.range size).map fun column => if (row, column) ∈ cells then 1 else 0

/-- Indexed by the ids stored in the nodes. The first link with an id that has no row is reported,
its source before its target. -/
def adjacency (graph : Graph) : Except Fault (List (List Int)) := do
  let cells ← graph.links.mapM graph.rowsOf
  return matrix graph.size cells

/-- One round of peeling keeps the links whose source is the target of some link. -/
def peel (links : List (Nat × Nat)) : List (Nat × Nat) :=
  links.filter fun link => links.any (·.2 == link.1)

def core : Nat → List (Nat × Nat) → List (Nat × Nat)
  | 0, links => links
  | rounds + 1, links =>
    let left := peel links
    if left.length = links.length then links else core rounds left

def isCyclic (graph : Graph) : Bool :=
  let links := graph.links.map fun link => (link.source, link.target)
  !(core links.length links).isEmpty

end Graph

end DagDeploy
