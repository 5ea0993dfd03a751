import DagDeploy.Logged

/-! The model document: periodic directed acyclic graphs of tasks. Tasks are addressed by their
position. The acyclicity is not enforced; a cycle is only reported. -/

namespace DagDeploy

structure Task where
  /-- Reference worst case execution time in ns; zero where the producer does not know it. -/
  wcetRef : Int
  deriving DecidableEq, Repr

structure Edge where
  source : Nat
  target : Nat
  label : Option Nat
  deriving DecidableEq, Repr

namespace Edge

/-- An edge is written as two values, or three with a label size; this is any other number. -/
structure WrongLength where
  values : Nat
  deriving DecidableEq, Repr

def WrongLength.message (wrong : WrongLength) : String :=
  s!"an edge must be [src, dst] or [src, dst, label_size], got {wrong.values} values"

def ofValues : List Nat → Except WrongLength Edge
  | [source, target] => .ok ⟨source, target, none⟩
  | [source, target, label] => .ok ⟨source, target, some label⟩
  | values => .error ⟨values.length⟩

def values (edge : Edge) : List Nat := edge.source :: edge.target :: edge.label.toList

theorem ofValues_values (edge : Edge) : ofValues edge.values = .ok edge := by
  obtain ⟨source, target, label⟩ := edge
  cases label <;> rfl

def toLink (edge : Edge) : Graph.Link := ⟨edge.source, edge.target, edge.label.getD 0⟩

/-- Both ends are tasks of a model with `tasks` tasks. -/
def inside (edge : Edge) (tasks : Nat) : Bool := edge.source < tasks && edge.target < tasks

end Edge

/-- Period and deadline are in ns. -/
structure Dag where
  tasks : List Task
  edges : List Edge
  period : Nat
  deadline : Int
  deriving DecidableEq, Repr

namespace Dag

def taskNodes (dag : Dag) : List Graph.Node :=
  dag.tasks.zipIdx.map fun (task, index) => ⟨index, task.wcetRef⟩

/-- Node positions are task ids. -/
def buildGraph (dag : Dag) : Except Graph.Fault Graph :=
  let bare := dag.taskNodes.foldl Graph.addNode Graph.empty
  (dag.edges.map Edge.toLink).foldlM Graph.addLink bare

def toGraph (dag : Dag) (index : Nat) : Logged Graph := do
  let tasks := dag.tasks.length
  match dag.edges.find? fun edge => !edge.inside tasks with
  | some edge =>
    Logged.fail (.inconsistent (.invalidEdge index edge.source edge.target tasks))
  | none =>
    let graph ← Logged.ofExcept (dag.buildGraph.mapError .fault)
    Logged.sayIf graph.isCyclic (.cycle index)
    return graph

end Dag

structure DagSet where
  dags : List Dag
  deriving DecidableEq, Repr

def DagSet.periods (set : DagSet) : List Nat := set.dags.map Dag.period

end DagDeploy
