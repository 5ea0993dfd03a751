import DagDeploy.Model
import DagDeploy.Yaml.Shape

/-! The model document: a record with the list `dags`. -/

namespace DagDeploy

open Yaml

def Task.toNode (task : Task) : Node := .ofRecord [("wcet_ref", .ofInt task.wcetRef)]

def Task.ofNode? (node : Node) : Option Task := do
  let fields ← node.fields?
  return { wcetRef := ← Node.field? fields "wcet_ref" (Node.int? 63) }

def Task.shape : Shape := .record true [("wcet_ref", .whole)]

def Edge.toNode (edge : Edge) : Node := .ofList .ofNat edge.values

def Edge.ofNode? (node : Node) : Option Edge := do
  (Edge.ofValues (← node.list? Node.nat?)).toOption

def Dag.toNode (dag : Dag) : Node := .ofRecord [
  ("tasks", .ofList Task.toNode dag.tasks),
  ("edge_list", .ofList Edge.toNode dag.edges),
  ("activation_period", .ofNat dag.period),
  ("deadline", .ofInt dag.deadline)]

def Dag.ofNode? (node : Node) : Option Dag := do
  let fields ← node.fields?
  return {
    tasks := ← Node.field? fields "tasks" (Node.list? Task.ofNode?)
    edges := ← Node.field? fields "edge_list" (Node.list? Edge.ofNode?)
    period := ← Node.field? fields "activation_period" Node.nat?
    deadline := ← Node.field? fields "deadline" (Node.int? 63) }

def Dag.shape : Shape := .record true [
  ("tasks", .list Task.shape), ("edge_list", .whole), ("activation_period", .whole),
  ("deadline", .whole)]

def DagSet.toNode (set : DagSet) : Node := .ofRecord [("dags", .ofList Dag.toNode set.dags)]

def DagSet.ofNode? (node : Node) : Option DagSet := do
  let fields ← node.fields?
  return { dags := ← Node.field? fields "dags" (Node.list? Dag.ofNode?) }

def DagSet.shape : Shape := .record true [("dags", .list Dag.shape)]

def DagSet.format : Format DagSet := ⟨shape, ofNode?⟩

end DagDeploy
