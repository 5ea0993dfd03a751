import DagDeploy.Placement
import DagDeploy.Yaml.Shape

/-! The solution document. An entry of a processing unit has three elements, of which the first may
be any value. -/

namespace DagDeploy

open Yaml

/-- The levels that are left below an entry of a unit, which is the sixth collection. -/
def nestingInEntries : Nat := deepest - 6

def Assignment.ofNode? (node : Node) : Option Assignment := do
  match ← node.items? with
  | [first, dag, task] =>
    return {
      remark := ← Value.ofNode? nestingInEntries first
      dag := ← dag.nat?
      task := ← task.nat? }
  | _ => none

def Island.ofNode? (node : Node) : Option Island := do
  let fields ← node.fields?
  return {
    capacity := ← Node.field? fields "capacity" Node.float?
    frequency := ← Node.field? fields "frequency" Node.nat?
    units := ← Node.field? fields "pus" (Node.list? (Node.list? Assignment.ofNode?)) }

def Island.shape : Shape := .record true [
  ("capacity", .whole), ("frequency", .whole), ("pus", .whole)]

def identity? (node : Node) : Option (Nat × Nat) := do
  match ← node.items? with
  | [dag, task] => return (← dag.nat?, ← task.nat?)
  | _ => none

def SolvedTask.ofNode? (node : Node) : Option SolvedTask := do
  let fields ← node.fields?
  let (dag, task) ← Node.field? fields "id" identity?
  return {
    dag, task
    wcet := ← Node.field? fields "wcet" (Node.int? 63)
    deadline := ← Node.field? fields "deadline" (Node.int? 63) }

def SolvedTask.shape : Shape := .record true [
  ("id", .whole), ("wcet", .whole), ("deadline", .whole)]

def Solution.ofNode? (node : Node) : Option Solution := do
  let fields ← node.fields?
  return {
    platformName := ← Node.field? fields "platform_name" Node.text?
    islands := ← Node.field? fields "islands" (Node.list? Island.ofNode?)
    tasks := ← Node.field? fields "tasks" (Node.list? SolvedTask.ofNode?) }

def Solution.shape : Shape := .record true [
  ("platform_name", .whole), ("islands", .list Island.shape), ("tasks", .list SolvedTask.shape)]

def Solution.format : Format Solution := ⟨shape, ofNode?⟩

end DagDeploy
