import DagDeploy.Descriptor
import DagDeploy.Document.Catalogue

/-! The document of a descriptor, as the launcher reads it. -/

namespace DagDeploy

open Yaml

namespace Descriptor

def toNode (descriptor : Descriptor) : Node := .ofRecord [
  ("dag_name", .ofText descriptor.name),
  ("n_tasks", .ofNat descriptor.taskCount),
  ("n_edges", .ofNat descriptor.edgeCount),
  ("n_cpus", .ofNat descriptor.cpuCount),
  ("max_out_edges", .ofNat descriptor.maxOutEdges),
  ("max_in_edges", .ofNat descriptor.maxInEdges),
  ("max_msg_len", .ofNat descriptor.maxMessageLength),
  ("repetitions", .ofNat descriptor.repetitions),
  ("hyperperiod", .ofInt descriptor.hyperPeriod),
  ("dag_period", .ofInt descriptor.period),
  ("dag_deadline", .ofInt descriptor.deadline),
  ("tasks_name", .ofList .ofText descriptor.taskNames),
  ("tasks_type", .ofList TaskKind.toNode descriptor.taskKinds),
  ("tasks_wcet", .ofList .ofInt descriptor.taskWcets),
  ("tasks_runtime", .ofList .ofInt descriptor.taskRuntimes),
  ("tasks_rel_deadline", .ofList .ofInt descriptor.taskDeadlines),
  ("tasks_affinity", .ofList .ofNat descriptor.taskCpus),
  ("fred_id", .ofList .ofInt descriptor.taskKernels),
  ("cpus_freq", .ofList .ofNat descriptor.cpuFrequencies),
  ("expected_wcet_ratio", .ofFloat descriptor.expectedWcetRatio),
  ("adjacency_matrix", .ofList (.ofList .ofInt) descriptor.adjacency)]

def ofNode? (node : Node) : Option Descriptor := do
  let fields ← node.fields?
  return {
    name := ← Node.field? fields "dag_name" Node.text?
    taskCount := ← Node.field? fields "n_tasks" Node.nat?
    edgeCount := ← Node.field? fields "n_edges" Node.nat?
    cpuCount := ← Node.field? fields "n_cpus" Node.nat?
    maxOutEdges := ← Node.field? fields "max_out_edges" Node.nat?
    maxInEdges := ← Node.field? fields "max_in_edges" Node.nat?
    maxMessageLength := ← Node.field? fields "max_msg_len" Node.nat?
    repetitions := ← Node.field? fields "repetitions" Node.nat?
    hyperPeriod := ← Node.field? fields "hyperperiod" (Node.int? 63)
    period := ← Node.field? fields "dag_period" (Node.int? 63)
    deadline := ← Node.field? fields "dag_deadline" (Node.int? 63)
    taskNames := ← Node.field? fields "tasks_name" (Node.list? Node.text?)
    taskKinds := ← Node.field? fields "tasks_type" (Node.list? TaskKind.ofNode?)
    taskWcets := ← Node.field? fields "tasks_wcet" (Node.list? (Node.int? 63))
    taskRuntimes := ← Node.field? fields "tasks_runtime" (Node.list? (Node.int? 63))
    taskDeadlines := ← Node.field? fields "tasks_rel_deadline" (Node.list? (Node.int? 63))
    taskCpus := ← Node.field? fields "tasks_affinity" (Node.list? Node.nat?)
    taskKernels := ← Node.field? fields "fred_id" (Node.list? (Node.int? 31))
    cpuFrequencies := ← Node.field? fields "cpus_freq" (Node.list? Node.nat?)
    expectedWcetRatio := ← Node.field? fields "expected_wcet_ratio" Node.float?
    adjacency := ← Node.field? fields "adjacency_matrix" (Node.list? (Node.list? (Node.int? 31))) }

def keys : List String := [
  "dag_name", "n_tasks", "n_edges", "n_cpus", "max_out_edges", "max_in_edges", "max_msg_len",
  "repetitions", "hyperperiod", "dag_period", "dag_deadline", "tasks_name", "tasks_type",
  "tasks_wcet", "tasks_runtime", "tasks_rel_deadline", "tasks_affinity", "fred_id", "cpus_freq",
  "expected_wcet_ratio", "adjacency_matrix"]

def shape : Shape := .record true (keys.map (·, .whole))

def format : Format Descriptor := ⟨shape, ofNode?⟩

def write (descriptor : Descriptor) : String := descriptor.toNode.write

end Descriptor

end DagDeploy
