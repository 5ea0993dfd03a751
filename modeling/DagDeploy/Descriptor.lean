import DagDeploy.Binary64
import DagDeploy.TaskKind
import DagDeploy.Decimal

/-! The runtime descriptor of one dag: all that the launcher needs, with the lists that start with
`task` holding one entry per task. Durations are in microseconds, frequencies in MHz by CPU. -/

namespace DagDeploy

structure Descriptor where
  name : String
  taskCount : Nat
  edgeCount : Nat
  cpuCount : Nat
  maxOutEdges : Nat
  maxInEdges : Nat
  maxMessageLength : Nat
  repetitions : Nat
  hyperPeriod : Int
  period : Int
  deadline : Int
  taskNames : List String
  taskKinds : List TaskKind
  taskWcets : List Int
  taskRuntimes : List Int
  taskDeadlines : List Int
  taskCpus : List Nat
  taskKernels : List Int
  cpuFrequencies : List Nat
  expectedWcetRatio : Binary64
  adjacency : List (List Int)
  deriving DecidableEq

namespace Descriptor

def nameOf (dag : Nat) : String := String.ofList ("dag".toList ++ Decimal.ofNat dag)

/-- The position of a task with at least three digits. -/
def taskName (task : Nat) : String :=
  let digits := Decimal.ofNat task
  String.ofList ('n' :: List.replicate (3 - digits.length) '0' ++ digits)

end Descriptor

end DagDeploy
