import DagDeploy.Failure
import DagDeploy.Yaml.Value

/-! The solution document: which processing unit runs which task, and the solved times of every
task. Processing units form islands that share a frequency. -/

namespace DagDeploy

/-- A task of one of the dags. -/
structure TaskId where
  dag : Nat
  task : Nat
  deriving DecidableEq, Repr

/-- A task in the list of a unit, with a value that nothing depends on. -/
structure Assignment extends TaskId where
  remark : Yaml.Value
  deriving DecidableEq, Repr

def Assignment.of (dag task : Nat) : Assignment := ⟨⟨dag, task⟩, .null⟩

@[simp] theorem Assignment.toTaskId_of (dag task : Nat) : (of dag task).toTaskId = ⟨dag, task⟩ :=
  rfl

/-- Capacity is relative to the reference core, frequency is in MHz. -/
structure Island where
  capacity : Binary64
  frequency : Nat
  units : List (List Assignment)
  deriving DecidableEq, Repr

/-- Times are in ns, the worst case execution time as scaled for the chosen unit. -/
structure SolvedTask where
  dag : Nat
  task : Nat
  wcet : Int
  deadline : Int
  deriving DecidableEq, Repr

structure Solution where
  platformName : String
  islands : List Island
  tasks : List SolvedTask
  deriving DecidableEq, Repr

/-- In document order. -/
def Solution.tasksOf (solution : Solution) (dag : Nat) : List SolvedTask :=
  solution.tasks.filter (·.dag == dag)

/-- A unit, by its position within an island that is given with its own position. -/
structure Placement where
  islandIndex : Nat
  island : Island
  unitIndex : Nat
  deriving DecidableEq, Repr

namespace Placement

/-- The first unit that lists the task, among islands numbered from `start`. -/
def search (wanted : TaskId) (start : Nat) : List Island → Option Placement
  | [] => none
  | island :: rest =>
    match island.units.findIdx? (·.any (·.toTaskId == wanted)) with
    | some unitIndex => some ⟨start, island, unitIndex⟩
    | none => search wanted (start + 1) rest

def find (islands : List Island) (dag task : Nat) : Except Failure Placement :=
  match search ⟨dag, task⟩ 0 islands with
  | some placement => .ok placement
  | none => .error (.inconsistent (.missingMapping dag task))

end Placement

end DagDeploy
