/-! What executes a task: a general purpose CPU, an accelerator driven through FRED, or an OpenMP
region. -/

namespace DagDeploy

inductive TaskKind where
  | cpu
  | fred
  | omp
  deriving DecidableEq, Repr

namespace TaskKind

def name : TaskKind → String
  | .cpu => "cpu"
  | .fred => "fred"
  | .omp => "omp"

def ofName? : String → Option TaskKind
  | "cpu" => some .cpu
  | "fred" => some .fred
  | "omp" => some .omp
  | _ => none

theorem ofName?_name (kind : TaskKind) : ofName? kind.name = some kind := by
  cases kind <;> rfl

end TaskKind

end DagDeploy
