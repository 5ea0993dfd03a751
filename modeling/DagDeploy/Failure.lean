import DagDeploy.TaskKind
import DagDeploy.Graph

/-! Why a conversion stops. Each cause has one wording; only trouble with reading an input document
blames the input. -/

namespace DagDeploy

/-- The model and the solution disagree. -/
inductive Inconsistency where
  | missingMapping (dag task : Nat)
  | taskOutOfOrder (dag expected found : Nat)
  | taskCountMismatch (dag expected found : Nat)
  | invalidEdge (dag source target tasks : Nat)
  deriving DecidableEq, Repr

def Inconsistency.message : Inconsistency → String
  | .missingMapping dag task => s!"no mapping found for task {task} of dag {dag}"
  | .taskOutOfOrder dag expected found =>
    s!"solved tasks of dag {dag} are out of order: expected task {expected}, found {found}"
  | .taskCountMismatch dag expected found =>
    s!"dag {dag} declares {expected} tasks but the solution places {found}"
  | .invalidEdge dag source target tasks =>
    s!"edge ({source}, {target}) of dag {dag} references a task outside 0..{tasks}"

inductive Failure where
  | unreadable (path : String)
  | malformed (path : String)
  | unwritable (path : String)
  | unknownPlatform (name : String)
  | zeroPeriod (dag : Nat)
  | hyperPeriodOverflow (dag : Nat)
  | minSecondsOverflow (seconds : Nat)
  | unsupportedKind (kind : TaskKind)
  | inconsistent (cause : Inconsistency)
  | fault (cause : Graph.Fault)
  deriving DecidableEq, Repr

namespace Failure

/-- For paths the wording ends where the operating system's or the document reader's own words
would follow. -/
def message : Failure → String
  | .unreadable path => s!"failed to load YAML file {path}: "
  | .malformed path => s!"failed to parse YAML file {path}: "
  | .unwritable path => s!"failed to write {path}: "
  | .unknownPlatform name => s!"unknown platform name: {name}"
  | .zeroPeriod dag => s!"activation period of dag {dag} is zero"
  | .hyperPeriodOverflow dag => s!"hyperperiod does not fit in 63 bits once dag {dag} is included"
  | .minSecondsOverflow seconds => s!"--min-seconds {seconds} does not fit in ns"
  | .unsupportedKind kind => s!"task type {kind.name} is not supported"
  | .inconsistent cause => s!"inconsistent input: {cause.message}"
  | .fault cause => cause.message

def blamesInput : Failure → Bool
  | .unreadable _ | .malformed _ => true
  | _ => false

end Failure

end DagDeploy
