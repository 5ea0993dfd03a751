import DagDeploy.CommandLine
import DagDeploy.Conversion
import DagDeploy.Document.Model
import DagDeploy.Document.Solution
import DagDeploy.Output

/-! A run of the program: it loads all documents, converts all dags, and only then writes. -/

namespace DagDeploy

open CommandLine (Arguments)

variable {m : Type → Type} [Monad m] [Storage m]

/-- Without a document of its own, a run uses the standard catalogue. -/
def loadCatalogue : Option String → m Catalogue
  | none => return .standard
  | some path => load Catalogue.format path

def convert (set : DagSet) (solution : Solution) (catalogue : Catalogue)
    (iterations minSeconds : Nat) : Logged (List Descriptor) := do
  let run ← RunLength.of set.periods iterations minSeconds
  describeAll set solution catalogue run

/-- The number of dags converted. -/
def run (arguments : Arguments) : m Nat := do
  let set ← load DagSet.format arguments.model
  let solution ← load Solution.format arguments.solution
  let catalogue ← loadCatalogue arguments.catalogue
  let descriptors ← Storage.report
    (convert set solution catalogue arguments.iterations arguments.minSeconds)
  let paths ← Descriptor.dumpAll arguments.folder descriptors
  return paths.length

/-- Documents that cannot be read are told apart from data that is refused. -/
def Failure.exitCode (failure : Failure) : Nat := if failure.blamesInput then 1 else 2

end DagDeploy
