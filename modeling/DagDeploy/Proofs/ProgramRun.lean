import DagDeploy.Proofs.FailureCauses

/-! What a run does to a disk. All documents are loaded and all dags are converted before anything
is written, so only a failure to write leaves something behind, and what is written comes from the
documents as they were. -/

namespace DagDeploy

open CommandLine (Arguments)

namespace Disk

variable {α : Type}

/-- The value of a document. -/
def read (disk : Disk) (format : Yaml.Format α) (path : String) : Except Failure α :=
  decode format path (disk.fileAt? path)

def readCatalogue (disk : Disk) : Option String → Except Failure Catalogue
  | none => .ok .standard
  | some path => disk.read Catalogue.format path

/-- All documents can be read. -/
structure Loads (disk : Disk) (arguments : Arguments) (set : DagSet) (solution : Solution)
    (catalogue : Catalogue) : Prop where
  model : disk.read DagSet.format arguments.model = .ok set
  solution : disk.read Solution.format arguments.solution = .ok solution
  catalogue : disk.readCatalogue arguments.catalogue = .ok catalogue

/-- The first document that cannot be read, in the order model, solution, catalogue. -/
inductive Unread (disk : Disk) (arguments : Arguments) : String → Failure → Prop where
  | model {failure : Failure}
    (failed : disk.read DagSet.format arguments.model = .error failure) :
    Unread disk arguments arguments.model failure
  | solution {set : DagSet} {failure : Failure}
    (model : disk.read DagSet.format arguments.model = .ok set)
    (failed : disk.read Solution.format arguments.solution = .error failure) :
    Unread disk arguments arguments.solution failure
  | catalogue {set : DagSet} {solution : Solution} {path : String} {failure : Failure}
    (model : disk.read DagSet.format arguments.model = .ok set)
    (solved : disk.read Solution.format arguments.solution = .ok solution)
    (given : arguments.catalogue = some path)
    (failed : disk.read Catalogue.format path = .error failure) :
    Unread disk arguments path failure

/-- Some document cannot be read. -/
def LacksInput (disk : Disk) (arguments : Arguments) : Prop :=
  (∃ failure, disk.read DagSet.format arguments.model = .error failure) ∨
  (∃ failure, disk.read Solution.format arguments.solution = .error failure) ∨
  ∃ path failure, arguments.catalogue = some path ∧
    disk.read Catalogue.format path = .error failure

variable {disk : Disk} {arguments : Arguments} {path : String} {failure : Failure}

theorem read_eq_error {format : Yaml.Format α}
    (failed : disk.read format path = .error failure) :
    failure = .unreadable path ∨ failure = .malformed path := by
  simp only [read, decode] at failed
  split at failed
  · exact .inl (Except.error.inj failed).symm
  split at failed
  · exact .inr (Except.error.inj failed).symm
  · cases failed

theorem Unread.names (unread : disk.Unread arguments path failure) :
    failure = .unreadable path ∨ failure = .malformed path := by
  cases unread with
  | model failed => exact read_eq_error failed
  | solution _ failed => exact read_eq_error failed
  | catalogue _ _ _ failed => exact read_eq_error failed

theorem Unread.exitCode (unread : disk.Unread arguments path failure) : failure.exitCode = 1 := by
  rcases unread.names with rfl | rfl
  · rfl
  · rfl

theorem Loads.unique {set other : DagSet} {solution otherSolution : Solution}
    {catalogue otherCatalogue : Catalogue}
    (loads : disk.Loads arguments set solution catalogue)
    (again : disk.Loads arguments other otherSolution otherCatalogue) :
    set = other ∧ solution = otherSolution ∧ catalogue = otherCatalogue :=
  ⟨Except.ok.inj (loads.model.symm.trans again.model),
    Except.ok.inj (loads.solution.symm.trans again.solution),
    Except.ok.inj (loads.catalogue.symm.trans again.catalogue)⟩

end Disk

namespace Storing

variable {α : Type} {disk : Disk} {arguments : Arguments} {path : String} {failure : Failure}
  {set : DagSet} {solution : Solution} {catalogue : Catalogue} {lines : List LogLine}
  {descriptors : List Descriptor}

theorem load_run (format : Yaml.Format α) (path : String) :
    (load format path : Storing α) disk = (disk, .ofExcept (disk.read format path)) := rfl

variable {after : Disk} {more : List LogLine}

end Storing

def exitCode : Except Failure Nat → Nat
  | .ok _ => 0
  | .error failure => failure.exitCode

/-- How a run can end: the disk it leaves, and its outcome. -/
inductive Ending (disk : Disk) (arguments : Arguments) : Disk → Except Failure Nat → Prop where
  | unread {path : String} {failure : Failure} (lacks : disk.LacksInput arguments)
    (unread : disk.Unread arguments path failure) : Ending disk arguments disk (.error failure)
  | refused {set : DagSet} {solution : Solution} {catalogue : Catalogue} {failure : Failure}
    (loads : disk.Loads arguments set solution catalogue)
    (refused : (convert set solution catalogue arguments.iterations
      arguments.minSeconds).outcome = .error failure) :
    Ending disk arguments disk (.error failure)
  | unwritten {set : DagSet} {solution : Solution} {catalogue : Catalogue}
    {descriptors : List Descriptor} {failure : Failure} {after : Disk}
    (loads : disk.Loads arguments set solution catalogue)
    (converted : (convert set solution catalogue arguments.iterations
      arguments.minSeconds).outcome = .ok descriptors)
    (unwritten : ((Descriptor.dumpAll arguments.folder descriptors : Storing _) disk).2.outcome
      = .error failure) : Ending disk arguments after (.error failure)
  | written {set : DagSet} {solution : Solution} {catalogue : Catalogue}
    {descriptors : List Descriptor} {paths : List String}
    (loads : disk.Loads arguments set solution catalogue)
    (converted : (convert set solution catalogue arguments.iterations
      arguments.minSeconds).outcome = .ok descriptors)
    (written : ((Descriptor.dumpAll arguments.folder descriptors : Storing _) disk).2.outcome
      = .ok paths) :
    Ending disk arguments ((Descriptor.dumpAll arguments.folder descriptors : Storing _) disk).1
      (.ok set.dags.length)

variable {disk : Disk} {arguments : Arguments}

theorem exitCode_of_convert {set : DagSet} {solution : Solution} {catalogue : Catalogue}
    {iterations minSeconds : Nat} {failure : Failure}
    (refused : (convert set solution catalogue iterations minSeconds).outcome = .error failure) :
    failure.exitCode = 2 := by
  rw [Failure.exitCode, (convert_eq_error refused).1]
  rfl

theorem exitCode_of_dumpAll {folder : String} {descriptors : List Descriptor} {failure : Failure}
    (unwritten : ((Descriptor.dumpAll folder descriptors : Storing _) disk).2.outcome
      = .error failure) : failure.exitCode = 2 := by
  obtain ⟨path, rfl⟩ := Storing.dumpAll_eq_error unwritten
  rfl

namespace Ending

variable {after : Disk} {outcome : Except Failure Nat}

theorem names (ending : Ending disk arguments after outcome) (code : exitCode outcome = 1) :
    ∃ path failure, disk.Unread arguments path failure ∧ outcome = .error failure ∧
      (failure = .unreadable path ∨ failure = .malformed path) := by
  cases ending with
  | unread lacks unread => exact ⟨_, _, unread, rfl, unread.names⟩
  | refused loads refused =>
    have two := exitCode_of_convert refused
    rw [exitCode, two] at code
    cases code
  | unwritten loads converted unwritten =>
    have two := exitCode_of_dumpAll unwritten
    rw [exitCode, two] at code
    cases code
  | written => cases code

theorem counts (ending : Ending disk arguments after outcome) (notOne : exitCode outcome ≠ 1)
    (notTwo : exitCode outcome ≠ 2) : exitCode outcome = 0 ∧
      ∃ set, disk.read DagSet.format arguments.model = .ok set ∧
        outcome = .ok set.dags.length := by
  cases ending with
  | unread lacks unread => exact absurd unread.exitCode notOne
  | refused loads refused => exact absurd (exitCode_of_convert refused) notTwo
  | unwritten loads converted unwritten => exact absurd (exitCode_of_dumpAll unwritten) notTwo
  | written loads => exact ⟨rfl, _, loads.model, rfl⟩

end Ending

end DagDeploy
