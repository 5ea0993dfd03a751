import DagDeploy.Program
import DagDeploy.Proofs.DescriptorFiles
import DagDeploy.Proofs.HyperperiodOutcome
import DagDeploy.Proofs.Refusals

/-! Which stage can fail for which cause. A conversion never complains of a document that cannot be
read or a file that cannot be written, nor of a request that its graph cannot answer; and writing
complains of files only. -/

namespace DagDeploy

/-- Neither a document that cannot be read nor a file that cannot be written, nor a fault of the
graph. -/
structure Failure.OfData (failure : Failure) : Prop where
  blameless : failure.blamesInput = false
  elsewhere : ∀ path, failure ≠ .unwritable path
  faultless : ∀ cause, failure ≠ .fault cause

section conversion

variable {failure : Failure}

theorem Period.hyperPeriod_ofData {periods : List Nat}
    (stopped : hyperPeriod periods = .error failure) : failure.OfData := by
  obtain ⟨_, hinders, -⟩ := hyperPeriod_eq_error.mp stopped
  cases hinders with
  | zero | long => exact ⟨rfl, by simp, by simp⟩

theorem Period.repetitions_eq_error {iterations minSeconds hyperPeriod : Nat}
    (stopped : repetitions iterations minSeconds hyperPeriod = .error failure) :
    failure.OfData := by
  simp only [repetitions] at stopped
  split at stopped
  · cases stopped
  split at stopped
  · cases stopped
  · obtain rfl := Except.error.inj stopped
    exact ⟨rfl, by simp, by simp⟩

theorem RunLength.of_eq_error {periods : List Nat} {iterations minSeconds : Nat}
    (stopped : (RunLength.of periods iterations minSeconds).outcome = .error failure) :
    failure.OfData := by
  rcases Logged.outcome_bind_eq_error.mp stopped with long | ⟨hyperPeriod, -, further⟩
  · exact Period.hyperPeriod_ofData long
  rcases Logged.outcome_bind_eq_error.mp further with span | ⟨repetitions, -, last⟩
  · exact Period.repetitions_eq_error span
  · cases last

theorem Platform.ofName_eq_error {name : String} (unknown : ofName name = .error failure) :
    failure.OfData := by
  simp only [ofName] at unknown
  repeat' split at unknown
  all_goals cases unknown
  exact ⟨rfl, by simp, by simp⟩

namespace Deployment

theorem of_eq_error {solution : Solution} {catalogue : Catalogue}
    (unknown : Deployment.of solution catalogue = .error failure) : failure.OfData := by
  cases known : Platform.ofName solution.platformName with
  | error cause =>
    rw [Deployment.of, known] at unknown
    obtain rfl : cause = failure := Except.error.inj unknown
    exact Platform.ofName_eq_error known
  | ok platform =>
    rw [Deployment.of, known] at unknown
    cases unknown

variable {deployment : Deployment} {index : Nat} {run : RunLength}

theorem Blocked.ofData {dag : Dag} {position : Nat} {solved : SolvedTask}
    (blocked : deployment.Blocked dag index position solved failure) : failure.OfData := by
  cases blocked
  all_goals exact ⟨rfl, by simp, by simp⟩

theorem Refused.ofData {dag : Dag} (refused : deployment.Refused dag index run failure) :
    failure.OfData := by
  cases refused with
  | amiss _ _ _ blocked => exact blocked.ofData
  | stray | unsolved | long => exact ⟨rfl, by simp, by simp⟩

theorem describe_eq_error {dag : Dag}
    (stopped : (deployment.describe dag index run).outcome = .error failure) :
    failure.OfData :=
  (describe_eq_error_iff.mp stopped).ofData

theorem describeFrom_eq_error {dags : List Dag}
    (stopped : (deployment.describeFrom run index dags).outcome = .error failure) :
    failure.OfData := by
  obtain ⟨_, _, _, -, here, -⟩ := describeFrom_eq_error_iff.mp stopped
  exact describe_eq_error here

end Deployment

variable {set : DagSet} {solution : Solution} {catalogue : Catalogue} {iterations minSeconds : Nat}

theorem describeAll_eq_error {run : RunLength}
    (stopped : (describeAll set solution catalogue run).outcome = .error failure) :
    failure.OfData := by
  rcases Logged.outcome_bind_eq_error.mp stopped with board | ⟨deployment, -, last⟩
  · exact Deployment.of_eq_error board
  · exact Deployment.describeFrom_eq_error last

theorem convert_eq_error
    (stopped : (convert set solution catalogue iterations minSeconds).outcome = .error failure) :
    failure.OfData := by
  rcases Logged.outcome_bind_eq_error.mp stopped with length | ⟨run, -, described⟩
  · exact RunLength.of_eq_error length
  · exact describeAll_eq_error described

end conversion

namespace Storing

variable {disk : Disk} {path folder : String} {failure : Failure}

theorem makeFolder_never_fails :
    ((Storage.makeFolder path : Storing _) disk).2.outcome ≠ .error failure := by
  simp only [Storage.makeFolder, makeFolder]
  split <;> simp

theorem writeFile_never_fails {contents : ByteArray} :
    ((Storage.writeFile path contents : Storing _) disk).2.outcome ≠ .error failure := by
  simp only [Storage.writeFile, writeFile]
  split <;> simp

theorem ensureFolder_never_fails :
    ((Storage.ensureFolder path : Storing Bool) disk).2.outcome ≠ .error failure := by
  intro stopped
  rcases outcome_bind_eq_error.mp stopped with refused | ⟨answer, -, further⟩
  · exact makeFolder_never_fails refused
  · cases answer <;> cases further

theorem ensureWithin_never_fails {around : List String} :
    ((Storage.ensureWithin around path : Storing Bool) disk).2.outcome ≠ .error failure := by
  induction around generalizing disk path with
  | nil => exact ensureFolder_never_fails
  | cons nearest further ih =>
    intro stopped
    rcases outcome_bind_eq_error.mp stopped with refused | ⟨answer, -, next⟩
    · exact makeFolder_never_fails refused
    cases answer with
    | ok made => cases next
    | error obstacle =>
      cases obstacle with
      | blocked => cases next
      | missing =>
        rcases outcome_bind_eq_error.mp next with absent | ⟨present, -, last⟩
        · exact ih absent
        · cases present with
          | true => exact ensureFolder_never_fails last
          | false => cases last

theorem makeFolders_never_fails :
    ((Storage.makeFolders path : Storing Bool) disk).2.outcome ≠ .error failure := by
  simp only [Storage.makeFolders]
  split
  · simp
  · exact ensureWithin_never_fails

theorem require_eq_error {request : Storing Bool} {cause : Failure}
    (unfailing : (request disk).2.outcome ≠ .error failure)
    (stopped : ((Storage.require request cause) disk).2.outcome = .error failure) :
    failure = cause := by
  rcases outcome_bind_eq_error.mp stopped with failed | ⟨done, -, last⟩
  · exact absurd failed unfailing
  · cases done <;> cases last
    rfl

theorem newFile_eq_error {name : String}
    (stopped : ((newFile folder name : Storing String) disk).2.outcome = .error failure) :
    failure = .unwritable folder := by
  rcases outcome_bind_eq_error.mp stopped with asked | ⟨present, -, further⟩
  · cases asked
  cases present with
  | true => cases further
  | false =>
    rcases outcome_bind_eq_error.mp further with made | ⟨_, -, last⟩
    · rcases outcome_bind_eq_error.mp made with refused | ⟨_, -, said⟩
      · exact require_eq_error makeFolders_never_fails refused
      · cases said
    · cases last

/-- Writing descriptors fails only because something cannot be written. -/
theorem dumpAll_eq_error {descriptors : List Descriptor}
    (stopped : ((Descriptor.dumpAll folder descriptors : Storing _) disk).2.outcome
      = .error failure) : ∃ path, failure = .unwritable path := by
  induction descriptors generalizing disk with
  | nil => cases stopped
  | cons first rest ih =>
    rcases outcome_bind_eq_error.mp stopped with dumped | ⟨path, -, further⟩
    · rcases outcome_bind_eq_error.mp dumped with unnamed | ⟨path, -, next⟩
      · exact ⟨_, newFile_eq_error unnamed⟩
      rcases outcome_bind_eq_error.mp next with refused | ⟨_, -, said⟩
      · exact ⟨_, require_eq_error writeFile_never_fails refused⟩
      · cases said
    · rcases outcome_bind_eq_error.mp further with others | ⟨paths, -, last⟩
      · exact ih others
      · cases last

end Storing

end DagDeploy
