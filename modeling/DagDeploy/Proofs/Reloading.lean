import DagDeploy.Proofs.DescriptorReading
import DagDeploy.Proofs.FileAccess
import DagDeploy.Proofs.ProgramRun

/-! What is loaded from a file is the value that its document stands for. A descriptor that was
dumped is loaded as it was, and dumping it again into the same folder changes nothing, whatever else
has happened to the disk since. -/

namespace DagDeploy

open Disk Descriptor

variable {disk : Disk} {folder path : String} {descriptor : Descriptor}

theorem fromUTF8?_toUTF8 (text : String) : String.fromUTF8? text.toUTF8 = some text := by
  have valid : text.toUTF8.IsValidUTF8 := text.isValidUTF8
  rw [String.fromUTF8?, dif_pos valid]
  rfl

section loading

variable {α : Type} {format : Yaml.Format α} {document : Yaml.Document} {node : Yaml.Node}

/-- There is this document in a file. -/
def Disk.Holds (disk : Disk) (path : String) (document : Yaml.Document) : Prop :=
  ∃ text, disk.fileAt? path = some text.toUTF8 ∧ Yaml.Document.read text = some document

theorem Disk.holds_of_write (bare : node.isBare = true)
    (present : disk.fileAt? path = some node.write.toUTF8) : disk.Holds path node.document :=
  ⟨node.write, present, Yaml.Document.read_write bare⟩

theorem Disk.read_of_text {text : String} (present : disk.fileAt? path = some text.toUTF8)
    (format : Yaml.Format α) :
    disk.read format path = ((Yaml.Document.read text).bind format.value?).elim
      (.error (.malformed path)) .ok := by
  rw [Disk.read, present, decode, Option.bind_some, fromUTF8?_toUTF8]
  dsimp only
  cases (Yaml.Document.read text).bind format.value? <;> rfl

theorem Disk.Holds.read (holds : disk.Holds path document) (format : Yaml.Format α) :
    disk.read format path = (format.value? document).elim (.error (.malformed path)) .ok := by
  obtain ⟨text, present, parsed⟩ := holds
  rw [read_of_text present, parsed, Option.bind_some]

theorem Storing.load_eq_pure {value : α} (holds : disk.Holds path document) :
    (load format path : Storing α) disk = (disk, pure value) ↔
      format.value? document = some value := by
  rw [load_run, holds.read]
  constructor
  · intro same
    have outcome := congrArg (fun result => result.2.outcome) same
    cases read : format.value? document with
    | none =>
      rw [read] at outcome
      cases outcome
    | some found =>
      rw [read] at outcome
      exact congrArg some (Except.ok.inj outcome)
  · intro read
    rw [read]
    rfl

/-- A value whose node is read as this value is loaded from the text of that node. -/
theorem Storing.load_of_write {value : α} (bare : node.isBare = true)
    (reads : format.ofNode? node = some value)
    (present : disk.fileAt? path = some node.write.toUTF8) :
    (load format path : Storing α) disk = (disk, pure value) := by
  rw [load_eq_pure (Disk.holds_of_write bare present), Yaml.Format.value?,
    if_pos (Yaml.Document.suffices_bare bare format.shape)]
  exact reads

end loading

namespace Storing

theorem load_of_written (regular : descriptor.Regular)
    (present : disk.fileAt? path = some descriptor.write.toUTF8) :
    (load format path : Storing Descriptor) disk = (disk, pure descriptor) :=
  load_of_write (isBare_toNode regular) (ofNode?_toNode regular) present

variable (storable : descriptor.Storable)
include storable

theorem isPlain_fileName : Path.stays descriptor.fileName = false ∧
    Path.rises descriptor.fileName = false := by
  have isPlain := storable.plain descriptor.fileName
    (by rw [Path.parts_of_notMem storable.single]; exact List.mem_singleton.mpr rfl)
  exact ⟨isPlain.1, isPlain.2.1⟩

theorem parts_fileName (folder : String) :
    ∃ front, Path.parts (Path.join folder descriptor.fileName)
      = front ++ [descriptor.fileName] := by
  by_cases empty : folder.isEmpty = true
  · have whole : Path.join folder descriptor.fileName = descriptor.fileName := by
      simp [Path.join, empty]
    exact ⟨[], by rw [whole, Path.parts_of_notMem storable.single]; rfl⟩
  · obtain ⟨front, divided, -⟩ := Path.parts_join storable.single (Bool.eq_false_iff.mpr empty)
    exact ⟨front, divided⟩

theorem newFile_of_file {contents : ByteArray}
    (present : disk.fileAt? (Path.join folder descriptor.fileName) = some contents) :
    ∃ lines, (newFile folder descriptor.name : Storing String) disk
      = (disk, ⟨lines, .ok (Path.join folder descriptor.fileName)⟩) := by
  by_cases empty : folder.isEmpty = true
  · have made : (Storage.makeFolders folder : Storing Bool) disk = (disk, pure true) := by
      rw [Storage.makeFolders, if_pos empty]
      rfl
    have absent : disk.contains folder = false := by simp [Disk.contains, find?, empty]
    exact ⟨_, newFile_of_absent descriptor.name absent made⟩
  · obtain ⟨stays, rises⟩ := isPlain_fileName storable
    have around := contains_of_fileAt? storable.single stays rises
      (Bool.eq_false_iff.mpr empty) present
    exact ⟨_, newFile_of_present descriptor.name around⟩

/-- What is there already is written once more. -/
theorem dump_of_same (present : disk.fileAt? (Path.join folder descriptor.fileName)
      = some descriptor.write.toUTF8) :
    ∃ lines, (descriptor.dump folder : Storing String) disk
      = (disk, ⟨lines, .ok (Path.join folder descriptor.fileName)⟩) := by
  obtain ⟨lines, named⟩ := newFile_of_file storable present
  obtain ⟨front, divided⟩ := parts_fileName storable folder
  obtain ⟨stays, rises⟩ := isPlain_fileName storable
  exact ⟨_, dump_of_named named (writeFile_same divided stays rises present)⟩

/-- The text of a descriptor is in its file after it was dumped. -/
theorem fileAt?_of_dump
    (dumped : ((descriptor.dump folder : Storing String) disk).2.outcome = .ok path) :
    path = Path.join folder descriptor.fileName ∧
      ((descriptor.dump folder : Storing String) disk).1.fileAt? path
        = some descriptor.write.toUTF8 := by
  obtain ⟨same, between, written⟩ := dump_eq_ok dumped
  obtain ⟨front, divided⟩ := parts_fileName storable folder
  obtain ⟨stays, rises⟩ := isPlain_fileName storable
  subst same
  exact ⟨rfl, fileAt?_of_writeFile divided stays rises written⟩

end Storing

/-- Loading a descriptor that was dumped gives it back, and dumping it again leaves all files as
they are. -/
theorem Descriptor.reload_effect (regular : descriptor.Regular) :
    (Yaml.Document.read descriptor.write).bind format.value? = some descriptor ∧
    ∀ (folder path : String) (disk later : Disk),
      ((descriptor.dump folder : Storing String) disk).2.outcome = .ok path →
      later.fileAt? path = ((descriptor.dump folder : Storing String) disk).1.fileAt? path →
      (load format path : Storing Descriptor) later = (later, pure descriptor) ∧
      ∃ lines, (load format path >>= dump folder : Storing String) later
        = (later, ⟨lines, .ok path⟩) := by
  refine ⟨read_write regular, fun folder path disk later dumped remains => ?_⟩
  have storable := storable_of_isNumbered regular.name
  obtain ⟨rfl, written⟩ := Storing.fileAt?_of_dump storable dumped
  have present := remains.trans written
  have loaded := Storing.load_of_written regular present
  obtain ⟨lines, same⟩ := Storing.dump_of_same storable present
  exact ⟨loaded, lines, (Storing.bind_of_pure loaded).trans same⟩

/-- Numbers at the ends of their ranges, the smallest negative float, and lists without items. -/
def Descriptor.extremes : Descriptor where
  name := "dag7"
  taskCount := Nat.pow 2 64 - 1
  edgeCount := 0
  cpuCount := 1
  maxOutEdges := 0
  maxInEdges := 0
  maxMessageLength := 0
  repetitions := Nat.pow 2 64 - 1
  hyperPeriod := Nat.pow 2 63 - 1
  period := -Nat.pow 2 63
  deadline := -1
  taskNames := ["n000", "n1000"]
  taskKinds := [.cpu, .fred, .omp]
  taskWcets := [0]
  taskRuntimes := []
  taskDeadlines := [-1]
  taskCpus := []
  taskKernels := [-Nat.pow 2 31]
  cpuFrequencies := [1400]
  expectedWcetRatio := .ofRank true 1
  adjacency := [[], [0, -1]]

theorem Descriptor.reload_effect_extremes : extremes.Regular ∧
    (Yaml.Document.read extremes.write).bind format.value? = some extremes ∧
    ∃ lines after, ((extremes.dump "out" : Storing String) (.around [])).1 = after ∧
      (load format "out/dag7.yaml" >>= dump "out" : Storing String) after
        = (after, ⟨lines, .ok "out/dag7.yaml"⟩) := by
  have regular : extremes.Regular := {
    name := ⟨['7'], rfl, by decide, List.all_eq_true.mp rfl⟩
    taskNames := by
      intro name member
      rcases List.mem_pair.mp member with rfl | rfl
      · exact ⟨['0', '0', '0'], rfl, by decide, List.all_eq_true.mp rfl⟩
      · exact ⟨['1', '0', '0', '0'], rfl, by decide, List.all_eq_true.mp rfl⟩
    counts := by decide
    cpus := by decide
    frequencies := by decide
    times := by decide
    taskTimes := by decide
    kernels := by decide
    adjacency := by decide }
  have dumped : ((extremes.dump "out" : Storing String) (.around [])).2.outcome
      = .ok "out/dag7.yaml" := by decide +kernel
  obtain ⟨read, again⟩ := reload_effect regular
  obtain ⟨-, lines, same⟩ := again "out" "out/dag7.yaml" (.around []) _ dumped rfl
  exact ⟨regular, read, lines, _, rfl, same⟩

end DagDeploy
