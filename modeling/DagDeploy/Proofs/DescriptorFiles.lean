import DagDeploy.Proofs.Naming

/-! The descriptors of a set are dumped under names that number them. Either all files are written,
or those before the first that cannot be, or none because the folder cannot be made. -/

namespace DagDeploy

namespace Descriptor

/-- The name of the file that holds the descriptor of a dag. -/
def fileNameOf (dag : Nat) : String := nameOf dag ++ ".yaml"

def pathOf (folder : String) (dag : Nat) : String := Path.within folder (fileNameOf dag)

def placeOf (folder : String) (dag : Nat) : List String :=
  Path.parts folder ++ [fileNameOf dag]

theorem toList_fileNameOf (dag : Nat) :
    (fileNameOf dag).toList = "dag".toList ++ Decimal.ofNat dag ++ ".yaml".toList := by
  rw [fileNameOf, String.toList_append, toList_nameOf]

theorem fileNameOf_injective {dag other : Nat} (same : fileNameOf dag = fileNameOf other) :
    dag = other := by
  have texts := congrArg String.toList same
  rw [toList_fileNameOf, toList_fileNameOf] at texts
  have digits := List.append_cancel_left (List.append_cancel_right texts)
  have numbers := congrArg Decimal.nat? digits
  rw [Decimal.nat?_ofNat, Decimal.nat?_ofNat] at numbers
  exact Option.some.inj numbers

theorem nodup_pathOf (folder : String) (count : Nat) :
    ((List.range count).map (pathOf folder)).Nodup := by
  apply List.nodup_range.map
  intro dag other same
  apply fileNameOf_injective
  apply String.toList_inj.mp
  have texts := congrArg String.toList same
  simp only [pathOf, Path.within, String.toList_append] at texts
  exact List.append_cancel_left texts

/-- The descriptors are named by their positions. -/
def Numbered (descriptors : List Descriptor) : Prop :=
  ∀ (index : Nat) (descriptor : Descriptor), descriptors[index]? = some descriptor →
    descriptor.name = nameOf index

variable {descriptors : List Descriptor}

theorem Numbered.fileName_at (numbered : Numbered descriptors) {index : Nat}
    {descriptor : Descriptor} (found : descriptors[index]? = some descriptor) :
    descriptor.fileName = fileNameOf index := by
  rw [fileName, numbered index descriptor found, fileNameOf]

theorem Numbered.pathIn_at (numbered : Numbered descriptors) (folder : String) {index : Nat}
    {descriptor : Descriptor} (found : descriptors[index]? = some descriptor) :
    descriptor.pathIn folder = pathOf folder index := by
  rw [pathIn, numbered.fileName_at found, pathOf]

theorem Numbered.storable (numbered : Numbered descriptors) :
    ∀ descriptor ∈ descriptors, descriptor.Storable := by
  intro descriptor member
  obtain ⟨index, found⟩ := List.getElem?_of_mem member
  apply storable_of_isNumbered
  rw [numbered index descriptor found]
  exact isNumbered_nameOf index

theorem Numbered.paths (numbered : Numbered descriptors) (folder : String) :
    descriptors.map (pathIn folder) = (List.range descriptors.length).map (pathOf folder) := by
  apply List.ext_getElem (by simp)
  intro index inside _
  rw [List.getElem_map, List.getElem_map, List.getElem_range]
  exact numbered.pathIn_at folder (List.getElem?_eq_getElem _)

theorem Numbered.distinct (numbered : Numbered descriptors) :
    (descriptors.map fileName).Nodup := by
  have names : descriptors.map fileName = (List.range descriptors.length).map fileNameOf := by
    apply List.ext_getElem (by simp)
    intro index inside _
    rw [List.getElem_map, List.getElem_map, List.getElem_range]
    exact numbered.fileName_at (List.getElem?_eq_getElem _)
  rw [names]
  exact List.nodup_range.map fun _ _ => fileNameOf_injective

theorem Numbered.take (numbered : Numbered descriptors) (count : Nat) :
    Numbered (descriptors.take count) := by
  intro index descriptor found
  rw [List.getElem?_take] at found
  split at found
  · exact numbered index descriptor found
  · cases found

theorem Numbered.ready_iff (numbered : Numbered descriptors) (disk : Disk) (folder : String) :
    disk.Ready folder descriptors ↔
      (∀ dag < descriptors.length, Path.Fits (pathOf folder dag)) ∧
        disk.Clear (Path.parts folder) ∧
        ∀ dag < descriptors.length, disk.view (placeOf folder dag) ≠ some none := by
  constructor
  · intro ready
    refine ⟨?_, ready.clear, ?_⟩
    · intro dag inside
      have found := List.getElem?_eq_getElem inside
      rw [← numbered.pathIn_at folder found]
      exact ready.fits _ (List.mem_of_getElem? found)
    · intro dag inside
      have found := List.getElem?_eq_getElem inside
      rw [placeOf, ← numbered.fileName_at found]
      exact ready.free _ (List.mem_of_getElem? found)
  · intro ready
    obtain ⟨fits, clear, free⟩ := ready
    refine ⟨?_, clear, ?_⟩
    · intro descriptor member
      obtain ⟨dag, found⟩ := List.getElem?_of_mem member
      rw [numbered.pathIn_at folder found]
      exact fits dag (List.getElem?_eq_some_iff.mp found).1
    · intro descriptor member
      obtain ⟨dag, found⟩ := List.getElem?_of_mem member
      rw [numbered.fileName_at found]
      exact free dag (List.getElem?_eq_some_iff.mp found).1

/-- The files of the first descriptors. -/
def filesIn (folder : String) (descriptors : List Descriptor) : List (List String × ByteArray) :=
  descriptors.mapIdx fun index descriptor => (placeOf folder index, descriptor.write.toUTF8)

theorem Numbered.files (numbered : Numbered descriptors) (folder : String) :
    descriptors.map (fileIn folder) = filesIn folder descriptors := by
  apply List.ext_getElem (by simp [filesIn])
  intro index inside _
  simp only [filesIn, List.getElem_map, List.getElem_mapIdx, fileIn, placeOf]
  rw [numbered.fileName_at (List.getElem?_eq_getElem _)]

end Descriptor

section described

variable {set : DagSet} {solution : Solution} {catalogue : Catalogue} {run : RunLength}
  {descriptors : List Descriptor}
  (described : (describeAll set solution catalogue run).outcome = .ok descriptors)
include described

theorem described_at {index : Nat} {descriptor : Descriptor}
    (found : descriptors[index]? = some descriptor) :
    ∃ (deployment : Deployment) (dag : Dag) (settled : List Settled),
      descriptor = deployment.descriptorOf dag index run settled := by
  obtain ⟨board, -, count, each⟩ := Deployment.describeAll_eq_ok.mp described
  obtain ⟨inside, -⟩ := List.getElem?_eq_some_iff.mp found
  have dag := List.getElem?_eq_getElem (count ▸ inside)
  obtain ⟨-, -, -, settled, -, made⟩ :=
    Deployment.describe_eq_ok.mp (each index _ descriptor dag found)
  exact ⟨_, _, settled, made⟩

theorem numbered_of_describeAll : Descriptor.Numbered descriptors := by
  intro index descriptor found
  obtain ⟨deployment, dag, settled, rfl⟩ := described_at described found
  rfl

/-- All names that are given are of two forms. -/
theorem names_of_describeAll : ∀ descriptor ∈ descriptors,
    IsNumbered "dag" 1 descriptor.name ∧
      ∀ name ∈ descriptor.taskNames, IsNumbered "n" 3 name := by
  intro descriptor member
  obtain ⟨index, found⟩ := List.getElem?_of_mem member
  obtain ⟨deployment, dag, settled, rfl⟩ := described_at described found
  refine ⟨Descriptor.isNumbered_nameOf index, fun name isName => ?_⟩
  obtain ⟨task, -, rfl⟩ := List.mem_map.mp isName
  exact Descriptor.isNumbered_taskName task

end described

namespace Storing

open Disk Descriptor

variable {disk : Disk} {folder : String} {descriptors : List Descriptor}

theorem fits_of_dumpAll (plain : Path.IsPlain folder) {paths : List String}
    (storable : ∀ descriptor ∈ descriptors, descriptor.Storable)
    (dumped : ((dumpAll folder descriptors : Storing _) disk).2.outcome = .ok paths) :
    ∀ descriptor ∈ descriptors, Path.Fits (descriptor.pathIn folder) := by
  induction descriptors generalizing disk paths with
  | nil => exact fun _ member => nomatch member
  | cons first rest ih =>
    obtain ⟨storableFirst, storableRest⟩ := List.forall_mem_cons.mp storable
    obtain ⟨path, firstDumped, further⟩ := outcome_bind_eq_ok.mp dumped
    obtain ⟨others, restDumped, -⟩ := outcome_bind_eq_ok.mp further
    obtain ⟨same, between, written⟩ := dump_eq_ok firstDumped
    rw [join_fileName plain storableFirst] at same
    subst same
    have fitsFirst := fits_of_writeFile (isPlain_pathIn plain storableFirst)
      (parts_pathIn storableFirst) written
    exact List.forall_mem_cons.mpr ⟨fitsFirst, ih storableRest restDumped⟩

/-- The files before a folder that is in the way are written. -/
theorem dumpAll_of_taken (plain : Path.IsPlain folder) (numbered : Numbered descriptors)
    {index : Nat} (inside : index < descriptors.length)
    (fits : ∀ dag ≤ index, Path.Fits (pathOf folder dag))
    (taken : disk.view (placeOf folder index) = some none)
    (free : ∀ dag < index, disk.view (placeOf folder dag) ≠ some none) :
    ∃ after lines, (dumpAll folder descriptors : Storing _) disk
        = (after, ⟨lines, .error (.unwritable (pathOf folder index))⟩) ∧
      disk.Updated after (fun _ => False) (filesIn folder (descriptors.take index)) := by
  have around : ∀ before, before <+: Path.parts folder → disk.view before = some none := by
    rintro before ⟨rest, joined⟩
    rw [placeOf, ← joined, List.append_assoc] at taken
    exact folders_of_view (by rw [taken]; rfl) (by simp)
  have found : descriptors[index]? = some descriptors[index] := List.getElem?_eq_getElem inside
  have first := numbered.take index
  have count : (descriptors.take index).length = index := by
    rw [List.length_take]
    omega
  have ready : disk.Ready folder (descriptors.take index) := by
    refine (first.ready_iff disk folder).mpr ⟨?_, ?_, ?_⟩
    · exact fun dag early => fits dag (by omega)
    · intro before isPrefix contents file
      rw [around before isPrefix] at file
      cases file
    · exact fun dag early => free dag (by omega)
  obtain ⟨between, lines, dumped, updated⟩ :=
    dumpAll_of_ready plain first.storable first.distinct ready
  rw [first.files] at updated
  have stillTaken : between.view (placeOf folder index) = some none := by
    rw [updated.elsewhere, taken]
    · exact fun made => not_concat_prefix _ _ made.2
    · intro file member
      obtain ⟨dag, before, written⟩ := List.mem_mapIdx.mp member
      rw [count] at before
      intro same
      have names := List.append_cancel_left ((congrArg Prod.fst written).trans same.symm)
      have sameDag := fileNameOf_injective (List.cons.inj names).1
      omega
  have storable := numbered.storable _ (List.mem_of_getElem? found)
  have fitsHere := fits index (Nat.le_refl _)
  rw [placeOf, ← numbered.fileName_at found] at stillTaken
  rw [← numbered.pathIn_at folder found] at fitsHere ⊢
  have stopped := dump_of_taken plain storable fitsHere stillTaken
  refine ⟨between, lines, ?_, updated.weaken (fun place made => around place made.2) ?_⟩
  · have divided : descriptors.take index ++ descriptors[index] :: descriptors.drop (index + 1)
        = descriptors := by rw [← List.drop_eq_getElem_cons inside, List.take_append_drop]
    have failed := dumpAll_of_error (descriptors.drop (index + 1)) dumped stopped
    rwa [divided] at failed
  · exact fun _ absurdity => absurdity.elim

theorem dumpAll_of_file (plain : Path.IsPlain folder) (numbered : Numbered descriptors)
    (nonempty : descriptors ≠ []) (fits : Path.Fits (pathOf folder 0))
    {before rest : List String} {contents : ByteArray}
    (divided : Path.parts folder = before ++ rest)
    (file : disk.view before = some (some contents)) :
    (dumpAll folder descriptors : Storing _) disk = (disk, .fail (.unwritable
      (if rest = [] then pathOf folder 0 else folder))) := by
  cases descriptors with
  | nil => exact absurd rfl nonempty
  | cons first others =>
    have same : first.pathIn folder = pathOf folder 0 := numbered.pathIn_at folder rfl
    have storable := numbered.storable first List.mem_cons_self
    have stopped := dump_of_file plain storable (same ▸ fits) divided file
    rw [same] at stopped
    exact bind_of_error stopped

/-- Whatever was in the way would have been in the way. -/
theorem ready_of_dumpAll (plain : Path.IsPlain folder) (numbered : Numbered descriptors)
    (nonempty : descriptors ≠ []) {paths : List String}
    (dumped : ((dumpAll folder descriptors : Storing _) disk).2.outcome = .ok paths) :
    disk.Ready folder descriptors := by
  have fits : ∀ dag < descriptors.length, Path.Fits (pathOf folder dag) := by
    intro dag inside
    have found := List.getElem?_eq_getElem inside
    rw [← numbered.pathIn_at folder found]
    exact fits_of_dumpAll plain numbered.storable dumped _ (List.mem_of_getElem? found)
  refine (numbered.ready_iff disk folder).mpr ⟨fits, ?_, ?_⟩
  · rintro before ⟨rest, joined⟩ contents file
    have first := fits 0 (List.length_pos_of_ne_nil nonempty)
    rw [dumpAll_of_file plain numbered nonempty first joined.symm file] at dumped
    cases dumped
  · intro dag
    induction dag using Nat.strongRecOn with
    | ind dag ih =>
      intro inside taken
      obtain ⟨after, lines, stopped, -⟩ := dumpAll_of_taken plain numbered inside
        (fun earlier before => fits earlier (by omega)) taken
        (fun earlier before => ih earlier before (by omega))
      rw [stopped] at dumped
      cases dumped

/-- After a success all files are there, in the folder. -/
theorem updated_of_dumpAll (plain : Path.IsPlain folder) (numbered : Numbered descriptors)
    {paths : List String}
    (dumped : ((dumpAll folder descriptors : Storing _) disk).2.outcome = .ok paths) :
    paths = (List.range descriptors.length).map (pathOf folder) ∧
      disk.Updated ((dumpAll folder descriptors : Storing _) disk).1
        (fun place => descriptors ≠ [] ∧ place <+: Path.parts folder)
        (filesIn folder descriptors) := by
  by_cases empty : descriptors = []
  · subst empty
    obtain rfl := Except.ok.inj dumped
    refine ⟨rfl, ?_⟩
    change disk.Updated disk _ _
    simpa [filesIn] using updated_self disk
  · have ready := ready_of_dumpAll plain numbered empty dumped
    obtain ⟨after, lines, ran, updated⟩ :=
      dumpAll_of_ready plain numbered.storable numbered.distinct ready
    rw [numbered.files, numbered.paths] at *
    rw [ran] at dumped ⊢
    exact ⟨(Except.ok.inj dumped).symm, updated⟩

end Storing

namespace Deployment

open Disk Descriptor

/-- What dumping the descriptors of a set into a folder of plain names does to a disk. Each way to
fail is told by what stood in the way before. -/
theorem dumpAll_effect {set : DagSet} {solution : Solution} {catalogue : Catalogue}
    {run : RunLength} {descriptors : List Descriptor}
    (described : (describeAll set solution catalogue run).outcome = .ok descriptors)
    {folder : String} (plain : Path.IsPlain folder) (disk : Disk) :
    let effect := (dumpAll folder descriptors : Storing (List String)) disk
    ((∃ paths, effect.2.outcome = .ok paths) ↔ descriptors = [] ∨
      (∀ dag < descriptors.length, Path.Fits (pathOf folder dag)) ∧
        disk.Clear (Path.parts folder) ∧
        ∀ dag < descriptors.length, disk.view (placeOf folder dag) ≠ some none) ∧
    (∀ paths, effect.2.outcome = .ok paths →
      paths = (List.range descriptors.length).map (pathOf folder) ∧ paths.Nodup ∧
        disk.Updated effect.1 (fun place => descriptors ≠ [] ∧ place <+: Path.parts folder)
          (filesIn folder descriptors)) ∧
    (∀ index < descriptors.length, (∀ dag ≤ index, Path.Fits (pathOf folder dag)) →
      disk.view (placeOf folder index) = some none →
      (∀ dag < index, disk.view (placeOf folder dag) ≠ some none) →
        effect.2.outcome = .error (.unwritable (pathOf folder index)) ∧
          disk.Updated effect.1 (fun _ => False) (filesIn folder (descriptors.take index))) ∧
    (descriptors ≠ [] → Path.Fits (pathOf folder 0) → ∀ before rest contents,
      Path.parts folder = before ++ rest → disk.view before = some (some contents) →
        effect.1 = disk ∧ effect.2.outcome
          = .error (.unwritable (if rest = [] then pathOf folder 0 else folder))) := by
  have numbered := numbered_of_describeAll described
  refine ⟨⟨?_, ?_⟩, ?_, ?_, ?_⟩
  · intro ⟨paths, dumped⟩
    by_cases empty : descriptors = []
    · exact .inl empty
    · have ready := Storing.ready_of_dumpAll plain numbered empty dumped
      exact .inr ((numbered.ready_iff disk folder).mp ready)
  · rintro (rfl | possible)
    · exact ⟨[], rfl⟩
    · have ready := (numbered.ready_iff disk folder).mpr possible
      obtain ⟨after, lines, ran, -⟩ :=
        Storing.dumpAll_of_ready plain numbered.storable numbered.distinct ready
      exact ⟨_, by rw [ran]⟩
  · intro paths dumped
    obtain ⟨rfl, updated⟩ := Storing.updated_of_dumpAll plain numbered dumped
    exact ⟨rfl, nodup_pathOf folder _, updated⟩
  · intro index inside fits taken free
    obtain ⟨after, lines, ran, updated⟩ :=
      Storing.dumpAll_of_taken plain numbered inside fits taken free
    rw [ran]
    exact ⟨rfl, updated⟩
  · intro nonempty fits before rest contents divided file
    rw [Storing.dumpAll_of_file plain numbered nonempty fits divided file]
    exact ⟨rfl, rfl⟩

/-- A single dag with nothing to run. -/
def idleSet : DagSet := ⟨[⟨[], [], 1000, 1000⟩]⟩

def idleSolution : Solution := ⟨"odroid-xu4", [], []⟩

def idleRun : RunLength := ⟨1000, 1⟩

/-- Two dags of different periods. -/
def pairSet : DagSet := ⟨[⟨[], [], 1000, 1000⟩, ⟨[], [], 2000, 1000⟩]⟩

/-- A folder has the name of the second file. -/
def takenDisk : Disk := .around [("out", .folder [("dag1.yaml", .folder [])])]

/-- Two descriptors are dumped where there is nothing, and where only the first can be written. -/
theorem dumpAll_effect_pair : ∃ first second,
    (describeAll pairSet idleSolution .standard idleRun).outcome = .ok [first, second] ∧
    Path.IsPlain "out" ∧
    ((dumpAll "out" [first, second] : Storing (List String)) (.around [])).2.outcome
      = .ok ["out/dag0.yaml", "out/dag1.yaml"] ∧
    (Disk.around []).Updated
      ((dumpAll "out" [first, second] : Storing (List String)) (.around [])).1
      (fun place => [first, second] ≠ [] ∧ place <+: ["out"]) (filesIn "out" [first, second]) ∧
    ((dumpAll "out" [first, second] : Storing (List String)) takenDisk).2.outcome
      = .error (.unwritable "out/dag1.yaml") ∧
    takenDisk.Updated ((dumpAll "out" [first, second] : Storing (List String)) takenDisk).1
      (fun _ => False) (filesIn "out" [first]) := by
  obtain ⟨first, second, described⟩ : ∃ first second,
      (describeAll pairSet idleSolution .standard idleRun).outcome = .ok [first, second] :=
    ⟨_, _, rfl⟩
  have plain : Path.IsPlain "out" := by
    unfold Path.IsPlain
    decide
  have fits : ∀ dag < 2, Path.Fits (pathOf "out" dag) := by
    intro dag inside
    rcases (by omega : dag = 0 ∨ dag = 1) with rfl | rfl
    · exact ⟨by decide, by decide⟩
    · exact ⟨by decide, by decide⟩
  obtain ⟨succeeds, written, -, -⟩ := dumpAll_effect described plain (.around [])
  have clear : (Disk.around []).Clear (Path.parts "out") := by
    intro around inside contents isFile
    cases around <;> cases isFile
  have free : ∀ dag < 2, (Disk.around []).view (placeOf "out" dag) ≠ some none := by
    intro dag _ isFolder
    cases isFolder
  obtain ⟨paths, dumped⟩ := succeeds.mpr (.inr ⟨fits, clear, free⟩)
  obtain ⟨rfl, -, updated⟩ := written paths dumped
  have names : (List.range 2).map (pathOf "out") = ["out/dag0.yaml", "out/dag1.yaml"] := by decide
  obtain ⟨-, -, stops, -⟩ := dumpAll_effect described plain takenDisk
  obtain ⟨stopped, changed⟩ := stops 1 (Nat.lt_succ_self 1)
    (fun dag before => fits dag (Nat.lt_succ_of_le before)) (by decide) fun dag before => by
      obtain rfl := Nat.lt_one_iff.mp before
      decide
  exact ⟨first, second, described, plain, dumped.trans (congrArg Except.ok names), updated, stopped,
    changed⟩

def longName (length : Nat) : String := String.ofList (List.replicate length 'a')

theorem notMem_longName {c : Char} (different : c ≠ 'a') (length : Nat) :
    c ∉ (longName length).toList := by
  rw [longName, String.toList_ofList]
  exact fun member => different (List.eq_of_mem_replicate member)

theorem parts_longName (length : Nat) : Path.parts (longName length) = [longName length] :=
  Path.parts_of_notMem (notMem_longName (by decide) length)

theorem plain_longName {length : Nat} (long : 2 < length) : Path.IsPlain (longName length) := by
  have differs : ∀ other : String, other.length ≤ 2 → longName length ≠ other := by
    rintro other short rfl
    rw [longName, String.length_ofList, List.length_replicate] at short
    omega
  intro part member
  rw [parts_longName, List.mem_singleton] at member
  subst member
  refine ⟨?_, ?_, notMem_longName (by decide) length⟩
  · simp [Path.stays, differs "" (by decide), differs "." (by decide)]
  · simp [Path.rises, differs ".." (by decide)]

/-- Nothing is in the way, and still nothing can be written. -/
theorem dumpAll_longName : ∃ descriptor,
    (describeAll idleSet idleSolution .standard idleRun).outcome = .ok [descriptor] ∧
      Path.IsPlain (longName 256) ∧ (Disk.around []).Clear (Path.parts (longName 256)) ∧
      (Disk.around []).view (placeOf (longName 256) 0) ≠ some none ∧
      ∀ paths, ((dumpAll (longName 256) [descriptor] : Storing (List String))
        (Disk.around [])).2.outcome ≠ .ok paths := by
  obtain ⟨descriptor, described⟩ : ∃ descriptor,
      (describeAll idleSet idleSolution .standard idleRun).outcome = .ok [descriptor] := ⟨_, rfl⟩
  have plain : Path.IsPlain (longName 256) := plain_longName (by decide)
  refine ⟨descriptor, described, plain, ?_, ?_, ?_⟩
  · intro around inside contents isFile
    cases around <;> cases isFile
  · rw [placeOf, parts_longName]
    intro isFolder
    cases isFolder
  · intro paths dumped
    have numbered : Numbered [descriptor] := numbered_of_describeAll described
    have fits := Storing.fits_of_dumpAll plain numbered.storable dumped descriptor
      List.mem_cons_self
    have short : (longName 256).utf8ByteSize ≤ Path.longestName := by
      apply fits.names
      rw [pathIn, Path.parts_within, parts_longName]
      exact List.mem_append_left _ List.mem_cons_self
    exact absurd short (by decide +kernel)

end Deployment

end DagDeploy
