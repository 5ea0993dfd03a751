import DagDeploy.Proofs.Acceptance
import DagDeploy.Proofs.FolderMaking

/-! What remains on a disk after descriptors are written into a folder: their files, and the folder
if something was written into it. Their names differ, so no file replaces an earlier one. -/

namespace DagDeploy

namespace Disk

/-- Folders and files stand at some places of the folder to work in, and all other places are as
before. -/
structure Updated (disk after : Disk) (made : List String → Prop)
    (written : List (List String × ByteArray)) : Prop where
  home : after.home = disk.home
  folders : ∀ place, made place → after.view place = some none
  files : ∀ file ∈ written, after.view file.1 = some (some file.2)
  kept : ∀ place, (∀ folder, made folder → place ≠ disk.home ++ folder) →
    (∀ file ∈ written, place ≠ disk.home ++ file.1) → after.tree.view place = disk.tree.view place

variable {disk between after : Disk} {made madeToo : List String → Prop}
  {written writtenToo : List (List String × ByteArray)} {folder place : List String}

theorem updated_self (disk : Disk) : disk.Updated disk (fun _ => False) [] where
  home := rfl
  folders _ absurdity := absurdity.elim
  files _ member := nomatch member
  kept _ _ _ := rfl

theorem Founded.updated (founded : disk.Founded after folder) :
    disk.Updated after (· <+: folder) [] where
  home := founded.home
  folders := founded.folders
  files _ member := nomatch member
  kept place outside _ := founded.kept place outside

theorem Changed.updated {contents : ByteArray}
    (changed : disk.Changed after place (some contents)) :
    disk.Updated after (fun _ => False) [(place, contents)] where
  home := changed.home
  folders _ absurdity := absurdity.elim
  files file member := by
    obtain rfl := List.mem_singleton.mp member
    exact changed.here
  kept other _ outside := by
    rw [changed.view, if_neg (outside _ (List.mem_singleton.mpr rfl))]

theorem Updated.elsewhere (updated : disk.Updated after made written) (unmade : ¬ made place)
    (unwritten : ∀ file ∈ written, place ≠ file.1) : after.view place = disk.view place := by
  rw [Disk.view, updated.home]
  apply updated.kept
  · intro folder isMade same
    exact unmade (List.append_cancel_left same ▸ isMade)
  · intro file member same
    exact unwritten file member (List.append_cancel_left same)

theorem Updated.trans (first : disk.Updated between made written)
    (second : between.Updated after madeToo writtenToo)
    (differ : ∀ file ∈ written, ∀ other ∈ writtenToo, file.1 ≠ other.1)
    (spared : ∀ file ∈ written, ¬ madeToo file.1)
    (sparedToo : ∀ file ∈ writtenToo, ¬ made file.1) :
    disk.Updated after (fun place => made place ∨ madeToo place) (written ++ writtenToo) where
  home := second.home.trans first.home
  folders place either := by
    by_cases again : madeToo place
    · exact second.folders place again
    · have isMade := either.resolve_right again
      rw [second.elsewhere again, first.folders place isMade]
      rintro file member rfl
      exact sparedToo file member isMade
  files file member := by
    rcases List.mem_append.mp member with early | late
    · rw [second.elsewhere (spared file early) (differ file early)]
      exact first.files file early
    · exact second.files file late
  kept place unmade unwritten := by
    rw [second.kept place, first.kept place]
    · exact fun folder isMade => unmade folder (.inl isMade)
    · exact fun file member => unwritten file (List.mem_append_left _ member)
    · exact fun folder isMade => first.home ▸ unmade folder (.inr isMade)
    · exact fun file member => first.home ▸ unwritten file (List.mem_append_right _ member)

/-- Folders that were there before need no mention. -/
theorem Updated.weaken (updated : disk.Updated after made written)
    (present : ∀ place, made place → disk.view place = some none)
    (fewer : ∀ place, madeToo place → made place) :
    disk.Updated after madeToo written where
  home := updated.home
  folders place isMade := updated.folders place (fewer place isMade)
  files := updated.files
  kept place _ unwritten := by
    by_cases isMade : ∃ folder, made folder ∧ place = disk.home ++ folder
    · obtain ⟨folder, isMade, rfl⟩ := isMade
      have same := (updated.folders folder isMade).trans (present folder isMade).symm
      rwa [Disk.view, updated.home] at same
    · apply updated.kept place _ unwritten
      rintro folder here rfl
      exact isMade ⟨folder, here, rfl⟩

end Disk

namespace Descriptor

def fileName (descriptor : Descriptor) : String := descriptor.name ++ ".yaml"

/-- The file of a descriptor in a folder. -/
def fileIn (folder : String) (descriptor : Descriptor) : List String × ByteArray :=
  (Path.parts folder ++ [descriptor.fileName], descriptor.write.toUTF8)

def pathIn (folder : String) (descriptor : Descriptor) : String :=
  Path.within folder descriptor.fileName

/-- The name of the file is a single plain name. -/
structure Storable (descriptor : Descriptor) : Prop where
  single : '/' ∉ descriptor.fileName.toList
  plain : Path.IsPlain descriptor.fileName

end Descriptor

namespace Storing

open Disk Descriptor

variable {disk between after : Disk} {folder path : String} {descriptor : Descriptor}

theorem dump_of_named {lines : List LogLine}
    (named : (newFile folder descriptor.name : Storing String) disk = (between, ⟨lines, .ok path⟩))
    (written : between.writeFile path descriptor.write.toUTF8 = some after) :
    (descriptor.dump folder : Storing String) disk
      = (after, ⟨lines ++ [.wroteFile path], .ok path⟩) := by
  refine (bind_of_ok named).trans ?_
  rw [bind_of_pure (require_of_true (writeFile_of_some written))]
  rfl

theorem dump_of_refused
    (named : (newFile folder descriptor.name : Storing String) disk = (disk, pure path))
    (refused : disk.writeFile path descriptor.write.toUTF8 = none) :
    (descriptor.dump folder : Storing String) disk = (disk, .fail (.unwritable path)) := by
  refine (bind_of_pure named).trans ?_
  exact bind_of_error (require_of_false (writeFile_of_none refused))

theorem dump_of_unnamed {failure : Failure}
    (stopped : (newFile folder descriptor.name : Storing String) disk = (disk, .fail failure)) :
    (descriptor.dump folder : Storing String) disk = (disk, .fail failure) :=
  bind_of_error stopped

theorem newFile_eq_ok
    (named : ((newFile folder descriptor.name : Storing String) disk).2.outcome = .ok path) :
    path = Path.join folder (descriptor.name ++ ".yaml") := by
  obtain ⟨present, -, further⟩ := outcome_bind_eq_ok.mp named
  cases present with
  | true => exact (Except.ok.inj further).symm
  | false =>
    obtain ⟨_, -, last⟩ := outcome_bind_eq_ok.mp further
    exact (Except.ok.inj last).symm

/-- A descriptor that was dumped has been written, and nothing came after that. -/
theorem dump_eq_ok
    (dumped : ((descriptor.dump folder : Storing String) disk).2.outcome = .ok path) :
    path = Path.join folder (descriptor.name ++ ".yaml") ∧
      ∃ between, Disk.writeFile between path descriptor.write.toUTF8
        = some ((descriptor.dump folder : Storing String) disk).1 := by
  rcases ran : (newFile folder descriptor.name : Storing String) disk with ⟨between, lines, outcome⟩
  obtain ⟨named, isNamed, further⟩ := outcome_bind_eq_ok.mp dumped
  have same := newFile_eq_ok isNamed
  rw [ran] at isNamed further
  cases isNamed
  cases written : Disk.writeFile between named descriptor.write.toUTF8 with
  | some after =>
    rw [dump_of_named ran written] at dumped ⊢
    cases dumped
    exact ⟨same, between, written⟩
  | none =>
    obtain ⟨_, required, -⟩ := outcome_bind_eq_ok.mp further
    rw [require_of_false (writeFile_of_none written)] at required
    cases required

variable (plain : Path.IsPlain folder) (storable : descriptor.Storable)

omit plain in
include storable in
theorem parts_pathIn :
    Path.parts (descriptor.pathIn folder) = Path.parts folder ++ [descriptor.fileName] := by
  rw [pathIn, Path.parts_within, Path.parts_of_notMem storable.single]

include plain storable

theorem join_fileName :
    Path.join folder (descriptor.name ++ ".yaml") = descriptor.pathIn folder :=
  Path.join_of_isPlain plain storable.plain

theorem isPlain_pathIn : Path.IsPlain (descriptor.pathIn folder) :=
  Path.isPlain_within plain storable.plain

theorem fits_folder (fits : Path.Fits (descriptor.pathIn folder)) : Path.Fits folder := by
  have around := (isPlain_pathIn plain storable).around (parts_pathIn storable)
    (Path.parts_ne_nil folder)
  rw [Path.ofParts_parts] at around
  exact around.2.2 fits

variable (fits : Path.Fits (descriptor.pathIn folder))
include fits

theorem newFile_of_there (present : (disk.view (Path.parts folder)).isSome) :
    (newFile folder descriptor.name : Storing String) disk
      = (disk, pure (descriptor.pathIn folder)) := by
  rw [← join_fileName plain storable]
  apply newFile_of_present
  rw [contains_eq plain (fits_folder plain storable fits), present]

theorem newFile_of_clear (clear : disk.Clear (Path.parts folder)) :
    ∃ between lines, (newFile folder descriptor.name : Storing String) disk
        = (between, ⟨lines, .ok (descriptor.pathIn folder)⟩) ∧
      disk.Founded between (Path.parts folder) := by
  have fitsFolder := fits_folder plain storable fits
  cases present : disk.view (Path.parts folder) with
  | none =>
    have absent : disk.contains folder = false := by
      rw [contains_eq plain fitsFolder, present]
      rfl
    obtain ⟨between, made, founded⟩ := makeFolders_of_clear plain fitsFolder clear
    have named := newFile_of_absent descriptor.name absent made
    rw [join_fileName plain storable, if_pos rfl] at named
    exact ⟨between, _, named, founded⟩
  | some inner =>
    cases inner with
    | none =>
      have named := newFile_of_there plain storable fits (by rw [present]; rfl)
      exact ⟨disk, [], named, founded_self present⟩
    | some contents => exact absurd present (clear _ (List.prefix_refl _) contents)

/-- Nothing but a folder can be in the way of a file. -/
theorem dump_of_clear (clear : disk.Clear (Path.parts folder))
    (free : disk.view (Path.parts folder ++ [descriptor.fileName]) ≠ some none) :
    ∃ after lines, (descriptor.dump folder : Storing String) disk
        = (after, ⟨lines, .ok (descriptor.pathIn folder)⟩) ∧
      disk.Updated after (· <+: Path.parts folder) [descriptor.fileIn folder] := by
  obtain ⟨between, lines, named, founded⟩ := newFile_of_clear plain storable fits clear
  have stillFree : between.view (Path.parts folder ++ [descriptor.fileName]) ≠ some none := by
    rwa [founded.beyond]
  obtain ⟨after, written, changed⟩ := writeFile_of_free (isPlain_pathIn plain storable) fits
    (parts_pathIn storable) (founded.folders _ (List.prefix_refl _)) stillFree
    descriptor.write.toUTF8
  refine ⟨after, _, dump_of_named named written, ?_⟩
  have updated := founded.updated.trans changed.updated (by simp) (by simp) ?_
  · simpa only [or_false, List.nil_append, fileIn] using updated
  · intro file member inside
    obtain rfl := List.mem_singleton.mp member
    exact not_concat_prefix _ _ inside

theorem dump_of_taken
    (taken : disk.view (Path.parts folder ++ [descriptor.fileName]) = some none) :
    (descriptor.dump folder : Storing String) disk
      = (disk, .fail (.unwritable (descriptor.pathIn folder))) := by
  have around : disk.view (Path.parts folder) = some none :=
    folders_of_view (by rw [taken]; rfl) (List.cons_ne_nil _ _)
  refine dump_of_refused (newFile_of_there plain storable fits (by rw [around]; rfl)) ?_
  exact writeFile_of_taken (isPlain_pathIn plain storable) fits (parts_pathIn storable) around
    taken _

/-- A file in place of the folder shows when the descriptor is written, one in place of a folder
around it when the folder is made. -/
theorem dump_of_file {before rest : List String} {contents : ByteArray}
    (divided : Path.parts folder = before ++ rest)
    (file : disk.view before = some (some contents)) :
    (descriptor.dump folder : Storing String) disk = (disk, .fail (.unwritable
      (if rest = [] then descriptor.pathIn folder else folder))) := by
  have fitsFolder := fits_folder plain storable fits
  split
  next whole =>
    rw [whole, List.append_nil] at divided
    rw [← divided] at file
    refine dump_of_refused (newFile_of_there plain storable fits (by rw [file]; rfl)) ?_
    exact writeFile_of_blocked (isPlain_pathIn plain storable) fits (parts_pathIn storable)
      (List.prefix_refl _) file _
  next further =>
    have absent : disk.contains folder = false := by
      rw [contains_eq plain fitsFolder, divided, Bool.eq_false_iff]
      intro present
      rw [folders_of_view present further] at file
      cases file
    have blocked := makeFolders_of_blocked plain fitsFolder divided further file
    exact dump_of_unnamed (newFile_of_absent descriptor.name absent blocked)

omit plain storable fits

theorem dumpAll_of_ok {lines : List LogLine} {rest : List Descriptor}
    (dumped : (descriptor.dump folder : Storing String) disk = (between, ⟨lines, .ok path⟩))
    {more : List LogLine} {paths : List String}
    (others : (dumpAll folder rest : Storing _) between = (after, ⟨more, .ok paths⟩)) :
    (dumpAll folder (descriptor :: rest) : Storing _) disk
      = (after, ⟨lines ++ more, .ok (path :: paths)⟩) := by
  refine (bind_of_ok dumped).trans ?_
  rw [bind_of_ok others, pure_run]
  simp

/-- The first failure ends the whole. -/
theorem dumpAll_of_error {front : List Descriptor} (rest : List Descriptor) {lines : List LogLine}
    {paths : List String} {failure : Failure}
    (done : (dumpAll folder front : Storing _) disk = (between, ⟨lines, .ok paths⟩))
    (stopped : (descriptor.dump folder : Storing String) between = (after, .fail failure)) :
    (dumpAll folder (front ++ descriptor :: rest) : Storing _) disk
      = (after, ⟨lines, .error failure⟩) := by
  induction front generalizing disk lines paths with
  | nil =>
    cases done
    exact bind_of_error stopped
  | cons first others ih =>
    rcases ran : (first.dump folder : Storing String) disk with ⟨middle, more, outcome⟩
    cases outcome with
    | error failure =>
      have failed := (bind_of_error ran).symm.trans done
      cases failed
    | ok path =>
      rcases later : (dumpAll folder others : Storing _) middle with ⟨last, further, outcome⟩
      cases outcome with
      | error failure =>
        have failed := (bind_of_ok ran).symm.trans done
        rw [bind_of_error later] at failed
        cases failed
      | ok names =>
        have same := (dumpAll_of_ok ran later).symm.trans done
        cases same
        rw [List.cons_append]
        refine (bind_of_ok ran).trans ?_
        rw [bind_of_error (ih later)]

end Storing

/-- The descriptors can be written into the folder: their paths are within the limits, no file is
in the way of the folder and no folder in the way of a file. -/
structure Disk.Ready (disk : Disk) (folder : String) (descriptors : List Descriptor) : Prop where
  fits : ∀ descriptor ∈ descriptors, Path.Fits (descriptor.pathIn folder)
  clear : disk.Clear (Path.parts folder)
  free : ∀ descriptor ∈ descriptors,
    disk.view (Path.parts folder ++ [descriptor.fileName]) ≠ some none

namespace Storing

open Disk Descriptor

variable {disk : Disk} {folder : String} {descriptors : List Descriptor}

theorem dumpAll_of_ready (plain : Path.IsPlain folder)
    (storable : ∀ descriptor ∈ descriptors, descriptor.Storable)
    (distinct : (descriptors.map fileName).Nodup) (ready : disk.Ready folder descriptors) :
    ∃ after lines, (dumpAll folder descriptors : Storing _) disk
        = (after, ⟨lines, .ok (descriptors.map (pathIn folder))⟩) ∧
      disk.Updated after (fun place => descriptors ≠ [] ∧ place <+: Path.parts folder)
        (descriptors.map (fileIn folder)) := by
  induction descriptors generalizing disk with
  | nil =>
    refine ⟨disk, [], rfl, ?_⟩
    simpa using updated_self disk
  | cons first rest ih =>
    obtain ⟨storableFirst, storableRest⟩ := List.forall_mem_cons.mp storable
    obtain ⟨fitsFirst, fitsRest⟩ := List.forall_mem_cons.mp ready.fits
    obtain ⟨freeFirst, freeRest⟩ := List.forall_mem_cons.mp ready.free
    obtain ⟨different, distinctRest⟩ := List.nodup_cons.mp distinct
    obtain ⟨between, lines, dumped, updated⟩ :=
      dump_of_clear plain storableFirst fitsFirst ready.clear freeFirst
    have outside : ∀ descriptor : Descriptor,
        ¬ (descriptor.fileIn folder).1 <+: Path.parts folder :=
      fun descriptor => not_concat_prefix _ descriptor.fileName
    have apart : ∀ descriptor ∈ rest, (first.fileIn folder).1 ≠ (descriptor.fileIn folder).1 := by
      intro descriptor member same
      have sameName := List.append_cancel_left same
      exact different (List.mem_map.mpr ⟨descriptor, member, (List.cons.inj sameName).1.symm⟩)
    have readyRest : between.Ready folder rest := by
      refine ⟨fitsRest, ?_, ?_⟩
      · intro around inside contents file
        rw [updated.folders around inside] at file
        cases file
      · intro descriptor member
        have same : between.view (descriptor.fileIn folder).1
            = disk.view (descriptor.fileIn folder).1 := by
          apply updated.elsewhere (outside descriptor)
          intro file isFirst
          obtain rfl := List.mem_singleton.mp isFirst
          exact (apart descriptor member).symm
        exact same ▸ freeRest descriptor member
    obtain ⟨after, more, others, updatedRest⟩ := ih storableRest distinctRest readyRest
    refine ⟨after, _, dumpAll_of_ok dumped others, ?_⟩
    have whole := updated.trans updatedRest (by simpa using apart)
      (by simpa using fun _ => outside first)
      (by simpa using fun descriptor _ => outside descriptor)
    have same :
        (fun place => place <+: Path.parts folder ∨ rest ≠ [] ∧ place <+: Path.parts folder)
        = fun place => first :: rest ≠ [] ∧ place <+: Path.parts folder := by
      funext place
      simp
    rw [same] at whole
    exact whole

end Storing

end DagDeploy
