import DagDeploy.Proofs.FolderMaking

/-! Reading and replacing a file along any path, plain or not. A file that was written is read back,
and a file that is replaced by itself leaves the disk as it is. -/

namespace DagDeploy

namespace Path

variable {folder file : String}

theorem isAbsolute_of_notMem (noSlash : '/' ∉ file.toList) : isAbsolute file = false := by
  rw [isAbsolute, beq_eq_false_iff_ne]
  intro slash
  exact noSlash (List.mem_of_head? slash)

/-- A file in a folder, whose path may end in a slash. -/
theorem parts_join (noSlash : '/' ∉ file.toList) (nonempty : folder.isEmpty = false) :
    ∃ front, parts (join folder file) = front ++ [file] ∧
      (parts folder = front ∨ parts folder = front ++ [""]) := by
  have relative := isAbsolute_of_notMem noSlash
  by_cases slash : folder.toList.getLast? = some '/'
  · obtain ⟨text, ends⟩ := List.getLast?_eq_some_iff.mp slash
    have whole : join folder file = within (String.ofList text) file := by
      apply String.toList_inj.mp
      simp [join, relative, nonempty, within, ends]
    refine ⟨parts (String.ofList text), ?_, .inr ?_⟩
    · rw [whole, parts_within, parts_of_notMem noSlash]
    · simp [parts, ends, splitSlashes_append, splitSlashes]
  · have whole : join folder file = within folder file := by
      simp [join, relative, nonempty, slash, within]
    exact ⟨parts folder, by rw [whole, parts_within, parts_of_notMem noSlash], .inl rfl⟩

theorem exists_join (noSlash : '/' ∉ file.toList) (nonempty : folder.isEmpty = false) :
    ∃ more, join folder file = folder ++ more := by
  simp only [join, isAbsolute_of_notMem noSlash, nonempty, Bool.or_self, Bool.false_eq_true,
    if_false]
  split
  · exact ⟨file, rfl⟩
  · exact ⟨"/" ++ file, String.append_assoc⟩

theorem isValid_of_append {more : String} (valid : isValid (folder ++ more) = true) :
    isValid folder = true := by
  simp only [isValid, String.utf8ByteSize_append, String.toList_append, Bool.and_eq_true,
    decide_eq_true_eq, Bool.not_eq_true', List.contains_eq_mem, decide_eq_false_iff_not,
    List.mem_append, not_or] at valid ⊢
  exact ⟨Nat.le_trans (Nat.le_add_right _ _) valid.1, valid.2.1⟩

theorem isAbsolute_append {more : String} (nonempty : folder.isEmpty = false) :
    isAbsolute (folder ++ more) = isAbsolute folder := by
  rw [isAbsolute, isAbsolute, String.toList_append]
  cases text : folder.toList with
  | nil =>
    obtain rfl : folder = "" := String.toList_inj.mp text
    cases nonempty
  | cons c rest => rfl

end Path

namespace Disk

variable {disk after : Disk} {folder path file : String} {contents : ByteArray}
  {place found front : List String}

theorem follow_append (front rest : List String) (place : List String) :
    disk.follow place (front ++ rest)
      = (disk.follow place front).bind fun middle => disk.follow middle rest := by
  induction front generalizing place with
  | nil => rfl
  | cons part others ih =>
    simp only [List.cons_append, follow]
    split
    · rfl
    split
    · exact ih place
    split
    · exact ih place.dropLast
    split
    · rfl
    split
    · exact ih (place ++ [part])
    · rfl

theorem follow_append_eq_ok {rest : List String} :
    disk.follow place (front ++ rest) = .ok found ↔
      ∃ middle, disk.follow place front = .ok middle ∧ disk.follow middle rest = .ok found := by
  rw [follow_append]
  cases disk.follow place front with
  | error obstacle => simp [Except.bind]
  | ok middle => simp [Except.bind]

/-- Whatever leads on from a place, or ends there in a folder, shows that a folder is there. -/
theorem isFolderAt_of_follow {names : List String} (followed : disk.follow place names = .ok found)
    (folder : names = [] → disk.tree.isFolderAt found = true) : disk.tree.isFolderAt place := by
  cases names with
  | nil =>
    obtain rfl := Except.ok.inj followed
    exact folder rfl
  | cons part rest =>
    simp only [follow] at followed
    split at followed
    · cases followed
    next around => simpa using around

/-- A name in a folder. -/
theorem follow_name (stays : Path.stays file = false) (rises : Path.rises file = false) :
    disk.follow place [file] = .ok found ↔ disk.tree.isFolderAt place = true ∧
      Path.isName file = true ∧ found = place ++ [file] ∧
        (disk.tree.view (place ++ [file])).isSome = true := by
  simp only [follow, stays, rises, Bool.false_eq_true, if_false, Bool.not_eq_true']
  split
  next around => simp [around]
  next around =>
    split
    next named => simp [named]
    next named =>
      split
      next present =>
        simp only [Bool.not_eq_false] at around named
        simp [around, named, present, eq_comm]
      next absent => simp [absent]

/-- Folders stay where they are when something is put elsewhere, and so do the ways to them. -/
theorem folder_of_plant {child : FileTree} (planted : disk.plant child place = some after)
    (folder : disk.tree.isFolderAt found = true) : after.tree.view found = some none := by
  obtain ⟨free, -, grown⟩ := plant_eq_some.mp planted
  have apart : ¬ place <+: found := by
    rintro ⟨rest, rfl⟩
    rw [FileTree.isFolderAt_of_append folder] at free
    cases free
  rw [FileTree.view_plant grown, if_neg apart]
  exact FileTree.isFolderAt_iff.mp folder

theorem follow_of_plant {child : FileTree} (planted : disk.plant child place = some after)
    (folder : disk.tree.isFolderAt found = true) {start : List String}
    (followed : disk.follow start front = .ok found) : after.follow start front = .ok found := by
  have around := isFolderAt_of_follow followed fun _ => folder
  have remains := FileTree.isFolderAt_iff.mpr (folder_of_plant planted around)
  induction front generalizing start with
  | nil => exact followed
  | cons part rest ih =>
    have further : ∀ next, disk.follow next rest = .ok found → after.follow next rest = .ok found :=
      fun next went =>
        have there := isFolderAt_of_follow went fun _ => folder
        ih went there (FileTree.isFolderAt_iff.mpr (folder_of_plant planted there))
    simp only [follow, around, remains, Bool.not_true, Bool.false_eq_true, if_false]
      at followed ⊢
    split at followed
    next stays => rw [if_pos stays]; exact further _ followed
    next moves =>
      rw [if_neg moves]
      split at followed
      next rises => rw [if_pos rises]; exact further _ followed
      next leads =>
        rw [if_neg leads]
        split at followed
        · cases followed
        next named =>
          rw [if_neg named]
          split at followed
          next present =>
            have there := isFolderAt_of_follow followed fun _ => folder
            rw [folder_of_plant planted there]
            exact further _ followed
          · cases followed

/-- The folder in which the last part of a path names a file. -/
structure Around (disk : Disk) (path : String) (front : List String) (file : String)
    (place : List String) : Prop where
  valid : Path.isValid path = true
  followed : disk.follow (disk.origin path) front = .ok place
  folder : disk.tree.isFolderAt place = true
  named : Path.isName file = true

section divided

variable (divided : Path.parts path = front ++ [file])
include divided

theorem writeFile_eq_some : disk.writeFile path contents = some after ↔
    ∃ place, disk.Around path front file place ∧
      disk.plant (.file contents) (place ++ [file]) = some after := by
  have reversed : (Path.parts path).reverse = file :: front.reverse := by simp [divided]
  constructor
  · intro written
    simp only [writeFile, reversed, site, List.reverse_reverse] at written
    split at written
    · cases written
    next valid =>
      split at written
      next place found =>
        split at found
        next middle followed =>
          split at found
          next allowed =>
            obtain rfl := Except.ok.inj found
            obtain ⟨around, named⟩ := Bool.and_eq_true_iff.mp allowed
            exact ⟨middle, ⟨by simpa using valid, followed, around, named⟩, written⟩
          next => cases found
        next => cases found
      next => cases written
  · rintro ⟨place, ⟨valid, followed, around, named⟩, planted⟩
    simp [writeFile, valid, reversed, site, followed, around, named, planted]

variable (stays : Path.stays file = false) (rises : Path.rises file = false)
include stays rises

theorem fileAt?_eq_some : disk.fileAt? path = some contents ↔
    ∃ place, disk.Around path front file place ∧
      disk.tree.view (place ++ [file]) = some (some contents) := by
  have nonempty : path.isEmpty = false := by
    rw [Bool.eq_false_iff, ne_eq, String.isEmpty_iff]
    rintro rfl
    have last : file = "" := by
      have parts : front ++ [file] = [] ++ [""] := divided.symm
      exact (List.cons.inj (List.append_inj' parts rfl).2).1
    rw [last] at stays
    cases stays
  constructor
  · intro present
    obtain ⟨inner, isFile, rfl⟩ := Option.bind_eq_some_iff.mp present
    simp only [find?, nonempty, Bool.false_or, Bool.not_eq_true'] at isFile
    split at isFile
    · cases isFile
    next valid =>
      split at isFile
      next there went =>
        rw [divided, follow_append_eq_ok] at went
        obtain ⟨place, followed, last⟩ := went
        obtain ⟨around, named, rfl, -⟩ := (follow_name stays rises).mp last
        exact ⟨place, ⟨by simpa using valid, followed, around, named⟩, isFile⟩
      · cases isFile
  · rintro ⟨place, ⟨valid, followed, around, named⟩, present⟩
    have visible : (disk.tree.view (place ++ [file])).isSome = true := by rw [present]; rfl
    have went : disk.follow (disk.origin path) (Path.parts path) = .ok (place ++ [file]) := by
      rw [divided, follow_append_eq_ok]
      exact ⟨place, followed, (follow_name stays rises).mpr ⟨around, named, rfl, visible⟩⟩
    simp [fileAt?, find?, nonempty, valid, went, present]

/-- A file that takes the place of itself. -/
theorem writeFile_same (present : disk.fileAt? path = some contents) :
    disk.writeFile path contents = some disk := by
  obtain ⟨place, around, isFile⟩ := (fileAt?_eq_some divided stays rises).mp present
  refine (writeFile_eq_some divided).mpr ⟨place, around, plant_eq_some.mpr ⟨?_, rfl, ?_⟩⟩
  · simp [FileTree.isFolderAt, isFile]
  · refine FileTree.plant_same ?_ (by simp)
    obtain ⟨child, found, shape⟩ := Option.map_eq_some_iff.mp isFile
    cases child with
    | folder children => cases shape
    | file old =>
      obtain rfl := Option.some.inj shape
      exact found

theorem fileAt?_of_writeFile (written : disk.writeFile path contents = some after) :
    after.fileAt? path = some contents := by
  obtain ⟨place, ⟨valid, followed, around, named⟩, planted⟩ :=
    (writeFile_eq_some divided).mp written
  obtain ⟨-, home, grown⟩ := plant_eq_some.mp planted
  have origin : after.origin path = disk.origin path := by rw [Disk.origin, home, Disk.origin]
  refine (fileAt?_eq_some divided stays rises).mpr ⟨place, ⟨valid, ?_, ?_, named⟩, ?_⟩
  · rw [origin]
    exact follow_of_plant planted around followed
  · exact FileTree.isFolderAt_iff.mpr (folder_of_plant planted around)
  · rw [FileTree.view_plant grown, if_pos (List.prefix_refl _), List.drop_length]
    rfl

end divided

/-- The folder of a file is there, unless it is the one to work in. -/
theorem contains_of_fileAt? (noSlash : '/' ∉ file.toList) (stays : Path.stays file = false)
    (rises : Path.rises file = false) (nonempty : folder.isEmpty = false)
    (present : disk.fileAt? (Path.join folder file) = some contents) :
    disk.contains folder = true := by
  obtain ⟨front, divided, shape⟩ := Path.parts_join noSlash nonempty
  obtain ⟨more, longer⟩ := Path.exists_join noSlash nonempty
  obtain ⟨place, ⟨valid, followed, around, -⟩, -⟩ :=
    (fileAt?_eq_some divided stays rises).mp present
  rw [longer] at valid followed
  have isValid := Path.isValid_of_append valid
  have origin : disk.origin (folder ++ more) = disk.origin folder := by
    rw [Disk.origin, Path.isAbsolute_append nonempty, Disk.origin]
  rw [origin] at followed
  have went : disk.follow (disk.origin folder) (Path.parts folder) = .ok place := by
    rcases shape with whole | slash
    · rw [whole]
      exact followed
    · rw [slash, follow_append_eq_ok]
      refine ⟨place, followed, ?_⟩
      simp [follow, around, Path.stays]
  simp [Disk.contains, find?, nonempty, isValid, went, FileTree.isFolderAt_iff.mp around]

end Disk

end DagDeploy
