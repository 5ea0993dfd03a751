import DagDeploy.Proofs.Places

/-! What the requests to a disk do with a path of plain names, told by what stands around the place
that it names. A request that is refused changes nothing, one that is granted changes this place. -/

namespace DagDeploy.Disk

/-- The place in the folder to work in holds something else now, and all other places are as
before. -/
structure Changed (disk after : Disk) (place : List String) (now : Option ByteArray) : Prop where
  home : after.home = disk.home
  view : ∀ other, after.tree.view other
    = if other = disk.home ++ place then some now else disk.tree.view other

variable {disk after : Disk} {path : String} {front place : List String} {name : String}
  {contents : ByteArray}

theorem view_nil : disk.view [] = some none := by
  rw [Disk.view, List.append_nil]
  exact FileTree.isFolderAt_iff.mp disk.home_isFolder

theorem Changed.here {now : Option ByteArray} (changed : disk.Changed after place now) :
    after.view place = some now := by
  rw [Disk.view, changed.home, changed.view, if_pos rfl]

theorem Changed.elsewhere {now : Option ByteArray} (changed : disk.Changed after place now)
    {other : List String} (different : other ≠ place) : after.view other = disk.view other := by
  have apart : disk.home ++ other ≠ disk.home ++ place := fun same =>
    different (List.append_cancel_left same)
  rw [Disk.view, changed.home, changed.view, if_neg apart, Disk.view]

/-- What is put somewhere has nothing below it, and neither had what was there before. -/
theorem changed_of_plant {child : FileTree} (bare : ∀ name rest, child.view (name :: rest) = none)
    (planted : disk.plant child (disk.home ++ place) = some after) :
    ∃ now, child.view [] = some now ∧ disk.Changed after place now := by
  obtain ⟨free, sameHome, grown⟩ := plant_eq_some.mp planted
  refine ⟨child.contents?, rfl, sameHome, fun other => ?_⟩
  rw [FileTree.view_plant grown]
  by_cases below : disk.home ++ place <+: other
  · obtain ⟨rest, rfl⟩ := below
    rw [if_pos (List.prefix_append _ _), List.drop_left]
    cases rest with
    | nil => rw [List.append_nil, if_pos rfl]; rfl
    | cons name rest =>
      have notFolder : disk.tree.view (disk.home ++ place) ≠ some none := fun folder =>
        absurd (FileTree.isFolderAt_iff.mpr folder) (by simp [free])
      rw [bare, if_neg (by simp), FileTree.view_below notFolder]
  · have different : other ≠ disk.home ++ place := fun same =>
      below (same ▸ List.prefix_refl _)
    rw [if_neg below, if_neg different]

theorem plant_of_free (child : FileTree) (around : disk.view front = some none)
    (free : disk.view (front ++ [name]) ≠ some none) :
    ∃ after, disk.plant child (disk.home ++ (front ++ [name])) = some after := by
  have folder := FileTree.isFolderAt_iff.mpr around
  obtain ⟨grown, planted⟩ := FileTree.exists_plant child folder name
  rw [List.append_assoc] at planted
  unfold plant
  split
  next taken => exact absurd (FileTree.isFolderAt_iff.mp taken) free
  next =>
    split
    next refused => rw [planted] at refused; cases refused
    next => exact ⟨_, rfl⟩

section plain

variable (plain : Path.IsPlain path) (fits : Path.Fits path)
include plain

theorem origin_of_isPlain : disk.origin path = disk.home := by
  simp [origin, plain.isAbsolute]

include fits

theorem find?_of_isPlain : disk.find? path = disk.view (Path.parts path) := by
  have named := plain.isName fits
  simp only [find?, plain.isEmpty, plain.isValid fits, origin_of_isPlain plain, Bool.not_true,
    Bool.or_self, Bool.false_eq_true, if_false]
  cases present : disk.view (Path.parts path) with
  | some inner =>
    have visible : (disk.tree.view (disk.home ++ Path.parts path)).isSome := by
      rw [← Disk.view, present]
      rfl
    rw [follow_of_present named visible]
    exact present
  | none =>
    cases followed : disk.follow disk.home (Path.parts path) with
    | error obstacle => rfl
    | ok found =>
      obtain ⟨rfl, -⟩ := follow_eq_ok
        (fun part member => ⟨(plain part member).1, (plain part member).2.1⟩) followed
      exact present

end plain

section divided

variable (plain : Path.IsPlain path) (fits : Path.Fits path)
  (divided : Path.parts path = front ++ [name])
include plain divided

theorem parts_reverse :
    (Path.parts path).reverse.dropWhile String.isEmpty = name :: front.reverse := by
  have nonempty : name.isEmpty = false := by
    have stays := (plain name (by simp [divided])).1
    simp only [Path.stays, Bool.or_eq_false_iff] at stays
    exact stays.1
  simp [divided, nonempty]

include fits

theorem named_front : (∀ part ∈ front, Path.isName part = true) ∧ Path.isName name = true := by
  have named := plain.isName fits
  rw [divided] at named
  exact ⟨fun part member => named part (List.mem_append_left _ member),
    named name (List.mem_append_right _ (List.mem_singleton.mpr rfl))⟩

theorem site_of_folder (around : disk.view front = some none) :
    disk.site disk.home (name :: front.reverse) = .ok (disk.home ++ (front ++ [name])) := by
  obtain ⟨namedFront, named⟩ := named_front plain fits divided
  have followed : disk.follow disk.home front = .ok (disk.home ++ front) :=
    follow_of_present namedFront (by rw [← Disk.view, around]; rfl)
  have folder : disk.tree.isFolderAt (disk.home ++ front) := FileTree.isFolderAt_iff.mpr around
  simp [site, followed, folder, named]

theorem site_of_missing
    (clear : ∀ before, before <+: front → ∀ contents, disk.view before ≠ some (some contents))
    (absent : disk.view front = none) :
    disk.site disk.home (name :: front.reverse) = .error .missing := by
  obtain ⟨namedFront, -⟩ := named_front plain fits divided
  have followed := follow_of_missing namedFront disk.home_isFolder clear absent
  simp [site, followed]

theorem site_of_blocked {before : List String} (inside : before <+: front)
    (file : disk.view before = some (some contents)) :
    disk.site disk.home (name :: front.reverse) = .error .blocked := by
  obtain ⟨namedFront, -⟩ := named_front plain fits divided
  obtain ⟨rest, rfl⟩ := inside
  have namedBefore : ∀ part ∈ before, Path.isName part = true :=
    fun part member => namedFront part (List.mem_append_left _ member)
  cases rest with
  | nil =>
    have followed : disk.follow disk.home before = .ok (disk.home ++ before) :=
      follow_of_present namedBefore (by rw [← Disk.view, file]; rfl)
    have notFolder : disk.tree.isFolderAt (disk.home ++ before) = false := by
      rw [Bool.eq_false_iff, ne_eq, FileTree.isFolderAt_iff, ← Disk.view, file]
      simp
    simp [site, followed, notFolder]
  | cons next further =>
    have followed : disk.follow disk.home (before ++ next :: further) = .error .blocked :=
      follow_of_blocked namedBefore file
    simp [site, followed]

/-- A folder is made where nothing is, in a folder. -/
theorem makeFolder_of_free (around : disk.view front = some none)
    (free : disk.view (front ++ [name]) = none) :
    ∃ after, disk.makeFolder path = .ok after ∧ disk.Changed after (front ++ [name]) none := by
  obtain ⟨after, planted⟩ := plant_of_free .empty around (by rw [free]; simp)
  obtain ⟨now, isFolder, changed⟩ := changed_of_plant (fun _ _ => rfl) planted
  cases isFolder
  have absent : disk.tree.view (disk.home ++ (front ++ [name])) = none := free
  refine ⟨after, ?_, changed⟩
  simp [makeFolder, plain.isValid fits, origin_of_isPlain plain, parts_reverse plain divided,
    site_of_folder plain fits divided around, absent, planted]

theorem makeFolder_of_taken (around : disk.view front = some none)
    (taken : (disk.view (front ++ [name])).isSome) : disk.makeFolder path = .error .blocked := by
  obtain ⟨inner, present⟩ := Option.isSome_iff_exists.mp taken
  have present : disk.tree.view (disk.home ++ (front ++ [name])) = some inner := present
  simp [makeFolder, plain.isValid fits, origin_of_isPlain plain, parts_reverse plain divided,
    site_of_folder plain fits divided around, present]

theorem makeFolder_of_missing
    (clear : ∀ before, before <+: front → ∀ contents, disk.view before ≠ some (some contents))
    (absent : disk.view front = none) : disk.makeFolder path = .error .missing := by
  simp [makeFolder, plain.isValid fits, origin_of_isPlain plain, parts_reverse plain divided,
    site_of_missing plain fits divided clear absent]

theorem makeFolder_of_blocked {before : List String} (inside : before <+: front)
    (file : disk.view before = some (some contents)) : disk.makeFolder path = .error .blocked := by
  simp [makeFolder, plain.isValid fits, origin_of_isPlain plain, parts_reverse plain divided,
    site_of_blocked plain fits divided inside file]

theorem writeFile_of_free (around : disk.view front = some none)
    (free : disk.view (front ++ [name]) ≠ some none) (contents : ByteArray) :
    ∃ after, disk.writeFile path contents = some after ∧
      disk.Changed after (front ++ [name]) (some contents) := by
  obtain ⟨after, planted⟩ := plant_of_free (.file contents) around free
  obtain ⟨now, isFile, changed⟩ := changed_of_plant (fun _ _ => rfl) planted
  cases isFile
  refine ⟨after, ?_, changed⟩
  simp [writeFile, plain.isValid fits, origin_of_isPlain plain, divided,
    site_of_folder plain fits divided around, planted]

theorem writeFile_of_taken (around : disk.view front = some none)
    (taken : disk.view (front ++ [name]) = some none) (contents : ByteArray) :
    disk.writeFile path contents = none := by
  have folder : disk.tree.isFolderAt (disk.home ++ (front ++ [name])) :=
    FileTree.isFolderAt_iff.mpr taken
  simp [writeFile, plain.isValid fits, origin_of_isPlain plain, divided,
    site_of_folder plain fits divided around, plant, folder]

theorem writeFile_of_blocked {before : List String} {old : ByteArray} (inside : before <+: front)
    (file : disk.view before = some (some old)) (contents : ByteArray) :
    disk.writeFile path contents = none := by
  simp [writeFile, plain.isValid fits, origin_of_isPlain plain, divided,
    site_of_blocked plain fits divided inside file]

omit fits

/-- A path leads to a site only by names that are short enough. -/
theorem short_of_site {origin : List String}
    (found : disk.site origin (name :: front.reverse) = .ok place) :
    ∀ part ∈ Path.parts path, part.utf8ByteSize ≤ Path.longestName := by
  simp only [site, List.reverse_reverse] at found
  split at found
  next around followed =>
    split at found
    next folder =>
      have steps : ∀ part ∈ front, Path.stays part = false ∧ Path.rises part = false := by
        intro part inside
        have names := plain part (by rw [divided]; exact List.mem_append_left _ inside)
        exact ⟨names.1, names.2.1⟩
      obtain ⟨-, named, -⟩ := follow_eq_ok steps followed
      intro part member
      rw [divided] at member
      rcases List.mem_append.mp member with inside | last
      · exact (Path.isName_iff.mp (named part inside)).2.2
      · obtain rfl := List.mem_singleton.mp last
        have isName : Path.isName part = true := by
          simp only [Bool.and_eq_true] at folder
          exact folder.2
        exact (Path.isName_iff.mp isName).2.2
    · cases found
  · cases found

/-- A file that was written is within the limits. -/
theorem fits_of_writeFile (written : disk.writeFile path contents = some after) :
    Path.Fits path := by
  unfold writeFile at written
  split at written
  · cases written
  next valid =>
    split at written
    next place found =>
      rw [divided, List.reverse_append, List.reverse_singleton, List.singleton_append] at found
      exact ⟨plain.isValid_iff.mp (by simpa using valid), short_of_site plain divided found⟩
    · cases written

/-- So is a folder that was made. -/
theorem fits_of_makeFolder (made : disk.makeFolder path = .ok after) : Path.Fits path := by
  unfold makeFolder at made
  split at made
  · cases made
  next valid =>
    split at made
    next place found =>
      rw [parts_reverse plain divided] at found
      exact ⟨plain.isValid_iff.mp (by simpa using valid), short_of_site plain divided found⟩
    · cases made

end divided

end DagDeploy.Disk
