import DagDeploy.Proofs.DescriptorFiles

/-! Making the folder of a new file is all or nothing. A file in the place of a folder around stops
it before anything is made; otherwise exactly the missing folders are made, and asking again makes
none. Only a path that is longer than the system allows is refused with some of its folders made. -/

namespace DagDeploy

namespace Disk

/-- Nothing is there but what was there before, and some new folders. -/
structure Grown (disk after : Disk) : Prop where
  home : after.home = disk.home
  kept : ∀ place, after.tree.view place = disk.tree.view place ∨
    disk.tree.view place = none ∧ after.tree.view place = some none

/-- A file stands in the place of a folder around this one. -/
def Obstructed (disk : Disk) (folder : List String) : Prop :=
  ∃ before rest contents, folder = before ++ rest ∧ rest ≠ [] ∧
    disk.view before = some (some contents)

variable {disk between after : Disk} {path : String} {folder place : List String}

theorem grown_self (disk : Disk) : disk.Grown disk := ⟨rfl, fun _ => .inl rfl⟩

theorem Grown.trans (first : disk.Grown between) (second : between.Grown after) :
    disk.Grown after where
  home := second.home.trans first.home
  kept place := by
    rcases second.kept place with same | ⟨absent, folder⟩
    · rw [same]
      exact first.kept place
    · rcases first.kept place with same | ⟨-, present⟩
      · exact .inr ⟨same ▸ absent, folder⟩
      · rw [absent] at present
        cases present

/-- A folder is made where nothing is, so nothing was below it either. -/
theorem grown_of_makeFolder (made : disk.makeFolder path = .ok after) : disk.Grown after := by
  unfold makeFolder at made
  split at made
  · cases made
  split at made
  next place found =>
    split at made
    next grown absent planted =>
      obtain rfl := Except.ok.inj made
      obtain ⟨-, home, growth⟩ := plant_eq_some.mp planted
      refine ⟨home, fun other => ?_⟩
      rw [FileTree.view_plant growth]
      by_cases below : place <+: other
      · obtain ⟨rest, rfl⟩ := below
        rw [if_pos (List.prefix_append _ _), List.drop_left]
        cases rest with
        | nil => exact .inr ⟨by rwa [List.append_nil], rfl⟩
        | cons name rest =>
          have free : disk.tree.view place ≠ some none := by simp [absent]
          exact .inl (FileTree.view_below free).symm
      · exact .inl (if_neg below)
    · cases made
  · cases made

/-- Where no file was in the way, only new folders have come. -/
theorem Founded.grown (founded : disk.Founded after folder) (clear : disk.Clear folder) :
    disk.Grown after where
  home := founded.home
  kept place := by
    by_cases inside : ∃ around, around <+: folder ∧ place = disk.home ++ around
    · obtain ⟨around, before, rfl⟩ := inside
      have now : after.tree.view (disk.home ++ around) = some none := by
        rw [← founded.home]
        exact founded.folders around before
      cases was : disk.tree.view (disk.home ++ around) with
      | none => exact .inr ⟨rfl, now⟩
      | some inner =>
        cases inner with
        | none => exact .inl now
        | some contents => exact absurd was (clear around before contents)
    · exact .inl (founded.kept place fun around before same => inside ⟨around, before, same⟩)

/-- Nothing stands in the way of a folder that is not there, unless it is in the place of one
around. -/
theorem clear_of_absent (absent : disk.view folder = none) (free : ¬ disk.Obstructed folder) :
    disk.Clear folder := by
  intro around inside contents file
  obtain ⟨rest, rfl⟩ := inside
  by_cases whole : rest = []
  · rw [whole, List.append_nil, file] at absent
    cases absent
  · exact free ⟨around, rest, contents, rfl, whole, file⟩

theorem absent_of_obstructed (blocked : disk.Obstructed folder) : disk.view folder = none := by
  obtain ⟨before, rest, contents, rfl, further, file⟩ := blocked
  cases present : disk.view (before ++ rest) with
  | none => rfl
  | some inner =>
    rw [folders_of_view (by rw [present]; rfl) further] at file
    cases file

/-- Only paths within the limits lead to something. -/
theorem fits_of_find? (plain : Path.IsPlain path) (found : (disk.find? path).isSome) :
    Path.Fits path := by
  simp only [find?, origin_of_isPlain plain] at found
  split at found
  · cases found
  next valid =>
    simp only [plain.isEmpty, Bool.false_or, Bool.not_eq_true', Bool.not_eq_false] at valid
    split at found
    next place followed =>
      have steps : ∀ part ∈ Path.parts path, Path.stays part = false ∧ Path.rises part = false :=
        fun part member => ⟨(plain part member).1, (plain part member).2.1⟩
      obtain ⟨-, named, -⟩ := follow_eq_ok steps followed
      refine ⟨plain.isValid_iff.mp valid, fun part member => ?_⟩
      exact (Path.isName_iff.mp (named part member)).2.2
    · cases found

theorem contains_of_unfit (plain : Path.IsPlain path) (unfit : ¬ Path.Fits path) :
    disk.contains path = false :=
  Bool.eq_false_iff.mpr fun present => unfit (fits_of_find? plain present)

theorem hasFolder_of_unfit (plain : Path.IsPlain path) (unfit : ¬ Path.Fits path) :
    disk.hasFolder path = false := by
  rw [Bool.eq_false_iff]
  intro folder
  obtain ⟨inner, present, -⟩ := Option.any_eq_true _ _ |>.mp folder
  exact unfit (fits_of_find? plain (by rw [present]; rfl))

theorem makeFolder_of_unfit (disk : Disk) (plain : Path.IsPlain path)
    (unfit : ¬ Path.Fits path) : ∃ obstacle, disk.makeFolder path = .error obstacle := by
  cases made : disk.makeFolder path with
  | error obstacle => exact ⟨obstacle, rfl⟩
  | ok after =>
    have divided := (List.dropLast_concat_getLast (Path.parts_ne_nil path)).symm
    exact absurd (fits_of_makeFolder plain divided made) unfit

end Disk

namespace Storing

open Disk

variable {disk : Disk} {path folder : String}

theorem ensureFolder_grows (disk : Disk) (path : String) :
    ∃ after made, (Storage.ensureFolder path : Storing Bool) disk = (after, pure made) ∧
      disk.Grown after := by
  cases made : disk.makeFolder path with
  | ok after => exact ⟨after, true, ensureFolder_of_makes made, grown_of_makeFolder made⟩
  | error obstacle => exact ⟨disk, _, ensureFolder_of_refuses made, grown_self disk⟩

/-- Whether or not a folder can be made, no more than folders come to be. -/
theorem ensureWithin_grows (disk : Disk) (around : List String) (path : String) :
    ∃ after made, (Storage.ensureWithin around path : Storing Bool) disk = (after, pure made) ∧
      disk.Grown after := by
  induction around generalizing disk path with
  | nil => exact ensureFolder_grows disk path
  | cons nearest further ih =>
    cases made : disk.makeFolder path with
    | ok after => exact ⟨after, true, ensureWithin_of_makes _ made, grown_of_makeFolder made⟩
    | error obstacle =>
      cases obstacle with
      | blocked => exact ⟨disk, _, ensureWithin_of_blocked _ made, grown_self disk⟩
      | missing =>
        obtain ⟨between, present, ensured, grown⟩ := ih disk nearest
        have run := ensureWithin_of_missing made ensured
        cases present with
        | false => exact ⟨between, false, run, grown⟩
        | true =>
          obtain ⟨after, last, ran, further⟩ := ensureFolder_grows between path
          exact ⟨after, last, run.trans ran, grown.trans further⟩

section unfit

variable (plain : Path.IsPlain path) (unfit : ¬ Path.Fits path)
include plain unfit

theorem ensureFolder_of_unfit :
    (Storage.ensureFolder path : Storing Bool) disk = (disk, pure false) := by
  obtain ⟨obstacle, refused⟩ := disk.makeFolder_of_unfit plain unfit
  rw [ensureFolder_of_refuses refused, hasFolder_of_unfit plain unfit]

/-- The folders around may be made, but not this one. -/
theorem ensureWithin_of_unfit (around : List String) (disk : Disk) :
    ∃ after, (Storage.ensureWithin around path : Storing Bool) disk = (after, pure false) ∧
      disk.Grown after := by
  cases around with
  | nil => exact ⟨disk, ensureFolder_of_unfit plain unfit, grown_self disk⟩
  | cons nearest further =>
    obtain ⟨obstacle, refused⟩ := disk.makeFolder_of_unfit plain unfit
    cases obstacle with
    | blocked =>
      have run := ensureWithin_of_blocked (nearest :: further) refused
      rw [hasFolder_of_unfit plain unfit] at run
      exact ⟨disk, run, grown_self disk⟩
    | missing =>
      obtain ⟨between, present, ensured, grown⟩ := ensureWithin_grows disk further nearest
      have run := ensureWithin_of_missing refused ensured
      rw [ensureFolder_of_unfit plain unfit, ite_self] at run
      exact ⟨between, run, grown⟩

theorem newFile_of_unfit (file : String) (disk : Disk) :
    ∃ after, (newFile path file : Storing String) disk = (after, .fail (.unwritable path)) ∧
      disk.Grown after := by
  obtain ⟨after, ran, grown⟩ :=
    ensureWithin_of_unfit plain unfit (Path.ancestors path) disk
  have made : (Storage.makeFolders path : Storing Bool) disk = (after, pure false) := by
    simp only [Storage.makeFolders, plain.isEmpty, Bool.false_eq_true, if_false]
    exact ran
  exact ⟨after, newFile_of_absent file (contains_of_unfit plain unfit) made, grown⟩

end unfit

section fit

variable {file : String} (plain : Path.IsPlain folder) (fits : Path.Fits folder)
include plain fits

theorem newFile_of_taken (present : (disk.view (Path.parts folder)).isSome) :
    (newFile folder file : Storing String) disk
      = (disk, pure (Path.join folder (file ++ ".yaml"))) := by
  apply newFile_of_present
  rw [contains_eq plain fits, present]

theorem newFile_of_obstructed (blocked : disk.Obstructed (Path.parts folder)) :
    (newFile folder file : Storing String) disk = (disk, .fail (.unwritable folder)) := by
  have absent : disk.contains folder = false := by
    rw [contains_eq plain fits, absent_of_obstructed blocked]
    rfl
  obtain ⟨before, rest, contents, divided, further, obstacle⟩ := blocked
  exact newFile_of_absent file absent
    (makeFolders_of_blocked plain fits divided further obstacle)

theorem newFile_of_free (file : String) (absent : disk.view (Path.parts folder) = none)
    (free : ¬ disk.Obstructed (Path.parts folder)) :
    ∃ after, (newFile folder file : Storing String) disk
        = (after, ⟨[.createdFolder folder], .ok (Path.join folder (file ++ ".yaml"))⟩) ∧
      disk.Founded after (Path.parts folder) ∧ disk.Grown after := by
  have clear := clear_of_absent absent free
  obtain ⟨after, made, founded⟩ := makeFolders_of_clear plain fits clear
  have missing : disk.contains folder = false := by
    rw [contains_eq plain fits, absent]
    rfl
  exact ⟨after, newFile_of_absent file missing made, founded, founded.grown clear⟩

end fit

end Storing

/-- How asking for the path of a new file ends. -/
inductive Asked (disk : Disk) (folder path : String) : Disk × Logged String → Prop where
  | overlong {after : Disk} (unfit : ¬ Path.Fits folder) (grown : disk.Grown after) :
    Asked disk folder path (after, .fail (.unwritable folder))
  | obstructed (fits : Path.Fits folder) (blocked : disk.Obstructed (Path.parts folder)) :
    Asked disk folder path (disk, .fail (.unwritable folder))
  | there (fits : Path.Fits folder) (present : (disk.view (Path.parts folder)).isSome) :
    Asked disk folder path (disk, pure path)
  | made {after : Disk} (fits : Path.Fits folder) (absent : disk.view (Path.parts folder) = none)
    (free : ¬ disk.Obstructed (Path.parts folder))
    (founded : disk.Founded after (Path.parts folder)) (grown : disk.Grown after) :
    Asked disk folder path (after, ⟨[.createdFolder folder], .ok path⟩)

theorem newFile_asked {folder : String} (plain : Path.IsPlain folder) (file : String)
    (disk : Disk) : Asked disk folder (Path.join folder (file ++ ".yaml"))
      ((newFile folder file : Storing String) disk) := by
  by_cases fits : Path.Fits folder
  case neg =>
    obtain ⟨after, ran, grown⟩ := Storing.newFile_of_unfit plain fits file disk
    rw [ran]
    exact .overlong fits grown
  cases present : disk.view (Path.parts folder) with
  | some inner =>
    have there : (disk.view (Path.parts folder)).isSome := by rw [present]; rfl
    rw [Storing.newFile_of_taken plain fits there]
    exact .there fits there
  | none =>
    by_cases blocked : disk.Obstructed (Path.parts folder)
    · rw [Storing.newFile_of_obstructed plain fits blocked]
      exact .obstructed fits blocked
    · obtain ⟨after, ran, founded, grown⟩ :=
        Storing.newFile_of_free plain fits file present blocked
      rw [ran]
      exact .made fits present blocked founded grown

namespace Asked

variable {disk : Disk} {folder path result : String} {failure : Failure}
  {effect : Disk × Logged String} (asked : Asked disk folder path effect)
include asked

theorem fails_iff : (∃ failure, effect.2.outcome = .error failure) ↔
    ¬ Path.Fits folder ∨ disk.Obstructed (Path.parts folder) := by
  cases asked with
  | overlong unfit => exact ⟨fun _ => .inl unfit, fun _ => ⟨_, rfl⟩⟩
  | obstructed fits blocked => exact ⟨fun _ => .inr blocked, fun _ => ⟨_, rfl⟩⟩
  | there fits present =>
    have free : ¬ disk.Obstructed (Path.parts folder) := by
      intro blocked
      rw [Disk.absent_of_obstructed blocked] at present
      cases present
    refine ⟨fun ⟨failure, stopped⟩ => ?_, fun reason => (reason.elim (absurd fits) free).elim⟩
    cases stopped
  | made fits absent free =>
    refine ⟨fun ⟨failure, stopped⟩ => ?_, fun reason => (reason.elim (absurd fits) free).elim⟩
    cases stopped

theorem failed (stopped : effect.2.outcome = .error failure) :
    failure = .unwritable folder ∧ effect.2.lines = [] ∧ disk.Grown effect.1 ∧
      (Path.Fits folder → effect.1 = disk) := by
  cases asked with
  | overlong unfit grown =>
    cases stopped
    exact ⟨rfl, rfl, grown, fun fits => absurd fits unfit⟩
  | obstructed =>
    cases stopped
    exact ⟨rfl, rfl, Disk.grown_self disk, fun _ => rfl⟩
  | there | made => cases stopped

theorem untouched (fits : Path.Fits folder) (present : (disk.view (Path.parts folder)).isSome) :
    effect = (disk, pure path) := by
  cases asked with
  | overlong unfit => exact absurd fits unfit
  | obstructed _ blocked =>
    rw [Disk.absent_of_obstructed blocked] at present
    cases present
  | there => rfl
  | made _ absent =>
    rw [absent] at present
    cases present

theorem created (fits : Path.Fits folder) (absent : disk.view (Path.parts folder) = none)
    (free : ¬ disk.Obstructed (Path.parts folder)) :
    effect.2 = ⟨[.createdFolder folder], .ok path⟩ ∧
      disk.Founded effect.1 (Path.parts folder) ∧ disk.Grown effect.1 := by
  cases asked with
  | overlong unfit => exact absurd fits unfit
  | obstructed _ blocked => exact absurd blocked free
  | there _ present =>
    rw [absent] at present
    cases present
  | made _ _ _ founded grown => exact ⟨rfl, founded, grown⟩

theorem there_after (named : effect.2.outcome = .ok result) :
    result = path ∧ Path.Fits folder ∧ (effect.1.view (Path.parts folder)).isSome := by
  cases asked with
  | overlong | obstructed => cases named
  | there fits present =>
    cases named
    exact ⟨rfl, fits, present⟩
  | made fits _ _ founded =>
    cases named
    exact ⟨rfl, fits, by rw [founded.folders _ (List.prefix_refl _)]; rfl⟩

end Asked

/-- What asking for the path of a new file does to a disk, for a folder that is a path of plain
names: nothing where the folder is there or a file is in the way, or else the folder is made, and
then a second time changes nothing. -/
theorem newFile_effect {folder : String} (plain : Path.IsPlain folder) (file : String)
    (disk : Disk) :
    let effect := (newFile folder file : Storing String) disk
    let path := Path.join folder (file ++ ".yaml")
    ((∃ failure, effect.2.outcome = .error failure) ↔
      ¬ Path.Fits folder ∨ disk.Obstructed (Path.parts folder)) ∧
    (∀ failure, effect.2.outcome = .error failure →
      failure = .unwritable folder ∧ effect.2.lines = [] ∧ disk.Grown effect.1 ∧
        (Path.Fits folder → effect.1 = disk)) ∧
    (Path.Fits folder → (disk.view (Path.parts folder)).isSome → effect = (disk, pure path)) ∧
    (Path.Fits folder → disk.view (Path.parts folder) = none →
      ¬ disk.Obstructed (Path.parts folder) →
        effect.2 = ⟨[.createdFolder folder], .ok path⟩ ∧
          disk.Founded effect.1 (Path.parts folder) ∧ disk.Grown effect.1) ∧
    ∀ result, effect.2.outcome = .ok result → result = path ∧
      (newFile folder file : Storing String) effect.1 = (effect.1, pure path) := by
  intro effect path
  have asked : Asked disk folder path effect := newFile_asked plain file disk
  refine ⟨asked.fails_iff, fun _ => asked.failed, asked.untouched, asked.created, ?_⟩
  intro result named
  obtain ⟨same, fits, present⟩ := asked.there_after named
  exact ⟨same, Storing.newFile_of_taken plain fits present⟩

/-- Two folders are made, and then the path is only named. -/
theorem newFile_effect_nested : Path.IsPlain "nested/out" ∧ Path.Fits "nested/out" ∧
    ∃ after, (newFile "nested/out" "dag3" : Storing String) (Disk.around [])
        = (after, ⟨[.createdFolder "nested/out"], .ok "nested/out/dag3.yaml"⟩) ∧
      after.view ["nested"] = some none ∧ after.view ["nested", "out"] = some none ∧
      (newFile "nested/out" "dag3" : Storing String) after
        = (after, pure "nested/out/dag3.yaml") := by
  have plain : Path.IsPlain "nested/out" := by
    unfold Path.IsPlain
    decide
  have fits : Path.Fits "nested/out" := ⟨by decide, by decide⟩
  have free : ¬ (Disk.around []).Obstructed (Path.parts "nested/out") := by
    intro ⟨before, rest, contents, divided, further, file⟩
    cases before <;> cases file
  have joined : Path.join "nested/out" ("dag3" ++ ".yaml") = "nested/out/dag3.yaml" := by decide
  obtain ⟨-, -, -, made, again⟩ := newFile_effect plain "dag3" (Disk.around [])
  obtain ⟨named, founded, -⟩ := made fits rfl free
  have once := (again _ (by rw [named])).2
  rw [joined] at named once
  refine ⟨plain, fits, _, Prod.ext rfl named, ?_, ?_, once⟩
  · exact founded.folders ["nested"] (by decide)
  · exact founded.folders ["nested", "out"] (by decide)

theorem unfit_of_longName {path : String} (member : Deployment.longName 256 ∈ Path.parts path) :
    ¬ Path.Fits path := by
  intro fits
  have short : (Deployment.longName 256).utf8ByteSize ≤ Path.longestName := fits.names _ member
  exact absurd short (by decide +kernel)

/-- A folder whose name is too long is not made, but the folder around it is. -/
theorem newFile_unfit_nested {path name : String} (plain : Path.IsPlain path)
    (divided : Path.parts path = ["b"] ++ [name]) (whole : path.utf8ByteSize ≤ Path.longestPath)
    (unfit : ¬ Path.Fits path) : ∃ after,
      (newFile path "dag0" : Storing String) (Disk.around []) = (after, .fail (.unwritable path)) ∧
        after.view ["b"] = some none := by
  have refused : (Disk.around []).makeFolder path = .error .missing := by
    have valid : Path.isValid path = true := plain.isValid_iff.mpr whole
    simp only [Disk.makeFolder, valid, Disk.origin_of_isPlain plain,
      Disk.parts_reverse plain divided, Bool.not_true, Bool.false_eq_true, if_false]
    rfl
  have ancestors : Path.ancestors path = ["b"] := by
    have moves : Path.stays name = false := (plain name (by simp [divided])).1
    have reversed : (Path.parts path).reverse = [name, "b"] := by rw [divided]; rfl
    simp only [Path.ancestors, reversed, Path.ascending, moves, Bool.false_eq_true, if_false]
    rfl
  obtain ⟨after, ensured, made⟩ : ∃ after,
      (Storage.ensureWithin [] "b" : Storing Bool) (Disk.around []) = (after, pure true) ∧
        after.view ["b"] = some none := ⟨_, rfl, rfl⟩
  have run := Storing.ensureWithin_of_missing refused ensured
  rw [Storing.ensureFolder_of_unfit plain unfit, ite_self] at run
  have stopped : (Storage.makeFolders path : Storing Bool) (Disk.around []) = (after, pure false) := by
    simp only [Storage.makeFolders, plain.isEmpty, Bool.false_eq_true, if_false, ancestors]
    exact run
  exact ⟨after, Storing.newFile_of_absent "dag0" (Disk.contains_of_unfit plain unfit) stopped, made⟩

/-- Nothing is in the way, and still the folder cannot be made, because its name is too long. The
folder around it is made all the same. -/
theorem newFile_longName : Path.IsPlain (Deployment.longName 256) ∧
    (Disk.around []).view (Path.parts (Deployment.longName 256)) = none ∧
    ¬ (Disk.around []).Obstructed (Path.parts (Deployment.longName 256)) ∧
    ((newFile (Deployment.longName 256) "dag0" : Storing String) (Disk.around [])).2.outcome
      = .error (.unwritable (Deployment.longName 256)) ∧
    ((newFile (Path.within "b" (Deployment.longName 256)) "dag0" : Storing String)
      (Disk.around [])).2.outcome
        = .error (.unwritable (Path.within "b" (Deployment.longName 256))) ∧
    ((newFile (Path.within "b" (Deployment.longName 256)) "dag0" : Storing String)
      (Disk.around [])).1.view ["b"] = some none := by
  have plain : Path.IsPlain (Deployment.longName 256) := Deployment.plain_longName (by decide)
  have plainAround : Path.IsPlain "b" := by
    unfold Path.IsPlain
    decide
  have parts := Deployment.parts_longName 256
  have unfit := unfit_of_longName (parts ▸ List.mem_singleton.mpr rfl)
  obtain ⟨alone, stopped, -⟩ := Storing.newFile_of_unfit plain unfit "dag0" (Disk.around [])
  have divided : Path.parts (Path.within "b" (Deployment.longName 256))
      = ["b"] ++ [Deployment.longName 256] := by
    rw [Path.parts_within, parts]
    rfl
  have member : Deployment.longName 256
      ∈ Path.parts (Path.within "b" (Deployment.longName 256)) := by
    rw [divided]
    exact List.mem_append_right _ (List.mem_singleton.mpr rfl)
  obtain ⟨after, stoppedToo, made⟩ := newFile_unfit_nested
    (Path.isPlain_within plainAround plain) divided (by decide +kernel) (unfit_of_longName member)
  refine ⟨plain, ?_, ?_, ?_, ?_, ?_⟩
  · rw [parts]
    rfl
  · intro ⟨before, rest, contents, divided, further, file⟩
    cases before <;> cases file
  · rw [stopped]
    rfl
  · rw [stoppedToo]
    rfl
  · rw [stoppedToo]
    exact made

end DagDeploy
