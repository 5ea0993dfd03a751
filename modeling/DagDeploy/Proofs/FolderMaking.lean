import DagDeploy.Disk.Storing
import DagDeploy.Output
import DagDeploy.Proofs.DiskSteps

/-! Making a folder with those around it that are missing. On a path of plain names this succeeds
unless a file stands in the way, and then it changes nothing at all. -/

namespace DagDeploy

namespace Storing

variable {α β : Type} {first : Storing α} {next : α → Storing β} {disk between : Disk}
  {lines : List LogLine} {value : α} {failure : Failure}

theorem bind_of_ok (ran : first disk = (between, ⟨lines, .ok value⟩)) :
    (first >>= next) disk = ((next value between).1,
      ⟨lines ++ (next value between).2.lines, (next value between).2.outcome⟩) := by
  simp only [Bind.bind, bind, ran]

/-- A step without lines hands over to the next one. -/
theorem bind_of_pure (ran : first disk = (between, pure value)) :
    (first >>= next) disk = next value between := bind_of_ok ran

theorem bind_of_error (ran : first disk = (between, ⟨lines, .error failure⟩)) :
    (first >>= next) disk = (between, ⟨lines, .error failure⟩) := by
  simp only [Bind.bind, bind, ran]

theorem pure_run (value : α) : (pure value : Storing α) disk = (disk, pure value) := rfl

/-- Both steps succeed when the whole does. -/
theorem outcome_bind_eq_ok {result : β} : ((first >>= next) disk).2.outcome = .ok result ↔
    ∃ value, (first disk).2.outcome = .ok value ∧
      (next value (first disk).1).2.outcome = .ok result := by
  rcases ran : first disk with ⟨between, lines, outcome⟩
  cases outcome with
  | error failure => simp [bind_of_error ran]
  | ok value => simp [bind_of_ok ran]

theorem outcome_bind_eq_error : ((first >>= next) disk).2.outcome = .error failure ↔
    (first disk).2.outcome = .error failure ∨ ∃ value, (first disk).2.outcome = .ok value ∧
      (next value (first disk).1).2.outcome = .error failure := by
  rcases ran : first disk with ⟨between, lines, outcome⟩
  cases outcome with
  | error failure => simp [bind_of_error ran]
  | ok value => simp [bind_of_ok ran]

theorem makeFolder_of_ok {path : String} (made : disk.makeFolder path = .ok between) :
    (Storage.makeFolder path : Storing _) disk = (between, pure (.ok ())) := by
  simp only [Storage.makeFolder, makeFolder, made]

theorem makeFolder_of_error {path : String} {obstacle : Obstacle}
    (refused : disk.makeFolder path = .error obstacle) :
    (Storage.makeFolder path : Storing _) disk = (disk, pure (.error obstacle)) := by
  simp only [Storage.makeFolder, makeFolder, refused]

theorem contains_run (path : String) :
    (Storage.contains path : Storing _) disk = (disk, pure (disk.contains path)) := rfl

theorem writeFile_of_some {path : String} {contents : ByteArray}
    (written : disk.writeFile path contents = some between) :
    (Storage.writeFile path contents : Storing _) disk = (between, pure true) := by
  simp only [Storage.writeFile, writeFile, written]

theorem writeFile_of_none {path : String} {contents : ByteArray}
    (refused : disk.writeFile path contents = none) :
    (Storage.writeFile path contents : Storing _) disk = (disk, pure false) := by
  simp only [Storage.writeFile, writeFile, refused]

theorem require_of_true {request : Storing Bool} (ran : request disk = (between, pure true)) :
    (Storage.require request failure) disk = (between, pure ()) := bind_of_pure ran

theorem require_of_false {request : Storing Bool} (ran : request disk = (between, pure false)) :
    (Storage.require request failure) disk = (between, .fail failure) := bind_of_pure ran

end Storing

namespace Disk

/-- The folder is there with all folders around it, and every other place is as before. -/
structure Founded (disk after : Disk) (folder : List String) : Prop where
  home : after.home = disk.home
  folders : ∀ around, around <+: folder → after.view around = some none
  kept : ∀ place, (∀ around, around <+: folder → place ≠ disk.home ++ around) →
    after.tree.view place = disk.tree.view place

/-- No file stands in the place of the folder or of one around it. -/
def Clear (disk : Disk) (folder : List String) : Prop :=
  ∀ around, around <+: folder → ∀ contents, disk.view around ≠ some (some contents)

variable {disk after : Disk} {path folder : String} {front : List String} {name : String}

theorem Clear.before {rest : List String} (clear : disk.Clear (front ++ rest)) :
    disk.Clear front := fun around inside =>
  clear around (inside.trans (List.prefix_append _ _))

/-- A folder that is there has only folders around it. -/
theorem folders_of_view {rest : List String} (present : (disk.view (front ++ rest)).isSome)
    (further : rest ≠ []) : disk.view front = some none := by
  cases rest with
  | nil => exact absurd rfl further
  | cons name rest =>
    rw [Disk.view, ← List.append_assoc] at present
    exact FileTree.isFolderAt_iff.mp (FileTree.isFolderAt_of_view present)

theorem not_concat_prefix (front : List String) (name : String) : ¬ front ++ [name] <+: front := by
  intro inside
  have longer := inside.length_le
  rw [List.length_append, List.length_singleton] at longer
  omega

theorem founded_self (present : disk.view front = some none) : disk.Founded disk front where
  home := rfl
  folders around inside := by
    obtain ⟨rest, rfl⟩ := inside
    cases rest with
    | nil => rwa [List.append_nil] at present
    | cons name rest =>
      exact folders_of_view (by rw [present]; rfl) (List.cons_ne_nil name rest)
  kept _ _ := rfl

theorem Founded.beyond (founded : disk.Founded after front) (name : String)
    (rest : List String) :
    after.view (front ++ name :: rest) = disk.view (front ++ name :: rest) := by
  rw [Disk.view, founded.home]
  apply founded.kept
  intro around inside same
  have shorter := inside.length_le
  rw [← List.append_cancel_left same, List.length_append, List.length_cons] at shorter
  omega

/-- One more folder in a folder that is there. -/
theorem Founded.extend {between : Disk} (founded : disk.Founded between front)
    (changed : between.Changed after (front ++ [name]) none) :
    disk.Founded after (front ++ [name]) where
  home := changed.home.trans founded.home
  folders around inside := by
    rcases List.prefix_concat_iff.mp inside with rfl | before
    · exact changed.here
    · have different : around ≠ front ++ [name] := by
        rintro rfl
        exact not_concat_prefix front name before
      rw [changed.elsewhere different]
      exact founded.folders around before
  kept place outside := by
    have apart : place ≠ between.home ++ (front ++ [name]) :=
      founded.home ▸ outside _ (List.prefix_refl _)
    rw [changed.view, if_neg apart]
    exact founded.kept place fun around before =>
      outside around (before.trans (List.prefix_append _ _))

end Disk

namespace Storing

open Disk

variable {disk : Disk} {path folder : String} {front : List String} {name : String}

theorem ensureFolder_of_makes {after : Disk} (made : disk.makeFolder path = .ok after) :
    (Storage.ensureFolder path : Storing Bool) disk = (after, pure true) :=
  bind_of_pure (makeFolder_of_ok made)

theorem ensureFolder_of_refuses {obstacle : Obstacle}
    (refused : disk.makeFolder path = .error obstacle) :
    (Storage.ensureFolder path : Storing Bool) disk = (disk, pure (disk.hasFolder path)) :=
  bind_of_pure (makeFolder_of_error refused)

theorem ensureWithin_of_makes {after : Disk} (around : List String)
    (made : disk.makeFolder path = .ok after) :
    (Storage.ensureWithin around path : Storing Bool) disk = (after, pure true) := by
  cases around with
  | nil => exact ensureFolder_of_makes made
  | cons nearest further => exact bind_of_pure (makeFolder_of_ok made)

theorem ensureWithin_of_blocked (around : List String)
    (refused : disk.makeFolder path = .error .blocked) :
    (Storage.ensureWithin around path : Storing Bool) disk
      = (disk, pure (disk.hasFolder path)) := by
  cases around with
  | nil => exact ensureFolder_of_refuses refused
  | cons nearest further => exact bind_of_pure (makeFolder_of_error refused)

/-- The folders around come first when one of them is missing. -/
theorem ensureWithin_of_missing {between : Disk} {nearest : String} {further : List String}
    {present : Bool} (refused : disk.makeFolder path = .error .missing)
    (ensured : (Storage.ensureWithin further nearest : Storing Bool) disk
      = (between, pure present)) :
    (Storage.ensureWithin (nearest :: further) path : Storing Bool) disk
      = if present then (Storage.ensureFolder path : Storing Bool) between
        else (between, pure false) := by
  refine (bind_of_pure (makeFolder_of_error refused)).trans ((bind_of_pure ensured).trans ?_)
  cases present <;> rfl

theorem hasFolder_iff (plain : Path.IsPlain path) (fits : Path.Fits path) :
    disk.hasFolder path = true ↔ disk.view (Path.parts path) = some none := by
  simp [Disk.hasFolder, find?_of_isPlain plain fits, Option.any_eq_true]

/-- By induction on the parts of the path, from the last one. -/
theorem ensureWithin_of_clear {reversed : List String} (plain : Path.IsPlain path)
    (fits : Path.Fits path) (divided : Path.parts path = reversed.reverse)
    (clear : disk.Clear (Path.parts path)) :
    ∃ after, (Storage.ensureWithin
        ((Path.ascending reversed).tail.map fun around => Path.ofParts around.reverse) path :
          Storing Bool) disk = (after, pure true) ∧ disk.Founded after (Path.parts path) := by
  induction reversed generalizing path with
  | nil => exact absurd divided (Path.parts_ne_nil path)
  | cons name rest ih =>
    rw [List.reverse_cons] at divided
    have clearHere := divided ▸ clear
    cases around : disk.view rest.reverse with
    | some inner =>
      cases inner with
      | some contents =>
        exact absurd around (clearHere.before rest.reverse (List.prefix_refl _) contents)
      | none =>
        cases present : disk.view (rest.reverse ++ [name]) with
        | none =>
          obtain ⟨after, made, changed⟩ := makeFolder_of_free plain fits divided around present
          refine ⟨after, ensureWithin_of_makes _ made, ?_⟩
          rw [divided]
          exact (founded_self around).extend changed
        | some inner =>
          cases inner with
          | some contents => exact absurd present (clearHere _ (List.prefix_refl _) contents)
          | none =>
            have refused := makeFolder_of_taken plain fits divided around (by rw [present]; rfl)
            rw [← divided] at present
            refine ⟨disk, ?_, founded_self present⟩
            rw [ensureWithin_of_blocked _ refused, (hasFolder_iff plain fits).mpr present]
    | none =>
      have further : rest ≠ [] := by
        rintro rfl
        rw [List.reverse_nil, view_nil] at around
        cases around
      obtain ⟨same, plainAround, fitsAround⟩ := plain.around divided (by simpa using further)
      obtain ⟨between, ensured, founded⟩ := ih plainAround (fitsAround fits) same
        (same.symm ▸ clearHere.before)
      rw [same] at founded
      have refused := makeFolder_of_missing plain fits divided clearHere.before around
      have absent : between.view (rest.reverse ++ [name]) = none := by
        rw [founded.beyond, Disk.view, ← List.append_assoc]
        apply FileTree.view_below
        rw [← Disk.view, around]
        simp
      obtain ⟨after, made, changed⟩ := makeFolder_of_free plain fits divided
        (founded.folders _ (List.prefix_refl _)) absent
      have moves : ∀ part ∈ name :: rest, Path.stays part = false := by
        intro part member
        exact (plain part (by rw [divided]; simpa [or_comm] using member)).1
      have whole := Path.ascending_of_isPlain moves (List.cons_ne_nil _ _)
      have nearest := Path.ascending_of_isPlain
        (fun part member => moves part (List.mem_cons_of_mem _ member)) further
      rw [nearest, List.tail_cons] at ensured
      rw [whole, List.tail_cons, List.tail_cons, nearest, List.map_cons]
      refine ⟨after, (ensureWithin_of_missing refused ensured).trans ?_, ?_⟩
      · rw [if_pos rfl]
        exact ensureFolder_of_makes made
      · rw [divided]
        exact founded.extend changed

theorem makeFolders_of_clear (plain : Path.IsPlain path) (fits : Path.Fits path)
    (clear : disk.Clear (Path.parts path)) :
    ∃ after, (Storage.makeFolders path : Storing Bool) disk = (after, pure true) ∧
      disk.Founded after (Path.parts path) := by
  have divided : Path.parts path = (Path.parts path).reverse.reverse := by simp
  simp only [Storage.makeFolders, plain.isEmpty, Bool.false_eq_true, if_false]
  exact ensureWithin_of_clear plain fits divided clear

/-- A file in the place of a folder around is in the way, and then nothing is made. -/
theorem makeFolders_of_blocked {before rest : List String} {contents : ByteArray}
    (plain : Path.IsPlain path) (fits : Path.Fits path)
    (divided : Path.parts path = before ++ rest) (further : rest ≠ [])
    (file : disk.view before = some (some contents)) :
    (Storage.makeFolders path : Storing Bool) disk = (disk, pure false) := by
  have last : Path.parts path = (before ++ rest.dropLast) ++ [rest.getLast further] := by
    rw [divided, List.append_assoc, List.dropLast_concat_getLast]
  have refused := makeFolder_of_blocked plain fits last (List.prefix_append _ _) file
  have absent : disk.hasFolder path = false := by
    rw [Bool.eq_false_iff, ne_eq, hasFolder_iff plain fits, divided]
    intro present
    rw [folders_of_view (by rw [present]; rfl) further] at file
    cases file
  simp only [Storage.makeFolders, plain.isEmpty, Bool.false_eq_true, if_false]
  rw [ensureWithin_of_blocked _ refused, absent]

theorem contains_eq (plain : Path.IsPlain path) (fits : Path.Fits path) :
    disk.contains path = (disk.view (Path.parts path)).isSome := by
  rw [Disk.contains, find?_of_isPlain plain fits]

/-- A folder that is there, or a file in its place, is left alone. -/
theorem newFile_of_present (file : String) (present : disk.contains folder = true) :
    (newFile folder file : Storing String) disk
      = (disk, pure (Path.join folder (file ++ ".yaml"))) := by
  refine (bind_of_pure (contains_run folder)).trans ?_
  rw [if_pos present]
  rfl

theorem makeFolder_run {made : Bool} {after : Disk}
    (ran : (Storage.makeFolders folder : Storing Bool) disk = (after, pure made)) :
    (DagDeploy.makeFolder folder : Storing Unit) disk = (after,
      if made then .say (.createdFolder folder) else .fail (.unwritable folder)) := by
  cases made with
  | true => exact bind_of_pure (require_of_true ran)
  | false => exact bind_of_error (require_of_false ran)

theorem newFile_of_absent {made : Bool} {after : Disk} (file : String)
    (absent : disk.contains folder = false)
    (ran : (Storage.makeFolders folder : Storing Bool) disk = (after, pure made)) :
    (newFile folder file : Storing String) disk = (after,
      if made then ⟨[.createdFolder folder], .ok (Path.join folder (file ++ ".yaml"))⟩
      else .fail (.unwritable folder)) := by
  refine (bind_of_pure (contains_run folder)).trans ?_
  rw [if_neg (by simp [absent])]
  cases made with
  | true => exact bind_of_ok (makeFolder_run ran)
  | false => exact bind_of_error (makeFolder_run ran)

end Storing

end DagDeploy
