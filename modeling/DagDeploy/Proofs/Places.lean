import DagDeploy.Disk
import DagDeploy.Proofs.PlainPath

/-! Where a path of plain names leads on a disk. Something at its place makes all parts before the
last one folders; where nothing is, either a file stands in the way or the path breaks off. New
folders and files change what is at their own place and nothing else. -/

namespace DagDeploy

namespace FileTree

variable {child tree grown : FileTree} {place front rest : List String} {name : String}

theorem isFolderAt_iff : tree.isFolderAt place = true ↔ tree.view place = some none := by
  simp [isFolderAt, Option.any_eq_true]

/-- Only folders hold something. -/
theorem isFolderAt_of_view (present : (tree.view (place ++ name :: rest)).isSome) :
    tree.isFolderAt place := by
  induction place generalizing tree with
  | nil =>
    cases tree with
    | folder children => rfl
    | file contents => simp [view, at?] at present
  | cons first names ih =>
    cases tree with
    | file contents => simp [view, at?] at present
    | folder children =>
      simp only [isFolderAt, List.cons_append, view_cons] at present ⊢
      cases found : children.lookup first with
      | none => simp [found] at present
      | some inner => exact ih (by simpa [isFolderAt, found] using present)

/-- What leads to something is there. -/
theorem view_step (present : (tree.view (place ++ name :: rest)).isSome) :
    (tree.view (place ++ [name])).isSome := by
  cases rest with
  | nil => exact present
  | cons second further =>
    rw [List.append_cons] at present
    rw [isFolderAt_iff.mp (isFolderAt_of_view present)]
    rfl

theorem view_below (notFolder : tree.view place ≠ some none) :
    tree.view (place ++ name :: rest) = none := by
  cases present : tree.view (place ++ name :: rest) with
  | none => rfl
  | some inner =>
    have visible : (tree.view (place ++ name :: rest)).isSome := by rw [present]; rfl
    exact absurd (isFolderAt_iff.mp (isFolderAt_of_view visible)) notFolder

theorem plant_cons {children : List (String × FileTree)} {inner : FileTree} {first : String}
    (further : rest ≠ []) (found : children.lookup first = some inner) :
    plant child (first :: rest) (.folder children)
      = (plant child rest inner).map fun grown => .folder (put first grown children) := by
  cases rest with
  | nil => exact absurd rfl further
  | cons second others =>
    simp only [plant, found, Option.bind_eq_bind, Option.bind_some]
    cases plant child (second :: others) inner <;> rfl

theorem exists_plant (child : FileTree) (around : tree.isFolderAt front) (name : String) :
    ∃ grown, plant child (front ++ [name]) tree = some grown := by
  induction front generalizing tree with
  | nil =>
    cases tree with
    | file contents => simp [isFolderAt, view, at?, contents?] at around
    | folder children => exact ⟨_, rfl⟩
  | cons first names ih =>
    cases tree with
    | file contents => simp [isFolderAt, view, at?] at around
    | folder children =>
      simp only [isFolderAt, view_cons] at around
      cases found : children.lookup first with
      | none => simp [found] at around
      | some inner =>
        have folder : inner.isFolderAt names := by simpa [isFolderAt, found] using around
        obtain ⟨grown, planted⟩ := ih folder
        refine ⟨.folder (put first grown children), ?_⟩
        rw [List.cons_append, plant_cons (by simp) found, planted]
        rfl

theorem put_same {children : List (String × FileTree)} (found : children.lookup name = some child) :
    put name child children = children := by
  induction children with
  | nil => cases found
  | cons first others ih =>
    obtain ⟨known, present⟩ := first
    rw [lookup_child] at found
    simp only [put]
    split
    next same =>
      have same : known = name := same
      rw [if_pos same.symm] at found
      rw [Option.some.inj found, same]
    next different =>
      have different : known ≠ name := different
      rw [if_neg different.symm] at found
      rw [ih found]

/-- Nothing changes when a child is put where it already is. -/
theorem plant_same (found : tree.at? place = some child) (nonempty : place ≠ []) :
    plant child place tree = some tree := by
  induction place generalizing tree with
  | nil => exact absurd rfl nonempty
  | cons first names ih =>
    cases tree with
    | file contents => cases found
    | folder children =>
      obtain ⟨inner, known, below⟩ := Option.bind_eq_some_iff.mp found
      by_cases further : names = []
      · subst further
        obtain rfl : inner = child := Option.some.inj below
        exact congrArg (some ∘ FileTree.folder) (put_same known)
      · rw [plant_cons further known, ih below further]
        exact congrArg (some ∘ FileTree.folder) (put_same known)

end FileTree

namespace Disk

variable {disk after : Disk} {place front names : List String} {name : String}

theorem plant_eq_some {child : FileTree} : disk.plant child place = some after ↔
    disk.tree.isFolderAt place = false ∧ after.home = disk.home ∧
      FileTree.plant child place disk.tree = some after.tree := by
  unfold plant
  split
  next taken => simp [taken]
  next free =>
    simp only [free, true_and]
    split
    next refused => simp [refused]
    next grown planted =>
      constructor
      · intro same
        obtain rfl := Option.some.inj same
        exact ⟨rfl, planted⟩
      · intro ⟨sameHome, sameTree⟩
        obtain ⟨tree, home, _⟩ := after
        cases sameHome
        cases planted.symm.trans sameTree
        rfl

/-- Every step into a name stays on the way. -/
theorem follow_cons (named : Path.isName name = true) (around : disk.tree.isFolderAt place) :
    disk.follow place (name :: names)
      = if (disk.tree.view (place ++ [name])).isSome then disk.follow (place ++ [name]) names
        else .error .missing := by
  obtain ⟨stays, rises, -⟩ := Path.isName_iff.mp named
  simp [follow, around, stays, rises, named]

theorem follow_of_present (named : ∀ part ∈ names, Path.isName part = true)
    (present : (disk.tree.view (place ++ names)).isSome) :
    disk.follow place names = .ok (place ++ names) := by
  induction names generalizing place with
  | nil => simp [follow]
  | cons name rest ih =>
    obtain ⟨first, others⟩ := List.forall_mem_cons.mp named
    rw [follow_cons first (FileTree.isFolderAt_of_view present),
      if_pos (FileTree.view_step present)]
    rw [List.append_cons place name rest] at present ⊢
    exact ih others present

theorem follow_of_missing (named : ∀ part ∈ names, Path.isName part = true)
    (around : disk.tree.isFolderAt place)
    (clear : ∀ front, front <+: names → ∀ contents,
      disk.tree.view (place ++ front) ≠ some (some contents))
    (absent : disk.tree.view (place ++ names) = none) :
    disk.follow place names = .error .missing := by
  induction names generalizing place with
  | nil =>
    rw [List.append_nil, FileTree.isFolderAt_iff.mp around] at absent
    cases absent
  | cons name rest ih =>
    obtain ⟨first, others⟩ := List.forall_mem_cons.mp named
    rw [follow_cons first around]
    cases step : disk.tree.view (place ++ [name]) with
    | none => rfl
    | some inner =>
      cases inner with
      | some contents => exact absurd step (clear [name] (by simp) contents)
      | none =>
        refine ih others (FileTree.isFolderAt_iff.mpr step) ?_ ?_
        · intro front before contents
          rw [← List.append_cons]
          exact clear (name :: front) ((List.prefix_cons_inj name).mpr before) contents
        · rwa [List.append_cons] at absent

theorem follow_of_blocked {rest : List String} {contents : ByteArray}
    (named : ∀ part ∈ front, Path.isName part = true)
    (file : disk.tree.view (place ++ front) = some (some contents)) :
    disk.follow place (front ++ name :: rest) = .error .blocked := by
  induction front generalizing place with
  | nil =>
    have notFolder : disk.tree.isFolderAt place = false := by
      rw [List.append_nil] at file
      simp [FileTree.isFolderAt, file]
    simp [follow, notFolder]
  | cons first others ih =>
    obtain ⟨isFirst, further⟩ := List.forall_mem_cons.mp named
    have present : (disk.tree.view (place ++ first :: others)).isSome := by rw [file]; rfl
    rw [List.cons_append, follow_cons isFirst (FileTree.isFolderAt_of_view present),
      if_pos (FileTree.view_step present)]
    rw [List.append_cons] at file
    exact ih further file

/-- A path of parts that neither stay nor rise leads nowhere but to its own place. -/
theorem follow_eq_ok {found : List String}
    (plain : ∀ part ∈ names, Path.stays part = false ∧ Path.rises part = false)
    (followed : disk.follow place names = .ok found) :
    found = place ++ names ∧ (∀ part ∈ names, Path.isName part = true) ∧
      (names ≠ [] → (disk.tree.view found).isSome) := by
  induction names generalizing place with
  | nil =>
    obtain rfl := Except.ok.inj followed
    simp
  | cons name rest ih =>
    obtain ⟨⟨stays, rises⟩, others⟩ := List.forall_mem_cons.mp plain
    simp only [follow, stays, rises, Bool.false_eq_true, if_false] at followed
    split at followed
    · cases followed
    split at followed
    · cases followed
    next named =>
      split at followed
      next step =>
        obtain ⟨rfl, further, visible⟩ := ih others followed
        have isName : Path.isName name = true := by simpa using named
        refine ⟨by rw [← List.append_cons], List.forall_mem_cons.mpr ⟨isName, further⟩, ?_⟩
        intro _
        cases rest with
        | nil => simpa using step
        | cons second more => exact visible (List.cons_ne_nil _ _)
      · cases followed

end Disk

end DagDeploy
