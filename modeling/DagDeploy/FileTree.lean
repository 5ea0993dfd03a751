/-! A tree of files and folders, with places as lists of names. What stands at each place is the
view of a tree. -/

namespace DagDeploy

inductive FileTree where
  | file (contents : ByteArray)
  | folder (children : List (String × FileTree))

namespace FileTree

def empty : FileTree := .folder []

/-- A folder has none. -/
def contents? : FileTree → Option ByteArray
  | .file contents => some contents
  | .folder _ => none

def at? : List String → FileTree → Option FileTree
  | [], tree => some tree
  | _ :: _, .file _ => none
  | name :: rest, .folder children => (children.lookup name).bind (at? rest)

/-- A child takes the place of an earlier one of the same name. -/
def put (name : String) (child : FileTree) :
    List (String × FileTree) → List (String × FileTree)
  | [] => [(name, child)]
  | other :: rest =>
    if other.1 = name then (name, child) :: rest else other :: put name child rest

theorem lookup_child (name other : String) (child : FileTree)
    (children : List (String × FileTree)) :
    ((name, child) :: children).lookup other
      = if other = name then some child else children.lookup other := by
  by_cases same : other = name
  · simp [same]
  · have different : (other == name) = false := by simpa using same
    simp [List.lookup_cons, different, same]

theorem lookup_put (name other : String) (child : FileTree) (children : List (String × FileTree)) :
    (put name child children).lookup other
      = if other = name then some child else children.lookup other := by
  induction children with
  | nil => exact lookup_child name other child []
  | cons first rest ih =>
    obtain ⟨known, present⟩ := first
    simp only [put]
    split
    · rename_i same
      have same : known = name := same
      simp only [lookup_child, same]
      split <;> rfl
    · rename_i different
      have different : known ≠ name := different
      simp only [lookup_child, ih]
      by_cases found : other = known
      · simp [found, different]
      · simp [found]

/-- What stands at a place: nothing, a folder, or a file with its contents. -/
def view (place : List String) (tree : FileTree) : Option (Option ByteArray) :=
  (tree.at? place).map contents?

def isFolderAt (place : List String) (tree : FileTree) : Bool :=
  (tree.view place).any Option.isNone

theorem view_nil (children : List (String × FileTree)) :
    view [] (.folder children) = some none := rfl

theorem view_cons (name : String) (rest : List String) (children : List (String × FileTree)) :
    view (name :: rest) (.folder children) = (children.lookup name).bind (view rest) := by
  simp only [view, at?, Option.map_bind]
  rfl

/-- Whatever is around a folder is a folder. -/
theorem isFolderAt_of_append {place rest : List String} {tree : FileTree}
    (inner : tree.isFolderAt (place ++ rest)) : tree.isFolderAt place := by
  induction place generalizing tree with
  | nil =>
    cases tree with
    | folder children => rfl
    | file contents => cases rest <;> simp [isFolderAt, view, at?, contents?] at inner
  | cons name names ih =>
    cases tree with
    | file contents => simp [isFolderAt, view, at?] at inner
    | folder children =>
      simp only [isFolderAt, List.cons_append, view_cons] at inner ⊢
      cases found : children.lookup name with
      | none => simp [found] at inner
      | some child => exact ih (by simpa [isFolderAt, found] using inner)

/-- Puts a child at a place in a folder that exists, instead of what was there. -/
def plant (child : FileTree) : List String → FileTree → Option FileTree
  | _, .file _ => none
  | [], .folder _ => none
  | [name], .folder children => some (.folder (put name child children))
  | name :: rest, .folder children => do
    let inner ← plant child rest (← children.lookup name)
    return .folder (put name inner children)

/-- All places but those from the planted one on keep what stands there. -/
theorem view_plant {child tree grown : FileTree} {place : List String}
    (planted : plant child place tree = some grown) (other : List String) :
    grown.view other
      = if place <+: other then child.view (other.drop place.length) else tree.view other := by
  fun_induction plant child place tree generalizing grown other with
  | case1 => simp at planted
  | case2 => simp at planted
  | case3 name children =>
    obtain rfl := Option.some.inj planted
    cases other with
    | nil => simp [view_nil]
    | cons first further =>
      simp only [view_cons, lookup_put, List.cons_prefix_cons, List.nil_prefix, and_true]
      by_cases same : first = name
      · simp [same]
      · simp [same, Ne.symm same]
  | case4 name rest children more ih =>
    obtain ⟨known, found, planted⟩ := Option.bind_eq_some_iff.1 planted
    obtain ⟨inner, below, result⟩ := Option.bind_eq_some_iff.1 planted
    obtain rfl := Option.some.inj result
    cases other with
    | nil => simp [view_nil]
    | cons first further =>
      simp only [view_cons, lookup_put, List.cons_prefix_cons]
      by_cases same : first = name
      · simp [same, found, ih known below]
      · simp [same, Ne.symm same]

mutual
/-- All places below a place, with the contents of the files. -/
def listing (path : List String) : FileTree → List (List String × Option ByteArray)
  | .file _ => []
  | .folder children => listChildren path children
termination_by structural tree => tree

def listChild (path : List String) :
    String × FileTree → List (List String × Option ByteArray)
  | (name, .file contents) => [(path ++ [name], some contents)]
  | (name, child) => (path ++ [name], none) :: listing (path ++ [name]) child
termination_by structural child => child

def listChildren (path : List String) :
    List (String × FileTree) → List (List String × Option ByteArray)
  | [] => []
  | child :: rest => listChild path child ++ listChildren path rest
termination_by structural children => children
end

end FileTree

end DagDeploy
