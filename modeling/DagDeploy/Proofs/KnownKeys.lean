import DagDeploy.Document.Descriptor
import DagDeploy.Document.Solution
import DagDeploy.Proofs.InputReading
import DagDeploy.Proofs.RecordShapes

/-! The documents of the program are read by their known keys. Of a record all of these must stand
there once, except in a catalogue, where the standard catalogue has the values of keys that are
missing. Kernel ids are no record: there the last of equal times counts. -/

namespace DagDeploy

open Yaml Node

section readers

theorem Task.respects : Respects shape ofNode? :=
  .record (fun _ => rfl) (.field (.whole _) fun _ => .done _) (by decide)

theorem Dag.respects : Respects shape ofNode? :=
  .record (fun _ => rfl)
    (.field (.list Task.respects) fun _ => .field (.whole _) fun _ => .field (.whole _) fun _ =>
      .field (.whole _) fun _ => .done _)
    (by decide)

theorem DagSet.respects : Respects format.shape format.ofNode? :=
  .record (fun _ => rfl) (.field (.list Dag.respects) fun _ => .done _) (by decide)

theorem Island.respects : Respects shape ofNode? :=
  .record (fun _ => rfl)
    (.field (.whole _) fun _ => .field (.whole _) fun _ => .field (.whole _) fun _ => .done _)
    (by decide)

theorem SolvedTask.respects : Respects shape ofNode? :=
  .record (fun _ => rfl)
    (.field (.whole _) fun (_, _) => .field (.whole _) fun _ => .field (.whole _) fun _ => .done _)
    (by decide)

theorem Solution.respects : Respects format.shape format.ofNode? :=
  .record (fun _ => rfl)
    (.field (.whole _) fun _ => .field (.list Island.respects) fun _ =>
      .field (.list SolvedTask.respects) fun _ => .done _)
    (by decide)

theorem Descriptor.respects : Respects format.shape format.ofNode? := by
  refine .record (fun _ => rfl) ?_ (by decide)
  repeat refine .field (.whole _) fun _ => ?_
  exact .done _

end readers

namespace KernelIds

variable {node other : Node} {entries others : List (Node × Node)} {ids : KernelIds}

def numbersOf? (entry : Node × Node) : Option (Int × Int) := do
  return (← entry.1.int? 63, ← entry.2.int? 31)

theorem ofNode?_of_entries (isMapping : node.entries? = some entries) :
    ofNode? node = (entries.mapM numbersOf?).map ofList := by
  rw [ofNode?, isMapping, Option.bind_eq_bind, Option.bind_some, Option.map_eq_bind]
  rfl

theorem isSome_ofNode? (isMapping : node.entries? = some entries) :
    (ofNode? node).isSome = true ↔
      ∀ entry ∈ entries, (entry.1.int? 63).isSome = true ∧ (entry.2.int? 31).isSome = true := by
  rw [ofNode?_of_entries isMapping, Option.isSome_map]
  clear isMapping
  induction entries with
  | nil => simp
  | cons first rest ih =>
    rw [List.forall_mem_cons, ← ih, List.mapM_cons, numbersOf?]
    cases first.1.int? 63 <;> cases first.2.int? 31 <;> cases rest.mapM numbersOf? <;> simp

/-- Of the entries of one time the last counts. -/
theorem find?_ofNode? (isMapping : node.entries? = some entries) (read : ofNode? node = some ids)
    (time : Int) : ids.find? time = (numbered time entries).getLast?.bind (·.2.int? 31) := by
  rw [ofNode?_of_entries isMapping, Option.map_eq_some_iff] at read
  obtain ⟨pairs, read, rfl⟩ := read
  rw [find?_ofList]
  clear isMapping
  induction entries using List.reverseRecOn generalizing pairs with
  | nil =>
    obtain rfl := Option.some.inj read
    rfl
  | append_singleton front last ih =>
    obtain ⟨earlier, readFront, own, kernel, known, value, rfl⟩ : ∃ earlier,
        front.mapM numbersOf? = some earlier ∧ ∃ own kernel, last.1.int? 63 = some own ∧
          last.2.int? 31 = some kernel ∧ earlier ++ [(own, kernel)] = pairs := by
      simpa [numbersOf?, Option.bind_eq_some_iff, List.mapM_append] using read
    rw [List.reverse_concat, lookup_entry, ih earlier readFront, numbered, numbered,
      List.filter_append, List.filter_cons, List.filter_nil, known]
    by_cases same : own = time
    · simp [same, value]
    · have apart : time ≠ own := Ne.symm same
      simp [same, apart]

/-- Only the last entry of each time matters. -/
theorem ofNode?_eq (isMapping : node.entries? = some entries)
    (isOther : other.entries? = some others) (permuted : entries.Perm others)
    (inOrder : ∀ time, numbered time entries = numbered time others) :
    ofNode? node = ofNode? other := by
  have both : (ofNode? node).isSome = (ofNode? other).isSome := by
    rw [Bool.eq_iff_iff, isSome_ofNode? isMapping, isSome_ofNode? isOther]
    exact forall_congr' fun entry => by rw [permuted.mem_iff]
  refine eq_of_isSome both fun ids changed left right => eq_of_find? fun time => ?_
  rw [find?_ofNode? isMapping left, find?_ofNode? isOther right, inOrder]

theorem respects : Respects .numbered ofNode? where
  same rearranged := by
    generalize whole : Shape.numbered = shape at rearranged
    induction rearranged with
    | renumber permuted inOrder => exact ofNode?_eq rfl rfl permuted inOrder
    | tagged _ ih => exact ih whole
    | copied _ ih => exact ih whole
    | _ => cases whole
  spoilt spoilt := nomatch spoilt

end KernelIds

theorem Catalogue.respects : Respects format.shape format.ofNode? :=
  .record (fun _ => rfl)
    (.fieldOr (.whole _) fun _ => .fieldOr KernelIds.respects fun _ => .fieldOr (.whole _) fun _ =>
      .fieldOr (.whole _) fun _ => .fieldOr (.whole _) fun _ => .done _)
    (by decide)

section overrides

end overrides

section loading

variable {α : Type} {format : Format α}

end loading

section samples

variable {node : Node} {dag other : List (Node × Node)}

/-- A disk with one document. -/
def Disk.ofText (text : String) : Disk := .around [("in.yaml", .file text.toUTF8)]

def DagSet.around (dag : List (Node × Node)) : Node :=
  .mapping [(plain "dags", .sequence [.mapping dag])]

def Catalogue.sample : Catalogue :=
  { standard with kernelIds := .ofList [(5000, 201)], defaultKernel := 200 }

end samples

section texts

variable {α : Type}

/-- What is loaded from a text. -/
def loaded (format : Format α) (text : String) : Except Failure α :=
  ((load format "in.yaml" : Storing α) (.ofText text)).2.outcome

/-- So many items, all the same. -/
def rowOf (count : Nat) (item : String) : String :=
  "[" ++ ",".intercalate (List.replicate count item) ++ "]"

end texts

end DagDeploy
