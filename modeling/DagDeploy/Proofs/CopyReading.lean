import DagDeploy.Document.Solution
import DagDeploy.Proofs.Copies
import DagDeploy.Proofs.Reloading

/-! Readers do not tell a copy from the node that it copies. So a document with aliases is loaded as
the tree in which all nodes are written out, if it has enough copies for its readers. -/

namespace DagDeploy

open Yaml

namespace Yaml.Node

mutual
/-- The same tree without copies. -/
def inFull : Node → Node
  | .scalar text style => .scalar text style
  | .sequence items => .sequence (itemsInFull items)
  | .mapping entries => .mapping (entriesInFull entries)
  | .tagged tag node => .tagged tag (inFull node)
  | .copied node => inFull (node ())
termination_by structural node => node

def itemsInFull : List Node → List Node
  | [] => []
  | item :: rest => inFull item :: itemsInFull rest
termination_by structural items => items

def entryInFull : Node × Node → Node × Node
  | (key, value) => (inFull key, inFull value)
termination_by structural entry => entry

def entriesInFull : List (Node × Node) → List (Node × Node)
  | [] => []
  | entry :: rest => entryInFull entry :: entriesInFull rest
termination_by structural entries => entries
end

theorem itemsInFull_eq_map (items : List Node) : itemsInFull items = items.map inFull := by
  induction items with
  | nil => rfl
  | cons item rest ih => rw [itemsInFull, ih, List.map_cons]

theorem entriesInFull_eq_map (entries : List (Node × Node)) :
    entriesInFull entries = entries.map entryInFull := by
  induction entries with
  | nil => rfl
  | cons entry rest ih => rw [entriesInFull, ih, List.map_cons]

mutual
/-- Without copies there is nothing to pay for. -/
theorem cost_inFull (shape : Shape) (node : Node) : node.inFull.cost shape = 0 := by
  cases node with
  | scalar text style => rfl
  | sequence items => exact costOfItems_inFull shape.item items
  | mapping entries => exact costOfEntries_inFull shape entries
  | tagged tag node => exact cost_inFull shape node
  | copied node => exact cost_inFull shape (node ())
termination_by structural node

theorem costOfItems_inFull (shape : Shape) (items : List Node) :
    costOfItems shape (itemsInFull items) = 0 := by
  cases items with
  | nil => rfl
  | cons item rest =>
    rw [itemsInFull, costOfItems, cost_inFull shape item, costOfItems_inFull shape rest]
termination_by structural items

theorem costOfEntry_inFull (shape : Shape) (entry : Node × Node) :
    costOfEntry shape (entryInFull entry) = 0 := by
  cases entry with
  | mk key value =>
    rw [entryInFull, costOfEntry, cost_inFull .whole key]
    cases shape.under? key.inFull with
    | none => rfl
    | some inside => exact (Nat.zero_add _).trans (cost_inFull inside value)
termination_by structural entry

theorem costOfEntries_inFull (shape : Shape) (entries : List (Node × Node)) :
    costOfEntries shape (entriesInFull entries) = 0 := by
  cases entries with
  | nil => rfl
  | cons entry rest =>
    rw [entriesInFull, costOfEntries, costOfEntry_inFull shape entry,
      costOfEntries_inFull shape rest]
termination_by structural entries
end

theorem untagged_inFull (node : Node) : node.inFull.untagged = node.untagged.inFull := by
  cases node with
  | tagged tag node => exact untagged_inFull node
  | copied node => exact untagged_inFull (node ())
  | _ => rfl
termination_by structural node

theorem tag?_inFull (node : Node) : node.inFull.tag? = node.tag? := by
  cases node with
  | copied node => exact tag?_inFull (node ())
  | _ => rfl
termination_by structural node

/-- Nodes without a tag that are no copies. -/
inductive Itself : Node → Prop where
  | scalar (text : String) (style : Style) : Itself (.scalar text style)
  | sequence (items : List Node) : Itself (.sequence items)
  | mapping (entries : List (Node × Node)) : Itself (.mapping entries)

theorem itself_untagged (node : Node) : Itself node.untagged := by
  cases node with
  | scalar text style => exact .scalar text style
  | sequence items => exact .sequence items
  | mapping entries => exact .mapping entries
  | tagged tag node => exact itself_untagged node
  | copied node => exact itself_untagged (node ())
termination_by structural node

end Yaml.Node

/-- A reader does not tell a copy from what it copies. -/
def SeesThrough {α : Type} (value? : Node → Option α) : Prop :=
  ∀ node, value? node.inFull = value? node

theorem mapM_map_same {α β : Type} {read : β → Option α} {full : β → β}
    (same : ∀ item, read (full item) = read item) (items : List β) :
    (items.map full).mapM read = items.mapM read := by
  induction items with
  | nil => rfl
  | cons item rest ih => rw [List.map_cons, List.mapM_cons, List.mapM_cons, same, ih]

namespace Yaml.Node

variable {α : Type} {value? : Node → Option α}

theorem seesThrough_text? : SeesThrough text? := by
  intro node
  have itself := itself_untagged node
  rw [text?, text?, untagged_inFull]
  generalize node.untagged = whole at itself
  cases itself <;> rfl

theorem seesThrough_numeral? (kind : Tag) : SeesThrough (numeral? kind) := by
  intro node
  have itself := itself_untagged node
  rw [numeral?, numeral?, untagged_inFull, tag?_inFull]
  generalize node.untagged = whole at itself
  cases itself <;> rfl

theorem items?_inFull (node : Node) : node.inFull.items? = node.items?.map (List.map inFull) := by
  have itself := itself_untagged node
  rw [items?, items?, untagged_inFull]
  generalize node.untagged = whole at itself
  cases itself with
  | scalar text style =>
    simp only [inFull]
    split
    · rename_i same
      cases same
    · rfl
    · rfl
  | sequence items => simp only [inFull, itemsInFull_eq_map, Option.map_some]
  | mapping entries => rfl

theorem entries?_inFull (node : Node) :
    node.inFull.entries? = node.entries?.map (List.map entryInFull) := by
  have itself := itself_untagged node
  rw [entries?, entries?, untagged_inFull]
  generalize node.untagged = whole at itself
  cases itself with
  | scalar text style =>
    simp only [inFull]
    split
    · rename_i same
      cases same
    · rfl
    · rfl
  | sequence items => rfl
  | mapping entries => simp only [inFull, entriesInFull_eq_map, Option.map_some]

theorem seesThrough_nat? : SeesThrough nat? := by
  intro node
  rw [nat?, nat?, seesThrough_numeral?]

theorem seesThrough_int? (bits : Nat) : SeesThrough (int? bits) := by
  intro node
  rw [int?, int?, seesThrough_numeral?]

theorem seesThrough_float? : SeesThrough float? := by
  intro node
  rw [float?, float?, seesThrough_numeral?]

theorem seesThrough_list? (sees : SeesThrough value?) : SeesThrough (list? value?) := by
  intro node
  rw [list?, list?, items?_inFull]
  cases node.items? with
  | none => rfl
  | some items => exact mapM_map_same sees items

theorem fields?_inFull (node : Node) :
    node.inFull.fields? = node.fields?.map (List.map (Prod.map id inFull)) := by
  rw [fields?, fields?, entries?_inFull]
  cases node.entries? with
  | none => rfl
  | some entries =>
    simp only [Option.map_some, Option.bind_eq_bind, Option.bind_some]
    induction entries with
    | nil => rfl
    | cons entry rest ih =>
      obtain ⟨key, value⟩ := entry
      rw [List.map_cons, List.mapM_cons, List.mapM_cons, ih, entryInFull, seesThrough_text?]
      cases key.text? with
      | none => rfl
      | some text =>
        cases rest.mapM fun entry => do return (← entry.1.text?, entry.2) <;> rfl

theorem under_inFull (key : String) (fields : List (String × Node)) :
    under key (fields.map (Prod.map id inFull)) = (under key fields).map inFull := by
  rw [under, under, List.filter_map, List.map_map, List.map_map]
  rfl

theorem field?_inFull (sees : SeesThrough value?) (key : String) (fields : List (String × Node)) :
    field? (fields.map (Prod.map id inFull)) key value? = field? fields key value? := by
  rw [field?, field?, under_inFull]
  obtain _ | ⟨node, _ | ⟨_, _⟩⟩ := under key fields
  · rfl
  · exact sees node
  · rfl

theorem fieldOr?_inFull (sees : SeesThrough value?) (fallback : α) (key : String)
    (fields : List (String × Node)) :
    fieldOr? fallback (fields.map (Prod.map id inFull)) key value?
      = fieldOr? fallback fields key value? := by
  rw [fieldOr?, fieldOr?, under_inFull]
  obtain _ | ⟨node, _ | ⟨_, _⟩⟩ := under key fields
  · rfl
  · exact sees node
  · rfl

/-- A record is what its reader makes of the fields. -/
theorem seesThrough_record {reader : List (String × Node) → Option α}
    (read : ∀ node, value? node = node.fields?.bind reader)
    (sees : ∀ fields, reader (fields.map (Prod.map id inFull)) = reader fields) :
    SeesThrough value? := by
  intro node
  rw [read, read, fields?_inFull]
  cases node.fields? with
  | none => rfl
  | some fields => exact sees fields

end Yaml.Node

section documents

open Node

theorem Task.seesThrough : SeesThrough ofNode? :=
  seesThrough_record (fun _ => rfl) fun fields => by
    simp only [field?_inFull (seesThrough_int? 63)]

theorem Edge.seesThrough : SeesThrough ofNode? := by
  intro node
  rw [ofNode?, ofNode?, seesThrough_list? seesThrough_nat?]

theorem Dag.seesThrough : SeesThrough ofNode? :=
  seesThrough_record (fun _ => rfl) fun fields => by
    simp only [field?_inFull (seesThrough_list? Task.seesThrough),
      field?_inFull (seesThrough_list? Edge.seesThrough), field?_inFull seesThrough_nat?,
      field?_inFull (seesThrough_int? 63)]

theorem DagSet.seesThrough : SeesThrough format.ofNode? :=
  seesThrough_record (fun _ => rfl) fun fields => by
    simp only [field?_inFull (seesThrough_list? Dag.seesThrough)]

theorem identity?_seesThrough : SeesThrough identity? := by
  intro node
  rw [identity?, identity?, items?_inFull]
  cases node.items? with
  | none => rfl
  | some items =>
    match items with
    | [dag, task] => simp [seesThrough_nat? dag, seesThrough_nat? task]
    | [] => rfl
    | [_] => rfl
    | _ :: _ :: _ :: _ => rfl

theorem TaskKind.seesThrough : SeesThrough ofNode? := by
  intro node
  have itself := itself_untagged node
  rw [ofNode?, ofNode?, seesThrough_text?, untagged_inFull, tag?_inFull]
  generalize node.untagged = whole at itself
  cases itself <;> rfl

theorem Descriptor.seesThrough : SeesThrough format.ofNode? :=
  seesThrough_record (fun _ => rfl) fun fields => by
    simp only [field?_inFull seesThrough_text?, field?_inFull seesThrough_nat?,
      field?_inFull (seesThrough_int? 63), field?_inFull seesThrough_float?,
      field?_inFull (seesThrough_list? seesThrough_text?),
      field?_inFull (seesThrough_list? TaskKind.seesThrough),
      field?_inFull (seesThrough_list? (seesThrough_int? 63)),
      field?_inFull (seesThrough_list? seesThrough_nat?),
      field?_inFull (seesThrough_list? (seesThrough_int? 31)),
      field?_inFull (seesThrough_list? (seesThrough_list? (seesThrough_int? 31)))]

theorem Yaml.Value.seesThrough (depth : Nat) : SeesThrough (ofNode? depth) := by
  induction depth with
  | zero =>
    intro node
    have itself := itself_untagged node
    rw [ofNode?.eq_def, ofNode?.eq_def 0 node]
    dsimp only
    rw [untagged_inFull, tag?_inFull]
    generalize node.untagged = whole at itself
    cases itself <;> rfl
  | succ depth ih =>
    intro node
    have itself := itself_untagged node
    rw [ofNode?.eq_def, ofNode?.eq_def (depth + 1) node]
    dsimp only
    rw [untagged_inFull, tag?_inFull]
    generalize node.untagged = whole at itself
    cases itself with
    | scalar text style => rfl
    | sequence items =>
      simp only [inFull, itemsInFull_eq_map, mapM_map_same ih]
    | mapping entries =>
      simp only [inFull, entriesInFull_eq_map]
      rw [mapM_map_same]
      rintro ⟨key, value⟩
      simp only [entryInFull, ih key, ih value]

theorem Assignment.seesThrough : SeesThrough ofNode? := by
  intro node
  rw [ofNode?, ofNode?, items?_inFull]
  cases node.items? with
  | none => rfl
  | some items =>
    match items with
    | [first, dag, task] =>
      simp [Value.seesThrough _ first, seesThrough_nat? dag, seesThrough_nat? task]
    | [] => rfl
    | [_] => rfl
    | [_, _] => rfl
    | _ :: _ :: _ :: _ :: _ => rfl

theorem Island.seesThrough : SeesThrough ofNode? :=
  seesThrough_record (fun _ => rfl) fun fields => by
    simp only [field?_inFull seesThrough_float?, field?_inFull seesThrough_nat?,
      field?_inFull (seesThrough_list? (seesThrough_list? Assignment.seesThrough))]

theorem SolvedTask.seesThrough : SeesThrough ofNode? :=
  seesThrough_record (fun _ => rfl) fun fields => by
    simp only [field?_inFull identity?_seesThrough, field?_inFull (seesThrough_int? 63)]

theorem Solution.seesThrough : SeesThrough format.ofNode? :=
  seesThrough_record (fun _ => rfl) fun fields => by
    simp only [field?_inFull seesThrough_text?,
      field?_inFull (seesThrough_list? Island.seesThrough),
      field?_inFull (seesThrough_list? SolvedTask.seesThrough)]

theorem KernelIds.seesThrough : SeesThrough ofNode? := by
  intro node
  rw [ofNode?, ofNode?, entries?_inFull]
  cases node.entries? with
  | none => rfl
  | some entries =>
    simp only [Option.map_some, Option.bind_eq_bind, Option.bind_some]
    rw [mapM_map_same]
    rintro ⟨key, value⟩
    simp only [entryInFull, seesThrough_int? 63 key, seesThrough_int? 31 value]

theorem Catalogue.seesThrough : SeesThrough format.ofNode? :=
  seesThrough_record (fun _ => rfl) fun fields => by
    simp only [fieldOr?_inFull (seesThrough_list? TaskKind.seesThrough),
      fieldOr?_inFull KernelIds.seesThrough, fieldOr?_inFull (seesThrough_int? 31),
      fieldOr?_inFull seesThrough_float?]

end documents

section loading

variable {α : Type} {format : Format α}

/-- With enough copies a document is the tree without copies, which needs none. -/
theorem value?_inFull (sees : SeesThrough format.ofNode?) {document : Document}
    (enough : document.suffices format.shape = true) (copies : Nat) :
    format.value? ⟨document.node.inFull, copies⟩ = format.value? document := by
  have free : Document.suffices ⟨document.node.inFull, copies⟩ format.shape = true := by
    rw [Document.suffices_iff, Node.cost_inFull]
    exact copies.zero_le
  rw [Format.value?, Format.value?, if_pos free, if_pos enough, sees]

/-- Two documents with enough copies are loaded alike if they are the same without copies. -/
def LoadsInFull (format : Format α) : Prop :=
  ∀ {before after : Disk} {path document other}, before.Holds path document →
    after.Holds path other → document.suffices format.shape = true →
    other.suffices format.shape = true → document.node.inFull = other.node.inFull →
    ((load format path : Storing α) before).2 = ((load format path : Storing α) after).2

theorem loadsInFull_of_seesThrough (sees : SeesThrough format.ofNode?) : LoadsInFull format := by
  intro before after path document other holds held enough also same
  rw [Storing.load_run, Storing.load_run, holds.read, held.read, ← value?_inFull sees enough 0,
    ← value?_inFull sees also 0, same]

theorem documents_load_in_full :
    LoadsInFull DagSet.format ∧ LoadsInFull Solution.format ∧ LoadsInFull Descriptor.format ∧
    LoadsInFull Catalogue.format :=
  ⟨loadsInFull_of_seesThrough DagSet.seesThrough, loadsInFull_of_seesThrough Solution.seesThrough,
    loadsInFull_of_seesThrough Descriptor.seesThrough,
    loadsInFull_of_seesThrough Catalogue.seesThrough⟩

end loading

end DagDeploy
