import DagDeploy.Yaml.Property

/-! Documents as they are written, with anchors, aliases and handles of tags, and the trees that they
stand for. In place of an alias stands a copy of the node with its anchor. Anchors are numbered by how
many names are in use before them; when a name is used again, a later anchor may get a number that is
given, and all aliases to this number are copies of its node. The longer a document is, the more copies
may be looked into. -/

namespace DagDeploy.Yaml

/-- The parameters are what anchors are known by, and what is said of tags. -/
inductive Draft (ν τ : Type) where
  | scalar (text : String) (style : Style)
  | sequence (items : List (Draft ν τ))
  | mapping (entries : List (Draft ν τ × Draft ν τ))
  | labelled (label : τ) (draft : Draft ν τ)
  | anchored (name : ν) (draft : Draft ν τ)
  | alias (name : ν)

/-- A document as it is read. -/
abbrev Source := Draft String Label

/-- A document with numbers for its anchors. -/
abbrev Linked := Draft Nat Tag

/-- The numbers of the anchors so far. -/
abbrev Anchors := List (String × Nat)

def Anchors.declare (anchors : Anchors) (name : String) : Anchors :=
  (name, anchors.length) :: anchors.filter (·.1 != name)

/-- The tag that says of a scalar no more than that it is a text is left out where a text is
written. -/
def Node.withTag (tag : Tag) (node : Node) : Node :=
  match node with
  | .scalar text style =>
    if tag == .bare && !(style.isPlain && text.isEmpty) then node else .tagged tag node
  | _ => .tagged tag node

namespace Draft

variable {ν τ : Type}

def plain (text : String) : Draft ν τ := .scalar text .plain

def empty : Draft ν τ := plain ""

/-- A node has at most one tag, an alias none. -/
def withLabel? (label : τ) : Draft ν τ → Option (Draft ν τ)
  | .labelled _ _ | .alias _ => none
  | .anchored name draft => (draft.withLabel? label).map (.anchored name)
  | draft => some (.labelled label draft)

/-- A node has at most one anchor, an alias none. -/
def withAnchor? (name : ν) : Draft ν τ → Option (Draft ν τ)
  | .anchored _ _ | .alias _ => none
  | draft => some (.anchored name draft)

def withProperty? (draft : Source) : Property → Option Source
  | .anchor name => draft.withAnchor? name
  | .label label => draft.withLabel? label

mutual
/-- Puts numbers for names and tags for labels, in the order of the text. An alias refers to an anchor
before it. -/
def link (handles : Handles) (anchors : Anchors) : Source → Option (Linked × Anchors)
  | .scalar text style => some (.scalar text style, anchors)
  | .sequence items => do
    let (items, anchors) ← linkItems handles anchors items
    return (.sequence items, anchors)
  | .mapping entries => do
    let (entries, anchors) ← linkEntries handles anchors entries
    return (.mapping entries, anchors)
  | .labelled label draft => do
    let tag ← handles.tag? label
    let (draft, anchors) ← link handles anchors draft
    return (.labelled tag draft, anchors)
  | .anchored name draft => do
    let (draft, later) ← link handles (anchors.declare name) draft
    return (.anchored anchors.length draft, later)
  | .alias name => do return (.alias (← anchors.lookup name), anchors)
termination_by structural draft => draft

def linkItems (handles : Handles) (anchors : Anchors) :
    List Source → Option (List Linked × Anchors)
  | [] => some ([], anchors)
  | item :: rest => do
    let (item, anchors) ← link handles anchors item
    let (rest, anchors) ← linkItems handles anchors rest
    return (item :: rest, anchors)
termination_by structural items => items

def linkEntry (handles : Handles) (anchors : Anchors) :
    Source × Source → Option ((Linked × Linked) × Anchors)
  | (key, value) => do
    let (key, anchors) ← link handles anchors key
    let (value, anchors) ← link handles anchors value
    return ((key, value), anchors)
termination_by structural entry => entry

def linkEntries (handles : Handles) (anchors : Anchors) :
    List (Source × Source) → Option (List (Linked × Linked) × Anchors)
  | [] => some ([], anchors)
  | entry :: rest => do
    let (entry, anchors) ← linkEntry handles anchors entry
    let (rest, anchors) ← linkEntries handles anchors rest
    return (entry :: rest, anchors)
termination_by structural entries => entries
end

mutual
/-- The nodes with an anchor, in the order of their anchors. -/
def targets : Linked → List (Nat × Linked)
  | .scalar _ _ | .alias _ => []
  | .sequence items => targetsOfItems items
  | .mapping entries => targetsOfEntries entries
  | .labelled _ draft => targets draft
  | .anchored number draft => (number, draft) :: targets draft
termination_by structural draft => draft

def targetsOfItems : List Linked → List (Nat × Linked)
  | [] => []
  | item :: rest => targets item ++ targetsOfItems rest
termination_by structural items => items

def targetsOfEntry : Linked × Linked → List (Nat × Linked)
  | (key, value) => targets key ++ targets value
termination_by structural entry => entry

def targetsOfEntries : List (Linked × Linked) → List (Nat × Linked)
  | [] => []
  | entry :: rest => targetsOfEntry entry ++ targetsOfEntries rest
termination_by structural entries => entries
end

mutual
/-- Scalars and aliases count once, and collections twice, for their start and their end. -/
def size : Draft ν τ → Nat
  | .scalar _ _ | .alias _ => 1
  | .sequence items => sizeOfItems items + 2
  | .mapping entries => sizeOfEntries entries + 2
  | .labelled _ draft | .anchored _ draft => size draft
termination_by structural draft => draft

def sizeOfItems : List (Draft ν τ) → Nat
  | [] => 0
  | item :: rest => size item + sizeOfItems rest
termination_by structural items => items

def sizeOfEntry : Draft ν τ × Draft ν τ → Nat
  | (key, value) => size key + size value
termination_by structural entry => entry

def sizeOfEntries : List (Draft ν τ × Draft ν τ) → Nat
  | [] => 0
  | entry :: rest => sizeOfEntry entry + sizeOfEntries rest
termination_by structural entries => entries
end

mutual
/-- The tree, where `follow` tells what an alias stands for. -/
def expand (follow : Nat → Node) : Linked → Node
  | .scalar text style => .scalar text style
  | .sequence items => .sequence (expandItems follow items)
  | .mapping entries => .mapping (expandEntries follow entries)
  | .labelled tag draft => (expand follow draft).withTag tag
  | .anchored _ draft => expand follow draft
  | .alias number => .copied fun _ => follow number
termination_by structural draft => draft

def expandItems (follow : Nat → Node) : List Linked → List Node
  | [] => []
  | item :: rest => expand follow item :: expandItems follow rest
termination_by structural items => items

def expandEntry (follow : Nat → Node) : Linked × Linked → Node × Node
  | (key, value) => (expand follow key, expand follow value)
termination_by structural entry => entry

def expandEntries (follow : Nat → Node) : List (Linked × Linked) → List (Node × Node)
  | [] => []
  | entry :: rest => expandEntry follow entry :: expandEntries follow rest
termination_by structural entries => entries
end

/-- The node with a number, of several the last one. A node may hold a copy of itself, so copies in
copies are made down to a depth only. -/
def follow (targets : List (Nat × Linked)) : Nat → Nat → Node
  | 0, _ => .empty
  | depth + 1, number =>
    match (targets.filter (·.1 == number)).getLast? with
    | none => .empty
    | some (_, draft) => draft.expand (follow targets depth)

/-- So many copies are allowed for each scalar, alias, start or end. -/
def copiesPerMark : Nat := 100

/-- The depth of copies in copies is beyond what readers accept. -/
def resolve (handles : Handles) (source : Source) : Option Document := do
  let (linked, _) ← source.link handles []
  return {
    node := linked.expand (follow linked.targets (deepest + 1))
    copies := copiesPerMark * linked.size }

end Draft

end DagDeploy.Yaml
