import DagDeploy.Yaml.Codec

/-! What readers make use of in a document. Of a record they look at the known keys only; what is
written under other keys they pass by, whatever it is. They look into a bounded number of copies, each
time that they come to one. -/

namespace DagDeploy.Yaml

/-- The records in a document, with their known keys, and whether all of these are mandatory. A node
without records counts as a whole, also a mapping with numbers as keys. -/
inductive Shape where
  | whole
  | numbered
  | list (item : Shape)
  | record (mandatory : Bool) (known : List (String × Shape))

namespace Shape

def item : Shape → Shape
  | .list item => item
  | _ => .whole

/-- The shape of what is written under a key, unless it is passed by. -/
def under? (shape : Shape) (key : Node) : Option Shape :=
  match shape with
  | .record _ known => key.text?.bind (List.lookup · known)
  | _ => some .whole

end Shape

namespace Node

mutual
/-- How many copies are left after a reader has looked at all that it uses. -/
def spend (shape : Shape) (left : Nat) : Node → Option Nat
  | .scalar _ _ => some left
  | .sequence items => spendItems shape.item left items
  | .mapping entries => spendEntries shape left entries
  | .tagged _ node => spend shape left node
  | .copied node =>
    match left with
    | 0 => none
    | left + 1 => spend shape left (node ())
termination_by structural node => node

def spendItems (shape : Shape) (left : Nat) : List Node → Option Nat
  | [] => some left
  | item :: rest => do
    let left ← spend shape left item
    spendItems shape left rest
termination_by structural items => items

def spendEntry (shape : Shape) (left : Nat) : Node × Node → Option Nat
  | (key, value) => do
    let left ← spend .whole left key
    match shape.under? key with
    | some inside => spend inside left value
    | none => return left
termination_by structural entry => entry

def spendEntries (shape : Shape) (left : Nat) : List (Node × Node) → Option Nat
  | [] => some left
  | entry :: rest => do
    let left ← spendEntry shape left entry
    spendEntries shape left rest
termination_by structural entries => entries
end

end Node

/-- Whether there are as many copies as a reader has to look into. -/
def Document.suffices (document : Document) (shape : Shape) : Bool :=
  (document.node.spend shape document.copies).isSome

/-- How values are written as documents. -/
structure Format (α : Type) where
  shape : Shape
  ofNode? : Node → Option α

namespace Format

variable {α : Type}

def value? (format : Format α) (document : Document) : Option α :=
  if document.suffices format.shape then format.ofNode? document.node else none

end Format

end DagDeploy.Yaml
