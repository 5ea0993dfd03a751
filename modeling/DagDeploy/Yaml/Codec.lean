import DagDeploy.Yaml.Number
import DagDeploy.Yaml.Writer

/-! Values as nodes, and nodes as values. Numbers are plain scalars, or whole lines that have their
tag; texts are scalars of any kind. Other tags do not matter here. Where a collection is expected,
nothing at all stands for the empty one. A record is a mapping with scalar keys: entries with unknown
keys are ignored, known keys must not repeat. -/

namespace DagDeploy.Yaml.Node

variable {α : Type}

def ofNat (value : Nat) : Node := plain (String.ofList (Decimal.ofNat value))

def ofInt (value : Int) : Node := plain (String.ofList (Decimal.ofInt value))

def ofFloat (value : Binary64) : Node := plain (String.ofList (writeFloat value))

def ofList (item : α → Node) (values : List α) : Node := .sequence (values.map item)

def ofRecord (fields : List (String × Node)) : Node :=
  .mapping (fields.map fun field => (plain field.1, field.2))

/-- The text of a number, whose tag may be the given one. -/
def numeral? (kind : Tag) (node : Node) : Option (List Char) :=
  match node.untagged with
  | .scalar text .plain => some text.toList
  | .scalar text .literal => if node.tag? = some kind then some text.toList else none
  | _ => none

def text? (node : Node) : Option String :=
  match node.untagged with
  | .scalar text _ => some text
  | _ => none

/-- An unsigned number of 64 bits. -/
def nat? (node : Node) : Option Nat := do
  let value ← unsigned? (← node.numeral? (.core "int"))
  if value < Nat.pow 2 64 then some value else none

/-- A signed number of `bits + 1` bits. -/
def int? (bits : Nat) (node : Node) : Option Int := do
  let value ← signed? (← node.numeral? (.core "int"))
  if isWithin bits bits value then some value else none

def float? (node : Node) : Option Binary64 := do
  Yaml.float? (← node.numeral? (.core "float"))

def items? (node : Node) : Option (List Node) :=
  match node.untagged with
  | .sequence items => some items
  | .scalar "" .plain => some []
  | _ => none

def list? (item? : Node → Option α) (node : Node) : Option (List α) := do
  (← node.items?).mapM item?

def entries? (node : Node) : Option (List (Node × Node)) :=
  match node.untagged with
  | .mapping entries => some entries
  | .scalar "" .plain => some []
  | _ => none

def fields? (node : Node) : Option (List (String × Node)) := do
  (← node.entries?).mapM fun entry => do return (← entry.1.text?, entry.2)

/-- All that is written under a key. -/
def under (key : String) (fields : List (String × Node)) : List Node :=
  (fields.filter (·.1 == key)).map Prod.snd

/-- The value of a key that must occur once. -/
def field? (fields : List (String × Node)) (key : String) (value? : Node → Option α) : Option α :=
  match under key fields with
  | [node] => value? node
  | _ => none

/-- The value of a key that may be missing. -/
def fieldOr? (fallback : α) (fields : List (String × Node)) (key : String)
    (value? : Node → Option α) : Option α :=
  match under key fields with
  | [] => some fallback
  | [node] => value? node
  | _ => none

end DagDeploy.Yaml.Node
