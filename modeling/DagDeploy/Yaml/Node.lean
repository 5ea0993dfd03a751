/-! Documents as trees of scalars, sequences and mappings, some of them with a tag, some of them copies
of others. A scalar keeps its text, and whether it was quoted: only plain scalars can be numbers, but
for texts of whole lines with the tag of a number. The entries of a mapping keep their order, and keys
may repeat. -/

namespace DagDeploy.Yaml

/-- A tag is known by its bytes, which need not be text. -/
structure Tag where
  bytes : List UInt8
  deriving DecidableEq, Repr

namespace Tag

def ofText (text : String) : Tag := ⟨text.toUTF8.toList⟩

/-- The tags that the language itself has start with this. -/
def corePrefix : String := "tag:yaml.org,2002:"

def core (name : String) : Tag := ofText (corePrefix ++ name)

def exclamation : UInt8 := '!'.toUInt8

/-- The tag of scalars that are said to be no more than texts. -/
def bare : Tag := ⟨[exclamation]⟩

def isLocal (tag : Tag) : Bool := tag.bytes.head? == some exclamation

/-- Local tags name a variant, by what follows their exclamation mark. -/
def variant? (tag : Tag) : Option String :=
  if tag.isLocal then
    String.fromUTF8? ⟨(if tag = bare then tag.bytes else tag.bytes.tail).toArray⟩
  else none

end Tag

/-- How the text of a scalar is written: as it is, in lines that keep their breaks, or in a way that
changes it, like quotes. -/
inductive Style where
  | plain
  | literal
  | quoted
  deriving DecidableEq, Repr

def Style.isPlain : Style → Bool
  | .plain => true
  | .literal | .quoted => false

inductive Node where
  | scalar (text : String) (style : Style)
  | sequence (items : List Node)
  | mapping (entries : List (Node × Node))
  | tagged (tag : Tag) (node : Node)
  /-- Copies are made only where somebody looks: a small document may stand for a huge tree. -/
  | copied (node : Unit → Node)

namespace Node

def plain (text : String) : Node := .scalar text .plain

/-- What stands where nothing is written. -/
def empty : Node := .plain ""

/-- A node for itself, copied or not. -/
def untagged : Node → Node
  | .tagged _ node => node.untagged
  | .copied node => (node ()).untagged
  | node => node

def tag? : Node → Option Tag
  | .tagged tag _ => some tag
  | .copied node => (node ()).tag?
  | _ => none

end Node

/-- Readers go this many levels down, and refuse what is nested more deeply. -/
def deepest : Nat := 128

/-- A document as its readers get it: a tree, and how many copies they may look into. -/
structure Document where
  node : Node
  copies : Nat

end DagDeploy.Yaml
