import DagDeploy.Yaml.Node
import DagDeploy.Yaml.Quoting

/-! Writing documents in block style. A sequence below a key starts on the next line in the column
of the key, a mapping below a key two columns further; within a sequence, nodes start right after
the hyphen. Empty sequences and mappings are written with brackets. Keys that are no scalars are
marked by a question mark. Tags are left out, and copies are written in full: there are neither in
what is written here. -/

namespace DagDeploy.Yaml

def Node.ofText (text : String) : Node :=
  .scalar text (if needsQuotes text then .quoted else .plain)

mutual
/-- What follows the colon of a key in column `indent`. -/
def writeValue (indent : Nat) : Node → List Char
  | .scalar text style => ' ' :: scalarLine indent text style.isPlain
  | .sequence [] => " []\n".toList
  | .sequence (item :: rest) => '\n' :: pad indent ++ writeItems indent (item :: rest)
  | .mapping [] => " \x7b\x7d\n".toList
  | .mapping (entry :: rest) =>
    '\n' :: pad (indent + 2) ++ writeEntries (indent + 2) (entry :: rest)
  | .tagged _ node => writeValue indent node
  | .copied node => writeValue indent (node ())
termination_by structural node => node

/-- A node whose first line already starts in column `indent`. -/
def writeItem (indent : Nat) : Node → List Char
  | .scalar text style => scalarLine (indent - 2) text style.isPlain
  | .sequence [] => "[]\n".toList
  | .sequence (item :: rest) => writeItems indent (item :: rest)
  | .mapping [] => "\x7b\x7d\n".toList
  | .mapping (entry :: rest) => writeEntries indent (entry :: rest)
  | .tagged _ node => writeItem indent node
  | .copied node => writeItem indent (node ())
termination_by structural node => node

def writeItems (indent : Nat) : List Node → List Char
  | [] => []
  | [item] => '-' :: ' ' :: writeItem (indent + 2) item
  | item :: rest =>
    '-' :: ' ' :: writeItem (indent + 2) item ++ pad indent ++ writeItems indent rest
termination_by structural items => items

def writeEntry (indent : Nat) : Node × Node → List Char
  | (.scalar text style, value) =>
    inlineScalar text.toList style.isPlain ++ ':' :: writeValue indent value
  | (key, value) =>
    '?' :: ' ' :: writeItem (indent + 2) key ++ pad indent ++
      ':' :: ' ' :: writeItem (indent + 2) value
termination_by structural entry => entry

def writeEntries (indent : Nat) : List (Node × Node) → List Char
  | [] => []
  | [entry] => writeEntry indent entry
  | entry :: rest => writeEntry indent entry ++ pad indent ++ writeEntries indent rest
termination_by structural entries => entries
end

def Node.write (node : Node) : String := String.ofList (writeItem 0 node)

end DagDeploy.Yaml
