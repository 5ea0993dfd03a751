import DagDeploy.Decimal
import DagDeploy.Yaml.BlockScalar
import DagDeploy.Yaml.Node
import DagDeploy.Yaml.Scalar

/-! What stands before a node: an anchor, by which aliases refer to it, and a tag. A tag is written
in full between angle brackets, or starts with a handle, for which directives before the document may
say what it stands for. -/

namespace DagDeploy.Yaml

/-- Characters of anchors, handles and names of directives. -/
def isNameChar (c : Char) : Bool := c.isAlphanum || c == '-' || c == '_'

namespace Cursor

def name (cursor : Cursor) : List Char := cursor.rest.takeWhile isNameChar

def overBlanks (cursor : Cursor) : Cursor :=
  cursor.skip (cursor.rest.takeWhile isBlank).length

def atProperty (cursor : Cursor) : Bool :=
  cursor.rest.head? == some '&' || cursor.rest.head? == some '!'

end Cursor

section names

/-- What may follow the name of an anchor. -/
def endsName (rest : List Char) : Bool :=
  endsWord rest || rest.head?.any (['?', ':', ',', ']', '}', '%', '@', '\x60'].contains ·)

/-- The name behind the mark of an anchor or of an alias. -/
def readAnchor (cursor : Cursor) : Option (String × Cursor) :=
  let start := cursor.pass false
  let after := start.skip start.name.length
  if start.name.isEmpty || !endsName after.rest then none
  else some (String.ofList start.name, after)

end names

section uris

def uriMarks : List Char :=
  [';', '/', '?', ':', '@', '&', '=', '+', '$', '.', '!', '~', '*', '\'', '(', ')']

/-- Where the end is marked otherwise, brackets and commas belong to it too. -/
def isUriChar (enclosed : Bool) (c : Char) : Bool :=
  isNameChar c || uriMarks.contains c || (enclosed && [',', '[', ']'].contains c)

/-- How many bytes follow the first byte of a character. -/
def followers? (byte : Nat) : Option Nat :=
  if byte < 0x80 then some 0
  else if byte / 0x20 == 6 then some 1
  else if byte / 0x10 == 0xe then some 2
  else if byte / 8 == 0x1e then some 3
  else none

/-- Whether a byte may come next, and how many are due after it. -/
def due? (due byte : Nat) : Option Nat :=
  if due == 0 then followers? byte else if byte / 0x40 == 2 then some (due - 1) else none

/-- The bytes of an address, and how many characters it has. Two digits behind a percent sign are a
byte; all bytes of a character are written so, or none. -/
def readUri (enclosed : Bool) (due : Nat) : List Char → Option (List UInt8 × Nat)
  | [] => if due == 0 then some ([], 0) else none
  | '%' :: high :: low :: rest => do
    let byte := (← hexDigit? high) * 16 + (← hexDigit? low)
    let (others, length) ← readUri enclosed (← due? due byte) rest
    return (byte.toUInt8 :: others, length + 3)
  | c :: rest =>
    if due != 0 || c == '%' then none
    else if isUriChar enclosed c then do
      let (others, length) ← readUri enclosed 0 rest
      return (c.toUInt8 :: others, length + 1)
    else some ([], 0)

/-- A byte zero ends what is written, even if more follows. -/
def upToZero (bytes : List UInt8) : List UInt8 := bytes.takeWhile (· != 0)

/-- The address that comes next, of at least one character. -/
def readAddress (enclosed : Bool) (cursor : Cursor) : Option (List UInt8 × Cursor) := do
  let (bytes, length) ← readUri enclosed 0 cursor.rest
  if length == 0 then none else return (upToZero bytes, cursor.skip length)

end uris

/-- A tag as it is written: in full, or behind a handle. -/
structure Label where
  handle : Option String
  suffix : List UInt8
  deriving DecidableEq, Repr

namespace Label

def primary : String := "!"

def secondary : String := "!!"

/-- The handle that comes next: two exclamation marks with a name between them, if there is one. -/
def readHandle (cursor : Cursor) : Option (String × Cursor) :=
  let start := cursor.skip 1
  let after := start.skip start.name.length
  if cursor.rest.head? == some '!' && after.rest.head? == some '!' then
    some (String.ofList ('!' :: start.name ++ ['!']), after.skip 1)
  else none

/-- The exclamation mark alone is a tag in full. -/
def ofSuffix (suffix : List UInt8) : Label :=
  if suffix.isEmpty then ⟨none, Tag.bare.bytes⟩ else ⟨some primary, suffix⟩

/-- A tag must stand apart from what follows, or before a comma within brackets. -/
def endsLabel (cursor : Cursor) : Bool :=
  endsWord cursor.rest || (cursor.isBracketed && cursor.rest.head? == some ',')

def read (cursor : Cursor) : Option (Label × Cursor) := do
  let start := cursor.skip 1
  let (label, after) ←
    if start.rest.head? == some '<' then do
      let (suffix, after) ← readAddress true (start.skip 1)
      if after.rest.head? == some '>' then pure (Label.mk none suffix, after.skip 1) else none
    else
      match readHandle cursor with
      | some (handle, after) => do
        let (suffix, after) ← readAddress false after
        pure (Label.mk (some handle) suffix, after)
      | none => do
        let (suffix, length) ← readUri false 0 start.rest
        pure (ofSuffix (upToZero suffix), start.skip length)
  if endsLabel after then return (label, { after with fresh := false }) else none

end Label

/-- What the handles of a document stand for. -/
abbrev Handles := List (String × List UInt8)

namespace Handles

/-- Directives may say otherwise. -/
def standard : Handles :=
  [(Label.primary, Tag.bare.bytes), (Label.secondary, (Tag.core "").bytes)]

def tag? (handles : Handles) (label : Label) : Option Tag :=
  match label.handle with
  | none => some ⟨label.suffix⟩
  | some handle => (handles.lookup handle).map fun start => ⟨start ++ label.suffix⟩

end Handles

inductive Property where
  | anchor (name : String)
  | label (label : Label)

/-- The property that comes next, and the place behind the gap after it. -/
def Property.read (cursor : Cursor) : Option (Property × Cursor) :=
  if cursor.rest.head? == some '&' then
    (readAnchor cursor).map fun (name, after) => (anchor name, after.settle)
  else (Label.read cursor).map fun (found, after) => (label found, after.settle)

inductive Directive where
  | version (major minor : Nat)
  | handle (name : String) (start : List UInt8)

namespace Directive

/-- A number of at most nine digits. -/
def readNumber (cursor : Cursor) : Option (Nat × Cursor) := do
  let digits := cursor.rest.takeWhile Char.isDigit
  if 9 < digits.length then none
  else return (← Decimal.nat? digits, cursor.skip digits.length)

def readVersion (cursor : Cursor) : Option (Directive × Cursor) := do
  let (major, after) ← readNumber cursor
  if after.rest.head? == some '.' then
    let (minor, after) ← readNumber (after.skip 1)
    return (version major minor, after)
  else none

/-- A handle, which may be the exclamation mark alone, and what it stands for. -/
def readStart (cursor : Cursor) : Option (Directive × Cursor) := do
  let (name, after) ←
    match Label.readHandle cursor with
    | some found => some found
    | none => if cursor.rest.head? == some '!' then some (Label.primary, cursor.skip 1) else none
  if after.rest.head?.any isBlank then
    let (start, after) ← readAddress true after.overBlanks
    if endsWord after.rest then return (handle name start, after) else none
  else none

/-- The directive whose percent sign comes next, and the place behind its line. -/
def read (cursor : Cursor) : Option (Directive × Cursor) := do
  let start := cursor.skip 1
  let after := start.skip start.name.length
  let (directive, after) ←
    if !endsWord after.rest then none
    else if start.name == "YAML".toList then readVersion after.overBlanks
    else if start.name == "TAG".toList then readStart after.overBlanks
    else none
  return (directive, ← BlockScalar.overLine? after)

end Directive

def Cursor.atDirective (cursor : Cursor) : Bool :=
  cursor.column == 0 && cursor.rest.head? == some '%'

/-- Versions 1.1 and 1.2 are known. At most one directive tells the version, and at most one each what
a handle stands for. -/
def readDirectives (versioned : Bool) (handles : Handles) : Nat → Cursor → Option (Handles × Cursor)
  | 0, _ => none
  | fuel + 1, cursor =>
    if cursor.atDirective then do
      let (directive, after) ← Directive.read cursor
      match directive with
      | .version major minor =>
        if versioned || major != 1 || (minor != 1 && minor != 2) then none
        else readDirectives true handles fuel after.settle
      | .handle name start =>
        if (handles.lookup name).isSome then none
        else readDirectives versioned ((name, start) :: handles) fuel after.settle
    else some (handles, cursor)

end DagDeploy.Yaml
