import DagDeploy.Yaml.Draft

/-! Reading documents. A text holds at most one document, perhaps with directives before it; a text
without any reads as the empty scalar. Nodes of block collections stand in one column, right of the
column of the collection around them; only sequences may stand in the column of the mapping whose
value they are. Every function here leaves the cursor at the next mark or scalar, past any gap.

An anchor or a tag belongs to the node that follows, on the same line or on a later one: before a
block collection it ends its line, and on the line of a key it belongs to the key.

Among the items between square brackets, whatever mark follows a question mark is passed over, a
closing bracket too. What follows then stands between brackets by the structure of the document,
but outside of all brackets by its layout, so that columns count there. -/

namespace DagDeploy.Yaml

/-- A key must end on the line where it starts, with its colon not too far from its start, and its
brackets must match. -/
def endsKey (start after : Cursor) : Bool :=
  after.line == start.line && after.bytes ≤ start.bytes + 1024 && after.stray == start.stray

def endsBlockKey (start after : Cursor) : Bool := endsKey start after && after.atIndicator ':'

/-- Within brackets a colon need not stand apart. -/
def endsFlowKey (start after : Cursor) : Bool :=
  endsKey start after && after.rest.head? == some ':'

namespace Cursor

/-- Past the mark of an entry of a block collection. -/
def passBlock (cursor : Cursor) (fresh : Bool) : Cursor := (cursor.pass fresh).settle

/-- Whether a scalar of whole lines comes next. It never is a key, unless a mark says so. -/
def atBlockScalar (cursor : Cursor) : Bool :=
  !cursor.isBracketed && (cursor.rest.head? == some '|' || cursor.rest.head? == some '>')

/-- Whether an entry of the collection around may begin here, whose entries stand left of column
`margin`. -/
def startsEntry (margin : Nat) (cursor : Cursor) : Bool :=
  cursor.fresh && cursor.column + 1 == margin && !cursor.atBlockScalar

/-- A place between brackets: where columns count, it is not left of the collection around. -/
def inner? (margin : Nat) (cursor : Cursor) : Option Cursor :=
  if cursor.isBracketed || margin ≤ cursor.column + 1 then some cursor else none

/-- Past a mark between brackets, to what follows it. -/
def passFlow (margin : Nat) (fresh : Bool) (cursor : Cursor) : Option Cursor :=
  (cursor.pass fresh).settle.inner? margin

/-- Past a mark between brackets that starts a key or a value. -/
def passMark (margin : Nat) (cursor : Cursor) : Option Cursor :=
  cursor.passFlow margin (!cursor.isBracketed)

/-- Past a closing bracket in the place of a key. -/
def passStray (margin : Nat) (cursor : Cursor) : Option Cursor :=
  { cursor.passClosing with stray := cursor.stray + 1 }.settle.inner? margin

/-- Whether a mark comes next between brackets; where columns count, it stands apart, and starts an
entry. -/
def atFlowMark (margin : Nat) (mark : Char) (cursor : Cursor) : Bool :=
  if cursor.isBracketed then cursor.rest.head? == some mark
  else cursor.atIndicator mark && cursor.startsEntry margin

def atAny (marks : List Char) (cursor : Cursor) : Bool := cursor.rest.head?.any (marks.contains ·)

/-- Whether no scalar or bracket follows the properties of a node, which then is empty. Outside of
brackets these must be right of the collection around; only the mark of a scalar of whole lines may
stand in its column. -/
def lacksLeaf (margin : Nat) (cursor : Cursor) : Bool :=
  cursor.atAny [',', ']', '}'] ||
    if cursor.isBracketed then cursor.rest.head? == some ':'
    else
      cursor.atIndicator ':' || (cursor.column < margin &&
        !(cursor.atBlockScalar && cursor.column + 1 == margin))

/-- To the next item between brackets: past a comma, unless it is the first. -/
def toItem (margin : Nat) (first : Bool) (cursor : Cursor) : Option Cursor :=
  if first then some cursor
  else if cursor.rest.head? == some ',' then cursor.passFlow margin true
  else none

end Cursor

/-- Whether an item between brackets is a key. Where columns count, keys are what stands in the
column of the collection around, and nothing else. -/
def isFlowKey? (margin : Nat) (start after : Cursor) : Option Bool :=
  if start.isBracketed then some (endsFlowKey start after)
  else
    let isKey := endsBlockKey start after
    if isKey == start.startsEntry margin then some isKey else none

/-- Whether a node may stand where no key may stand. -/
def isFlowContent (margin : Nat) (start after : Cursor) : Bool :=
  start.isBracketed || !start.fresh || !(start.startsEntry margin || endsBlockKey start after)

mutual
/-- A scalar, an alias, or a collection in brackets, with its properties. Continuation lines of plain
scalars start in column `margin` or right of it, unless within brackets. -/
def readLeaf (margin : Nat) : Nat → Cursor → Option (Source × Cursor)
  | 0, _ => none
  | fuel + 1, cursor => do
    let (node, after) ← match cursor.rest with
      | '[' :: _ => do
        let (items, after) ← readItems margin true fuel cursor.passOpening.settle
        pure (Draft.sequence items, after)
      | '{' :: _ => do
        let (entries, after) ← readPairs margin true fuel cursor.passOpening.settle
        pure (Draft.mapping entries, after)
      | '*' :: _ => do
        let (name, after) ← readAnchor cursor
        pure (Draft.alias name, after)
      | c :: _ =>
        if cursor.atProperty then do
          let (property, start) ← Property.read cursor
          let (node, after) ←
            if start.lacksLeaf margin then some (.empty, start) else readLeaf margin fuel start
          pure (← node.withProperty? property, after)
        else if c == '\'' || c == '"' then do
          let (text, after) ← readQuoted c cursor
          pure (Draft.scalar (String.ofList text) .quoted, after)
        else if cursor.atBlockScalar then do
          let (text, after) ← BlockScalar.read margin cursor
          let style := if c == '|' then Style.literal else .quoted
          pure (Draft.scalar (String.ofList text) style, after)
        else do
          let (text, after) ← readPlain margin cursor
          pure (Draft.plain (String.ofList text), after)
      | [] => none
    return (node, after.settle)

/-- The items up to a closing bracket. A key with a value is a mapping of one entry. -/
def readItems (margin : Nat) (first : Bool) : Nat → Cursor → Option (List Source × Cursor)
  | 0, _ => none
  | fuel + 1, cursor =>
    if cursor.rest.head? == some ']' then some ([], cursor.passClosing)
    else do
      let start ← cursor.toItem margin first
      if start.rest.head? == some ']' then return ([], start.passClosing)
      else if start.atFlowMark margin '?' then
        let (key, after) ← readMarkedKey margin fuel (← start.passMark margin)
        let (value, after) ←
          if after.atFlowMark margin ':' then
            readFlowValue margin ']' fuel (← after.passMark margin)
          else some (.empty, after)
        let (others, after) ← readItems margin false fuel after
        return (.mapping [(key, value)] :: others, after)
      else
        let (item, after) ← readLeaf margin fuel start
        let after ← after.inner? margin
        if ← isFlowKey? margin start after then
          let (value, after) ← readFlowValue margin ']' fuel (← after.passFlow margin false)
          let (others, after) ← readItems margin false fuel after
          return (.mapping [(item, value)] :: others, after)
        else
          let (others, after) ← readItems margin false fuel after
          return (item :: others, after)

/-- A key after a question mark among items; where a mark takes its place, this is passed over. -/
def readMarkedKey (margin : Nat) : Nat → Cursor → Option (Source × Cursor)
  | 0, _ => none
  | fuel + 1, cursor =>
    if cursor.atFlowMark margin ':' then do return (.empty, ← cursor.passMark margin)
    else if cursor.rest.head? == some ',' then do return (.empty, ← cursor.passFlow margin true)
    else if cursor.rest.head? == some ']' then do return (.empty, ← cursor.passStray margin)
    else readContent margin fuel cursor

/-- The value behind a colon, if there is one before the next comma or closing bracket. -/
def readFlowValue (margin : Nat) (close : Char) : Nat → Cursor → Option (Source × Cursor)
  | 0, _ => none
  | fuel + 1, cursor =>
    if cursor.atAny [',', close] then some (.empty, cursor) else readContent margin fuel cursor

/-- A marked key or a value between brackets. -/
def readContent (margin : Nat) : Nat → Cursor → Option (Source × Cursor)
  | 0, _ => none
  | fuel + 1, cursor => do
    let (node, after) ← readLeaf margin fuel cursor
    if isFlowContent margin cursor after then return (node, ← after.inner? margin) else none

/-- The entries up to a closing brace. Values may be missing. -/
def readPairs (margin : Nat) (first : Bool) : Nat → Cursor → Option (List (Source × Source) × Cursor)
  | 0, _ => none
  | fuel + 1, cursor =>
    if cursor.rest.head? == some '}' then some ([], cursor.passClosing)
    else do
      let start ← cursor.toItem margin first
      if start.rest.head? == some '}' then return ([], start.passClosing)
      else if start.atFlowMark margin '?' then
        let start ← start.passMark margin
        let (key, after) ←
          if start.atFlowMark margin ':' || start.atAny [',', '}'] then some (.empty, start)
          else readContent margin fuel start
        let (value, after) ←
          if after.atFlowMark margin ':' then
            readFlowValue margin '}' fuel (← after.passMark margin)
          else some (.empty, after)
        let (others, after) ← readPairs margin false fuel after
        return ((key, value) :: others, after)
      else
        let (key, after) ← readLeaf margin fuel start
        let after ← after.inner? margin
        let (value, after) ←
          if ← isFlowKey? margin start after then
            readFlowValue margin '}' fuel (← after.passFlow margin false)
          else some (.empty, after)
        let (others, after) ← readPairs margin false fuel after
        return ((key, value) :: others, after)
end

mutual
/-- The node of an entry. It starts in column `margin` or right of it, or is empty; the mark of a
scalar of whole lines, and an `inline` sequence, may also stand one column to the left. -/
def readNode (margin : Nat) (inline : Bool) : Nat → Cursor → Option (Source × Cursor)
  | 0, _ => none
  | fuel + 1, cursor =>
    if cursor.atEnd then some (.empty, cursor)
    else if cursor.column < margin then
      if inline && cursor.column + 1 == margin && cursor.atIndicator '-' then do
        let (items, after) ← readBlockItems cursor.column fuel cursor
        return (.sequence items, after)
      else if cursor.column + 1 == margin && cursor.atBlockScalar then readLeaf margin fuel cursor
      else some (.empty, cursor)
    else if cursor.atIndicator '-' then
      if cursor.fresh then do
        let (items, after) ← readBlockItems cursor.column fuel cursor
        return (.sequence items, after)
      else none
    else if cursor.atIndicator '?' then
      if cursor.fresh then do
        let (entries, after) ← readBlockEntries cursor.column fuel cursor
        return (.mapping entries, after)
      else none
    else do
      let (node, after) ←
        if cursor.atProperty then do
          let (property, start) ← Property.read cursor
          let (node, after) ←
            if start.atIndicator ':' then some (.empty, start)
            else readNode margin inline fuel start
          pure (← node.withProperty? property, after)
        else readLeaf margin fuel cursor
      if cursor.fresh && endsBlockKey cursor after then
        let (entries, after) ← readBlockEntries cursor.column fuel cursor
        return (.mapping entries, after)
      else return (node, after)

/-- The items of a sequence in a column, as long as they come. -/
def readBlockItems (column : Nat) : Nat → Cursor → Option (List Source × Cursor)
  | 0, _ => none
  | fuel + 1, cursor =>
    if cursor.column == column && cursor.fresh && cursor.atIndicator '-' then do
      let (item, after) ← readNode (column + 1) false fuel (cursor.passBlock true)
      let (others, after) ← readBlockItems column fuel after
      return (item :: others, after)
    else some ([], cursor)

/-- The entries of a mapping in a column, as long as they come. -/
def readBlockEntries (column : Nat) : Nat → Cursor → Option (List (Source × Source) × Cursor)
  | 0, _ => none
  | fuel + 1, cursor =>
    if cursor.atEnd || cursor.column != column || !cursor.fresh then some ([], cursor)
    else if cursor.atIndicator '?' then do
      let (key, after) ← readNode (column + 1) true fuel (cursor.passBlock true)
      if !after.atEnd && after.column == column && after.fresh && after.atIndicator ':' then
        let (value, after) ← readNode (column + 1) true fuel (after.passBlock true)
        let (others, after) ← readBlockEntries column fuel after
        return ((key, value) :: others, after)
      else
        let (others, after) ← readBlockEntries column fuel after
        return ((key, .empty) :: others, after)
    else do
      let (key, after) ← readLeaf (column + 1) fuel cursor
      if endsBlockKey cursor after then
        let (value, after) ← readNode (column + 1) true fuel (after.passBlock false)
        let (others, after) ← readBlockEntries column fuel after
        return ((key, value) :: others, after)
      else none
end

/-- Past the mark of the start or end of a document. -/
def Cursor.passBound (cursor : Cursor) : Cursor := { cursor.skip 3 with fresh := false }.settle

/-- After the document only marks of its end may come. -/
def closes : Nat → Cursor → Bool
  | 0, _ => false
  | fuel + 1, cursor => cursor.rest.isEmpty || (cursor.atMark '.' && closes fuel cursor.passBound)

/-- The place where the document starts, behind its directives and the mark of its start, which must
stand between. -/
def openDocument (fuel : Nat) (cursor : Cursor) : Option (Handles × Cursor) :=
  if cursor.atDirective then do
    let (handles, after) ← readDirectives false [] fuel cursor
    if after.atMark '-' then return (handles, after.passBound) else none
  else if cursor.atMark '-' then some ([], cursor.passBound)
  else some ([], cursor)

/-- Each step of reading goes on in the text or one level down. -/
def stepsFor (text : List Char) : Nat := 4 * text.length + 16

def Document.read (text : String) : Option Document :=
  let chars := text.toList
  if !chars.all isText then none
  else
    let chars := unifyBreaks chars
    let fuel := stepsFor chars
    let start := (Cursor.start chars).settle
    if start.rest.isEmpty then some ⟨.empty, 0⟩
    else if start.atMark '.' then none
    else do
      let (handles, body) ← openDocument fuel start
      let (source, after) ← readNode 0 false fuel body
      if closes fuel after then source.resolve (handles ++ .standard) else none

end DagDeploy.Yaml
