/-! A place in a document: the text that is left, and where it stands. Lines and columns count from
zero, every character is one column wide. All spellings of a line break but two have been unified
before; the line and paragraph separators remain what they are. -/

namespace DagDeploy.Yaml

def isLineBreak (c : Char) : Bool := c == '\n' || c == '\u2028' || c == '\u2029'

def isBlank (c : Char) : Bool := c == ' ' || c == '\t'

def byteOrderMark : Char := '\ufeff'

def unifyBreaks : List Char → List Char
  | [] => []
  | '\r' :: '\n' :: rest => '\n' :: unifyBreaks rest
  | '\r' :: rest => '\n' :: unifyBreaks rest
  | '\u0085' :: rest => '\n' :: unifyBreaks rest
  | c :: rest => c :: unifyBreaks rest

/-- Control characters, unpaired halves and noncharacters at the end of the basic plane are no text. -/
def isText (c : Char) : Bool :=
  c == '\t' || c == '\n' || c == '\r' || (' ' ≤ c && c ≤ '~') || c == '\u0085'
    || ('\u00a0' ≤ c && c ≤ '\ud7ff') || ('\ue000' ≤ c && c ≤ '\ufffd') || '\ufffd'.toNat + 2 < c.toNat

/-- Whether a blank, a line break or the end comes next. -/
def endsWord : List Char → Bool
  | [] => true
  | c :: _ => isBlank c || isLineBreak c

/-- A position, with the bytes of its line before it. -/
structure Mark where
  line : Nat
  column : Nat
  bytes : Nat
  deriving DecidableEq, Repr

def Mark.start : Mark := ⟨0, 0, 0⟩

def Mark.past (mark : Mark) (c : Char) : Mark :=
  if isLineBreak c then ⟨mark.line + 1, 0, 0⟩
  else ⟨mark.line, mark.column + 1, mark.bytes + c.utf8Size⟩

/-- `depth` counts the brackets that are open. `fresh` tells whether an entry of a block collection
may begin here: at the start of a line, or right after the mark of such an entry. `stray` counts the
closing brackets that were passed over in the place of a key. -/
structure Cursor extends Mark where
  rest : List Char
  depth : Nat
  fresh : Bool
  stray : Nat
  deriving Repr

namespace Cursor

def start (text : List Char) : Cursor := ⟨.start, text, 0, true, 0⟩

def isBracketed (cursor : Cursor) : Bool := cursor.depth != 0

def skip (cursor : Cursor) (count : Nat) : Cursor :=
  { cursor with
    toMark := (cursor.rest.take count).foldl Mark.past cursor.toMark
    rest := cursor.rest.drop count }

/-- Past a mark, after which an entry of a block collection may begin or not. -/
def pass (cursor : Cursor) (fresh : Bool) : Cursor := { cursor.skip 1 with fresh }

def passOpening (cursor : Cursor) : Cursor :=
  { cursor.pass true with depth := cursor.depth + 1 }

/-- A closing bracket may have none to close. -/
def passClosing (cursor : Cursor) : Cursor :=
  { cursor.pass false with depth := cursor.depth - 1 }

/-- Three hyphens or three dots alone at the start of a line bound a document. -/
def atMark (mark : Char) (cursor : Cursor) : Bool :=
  cursor.column == 0 &&
    match cursor.rest with
    | a :: b :: c :: rest => a == mark && b == mark && c == mark && endsWord rest
    | _ => false

def atBound (cursor : Cursor) : Bool := cursor.atMark '-' || cursor.atMark '.'

def atEnd (cursor : Cursor) : Bool := cursor.rest.isEmpty || cursor.atBound

/-- Whether a mark comes next that stands apart from what follows. -/
def atIndicator (mark : Char) (cursor : Cursor) : Bool :=
  match cursor.rest with
  | c :: rest => c == mark && endsWord rest
  | [] => false

/-- What is passed over as a blank: outside of brackets a tab only where no entry may begin, and a
byte order mark at the start of a line. -/
def isGap (depth : Nat) (fresh : Bool) (column : Nat) (c : Char) : Bool :=
  c == ' ' || (c == '\t' && (depth != 0 || !fresh)) || (c == byteOrderMark && column == 0)

/-- Over blanks, comments and line breaks. Outside of brackets a new line allows a new entry. -/
def overGap (depth stray : Nat) (comment fresh : Bool) : List Char → Mark → Cursor
  | [], mark => ⟨mark, [], depth, fresh, stray⟩
  | c :: rest, mark =>
    if isLineBreak c then overGap depth stray false (fresh || depth == 0) rest (mark.past c)
    else if comment then overGap depth stray true fresh rest (mark.past c)
    else if isGap depth fresh mark.column c then overGap depth stray false fresh rest (mark.past c)
    else if c == '#' then overGap depth stray true fresh rest (mark.past c)
    else ⟨mark, c :: rest, depth, fresh, stray⟩

def settle (cursor : Cursor) : Cursor :=
  overGap cursor.depth cursor.stray false cursor.fresh cursor.rest cursor.toMark

end Cursor

end DagDeploy.Yaml
