import DagDeploy.Yaml.Cursor

/-! Reading scalars of whole lines. A header tells whether the lines are kept or folded, how many
line breaks at the end count, and perhaps the indentation; without this, the first line with text
tells it. Folding takes a line break between two lines that start with text as a space. -/

namespace DagDeploy.Yaml

/-- Which line breaks at the end belong to the text: none, the one of the last line, or all. -/
inductive Chomping where
  | strip
  | clip
  | keep
  deriving DecidableEq, Repr

namespace BlockScalar

def chomping? : Char → Option Chomping
  | '-' => some .strip
  | '+' => some .keep
  | _ => none

/-- The indentation relative to the collection around the scalar. -/
def increment? (c : Char) : Option Nat :=
  if '1' ≤ c ∧ c ≤ '9' then some (c.toNat - '0'.toNat) else none

structure Header where
  chomping : Chomping
  increment : Option Nat
  deriving DecidableEq, Repr

/-- The header, and how many characters it has; its two parts come in any order. -/
def Header.read (text : List Char) : Header × Nat :=
  let first := text.head?
  let second := text.tail.head?
  match first.bind chomping?, first.bind increment? with
  | some chomping, _ =>
    match second.bind increment? with
    | some increment => (⟨chomping, some increment⟩, 2)
    | none => (⟨chomping, none⟩, 1)
  | none, some increment =>
    match second.bind chomping? with
    | some chomping => (⟨chomping, some increment⟩, 2)
    | none => (⟨.clip, some increment⟩, 1)
  | none, none => (⟨.clip, none⟩, 0)

/-- To the end of a line that holds no more than blanks and a comment. -/
def overLine? (cursor : Cursor) : Option Cursor :=
  let blanks := cursor.rest.takeWhile isBlank
  let cursor := cursor.skip blanks.length
  let comment := if cursor.rest.head? == some '#' then cursor.rest.takeWhile (!isLineBreak ·) else []
  let cursor := cursor.skip comment.length
  match cursor.rest with
  | [] => some cursor
  | c :: _ => if isLineBreak c then some (cursor.skip 1) else none

/-- Line breaks with the indentation around them, the place behind, and the widest indentation. -/
structure Gap where
  breaks : List Char
  rest : List Char
  mark : Mark
  widest : Nat
  deriving Repr

/-- The spaces before column `indent`, or all spaces where this is unknown; a tab among them is
refused. -/
def Gap.read (indent : Option Nat) (widest : Nat) : List Char → Mark → Option Gap
  | [], mark => some ⟨[], [], mark, max widest mark.column⟩
  | c :: rest, mark =>
    let before := indent.all fun limit => mark.column < limit
    if c == ' ' && before then Gap.read indent widest rest (mark.past c)
    else if c == '\t' && before then none
    else if isLineBreak c then do
      let further ← Gap.read indent (max widest mark.column) rest (mark.past c)
      return { further with breaks := c :: further.breaks }
    else some ⟨[], c :: rest, mark, max widest mark.column⟩

/-- What the break of a line and the gap behind it stand for, before a line that starts with a blank
or not. -/
def joint (folding afterBlank beforeBlank : Bool) (lineBreak : List Char) (gap : Gap) : List Char :=
  if folding && lineBreak == ['\n'] && !afterBlank && !beforeBlank then
    if gap.breaks.isEmpty then [' '] else gap.breaks
  else lineBreak ++ gap.breaks

def startsBlank (text : List Char) : Bool := text.head?.any isBlank

/-- The lines in column `indent`, each after what joins it to the line before, and how they end: the
last line break and the gap behind it. -/
def lines (folding : Bool) (indent : Nat) :
    Nat → Bool → List Char → Gap → Option (List Char × List Char × Gap)
  | 0, _, _, _ => none
  | fuel + 1, afterBlank, lineBreak, gap =>
    if gap.mark.column != indent || gap.rest.isEmpty then some ([], lineBreak, gap)
    else do
      let blank := startsBlank gap.rest
      let line := gap.rest.takeWhile (!isLineBreak ·)
      let rest := gap.rest.drop line.length
      let lineBreak' := rest.take 1
      let mark := (line ++ lineBreak').foldl Mark.past gap.mark
      let next ← Gap.read (some indent) 0 (rest.drop 1) mark
      let (others, lastBreak, last) ← lines folding indent fuel blank lineBreak' next
      return (joint folding afterBlank blank lineBreak gap ++ line ++ others, lastBreak, last)

def chomp : Chomping → List Char → Gap → List Char
  | .strip, _, _ => []
  | .clip, lineBreak, _ => lineBreak
  | .keep, lineBreak, gap => lineBreak ++ gap.breaks

/-- The text of a scalar whose mark comes next, for entries that start in column `margin` or right
of it. -/
def read (margin : Nat) (cursor : Cursor) : Option (List Char × Cursor) := do
  let folding := cursor.rest.head? == some '>'
  let (header, length) := Header.read cursor.rest.tail
  let body ← overLine? (cursor.skip (length + 1))
  let given := header.increment.map (margin - 1 + ·)
  let gap ← Gap.read given 0 body.rest body.toMark
  let indent := given.getD (max gap.widest (max margin 1))
  let (text, lineBreak, last) ← lines folding indent (body.rest.length + 1) false [] gap
  return (text ++ chomp header.chomping lineBreak last,
    { body with toMark := last.mark, rest := last.rest, fresh := true })

end BlockScalar

end DagDeploy.Yaml
