import DagDeploy.Yaml.Cursor

/-! Reading scalars. A line break within a scalar counts as a space, and each further one as itself;
blanks around line breaks do not count. Plain scalars end before a comment, before a colon that
stands apart, within brackets before any bracket or comma, and outside of them on a line that is
not indented enough. -/

namespace DagDeploy.Yaml

/-- Blanks, and after them line breaks with the blanks around these. -/
structure Spacing where
  blanks : List Char
  breaks : List Char
  rest : List Char
  mark : Mark
  deriving Repr

namespace Spacing

/-- What blanks and line breaks within a scalar stand for. -/
def folded (spacing : Spacing) : List Char :=
  match spacing.breaks with
  | [] => spacing.blanks
  | ['\n'] => [' ']
  | '\n' :: further => further
  | breaks => breaks

def isNone (spacing : Spacing) : Bool := spacing.blanks.isEmpty && spacing.breaks.isEmpty

/-- The place behind the spacing that follows a place. -/
def moved (spacing : Spacing) (cursor : Cursor) : Cursor :=
  { cursor with toMark := spacing.mark, rest := spacing.rest, fresh := !spacing.breaks.isEmpty }

/-- After a line break, tabs left of column `margin` are refused. -/
def read (margin : Nat) (broken : Bool) : List Char → Mark → Option Spacing
  | [], mark => some ⟨[], [], [], mark⟩
  | c :: rest, mark =>
    if isLineBreak c then do
      let further ← read margin true rest (mark.past c)
      return { further with breaks := c :: further.breaks }
    else if isBlank c then
      if broken then
        if c = '\t' ∧ mark.column < margin then none else read margin broken rest (mark.past c)
      else do
        let further ← read margin broken rest (mark.past c)
        return { further with blanks := c :: further.blanks }
    else some ⟨[], [], c :: rest, mark⟩

end Spacing

def flowMarks : List Char := [',', '?', '[', ']', '{', '}']

/-- The characters up to the next blank, line break or end of a plain scalar. Within brackets a
colon must not touch another mark. -/
def plainWord (bracketed : Bool) : List Char → Option (List Char)
  | [] => some []
  | c :: rest =>
    if isBlank c || isLineBreak c then some []
    else if bracketed && c == ':' && rest.head?.any (flowMarks.contains ·) then none
    else if c == ':' && endsWord rest then some []
    else if bracketed && (c != '?' && flowMarks.contains c) then some []
    else (plainWord bracketed rest).map (c :: ·)

/-- The further words of a plain scalar, each after the spacing before it. -/
def plainWords (margin : Nat) : Nat → Cursor → Option (List Char × Cursor)
  | 0, _ => none
  | fuel + 1, cursor => do
    let spacing ← Spacing.read margin false cursor.rest cursor.toMark
    let next := spacing.moved cursor
    let outside := !cursor.isBracketed && next.column < margin
    if spacing.isNone || next.atEnd || next.rest.head? == some '#' || outside then return ([], next)
    else
      let word ← plainWord cursor.isBracketed next.rest
      if word.isEmpty then return ([], next)
      else
        let (others, after) ← plainWords margin fuel (next.skip word.length)
        return (spacing.folded ++ word ++ others, after)

/-- Characters that cannot start a plain scalar, whatever follows. -/
def reservedStarts : List Char :=
  [',', '[', ']', '{', '}', '#', '&', '*', '!', '|', '>', '\'', '"', '%', '@', '\x60']

def startsPlain (bracketed : Bool) : List Char → Bool
  | [] => false
  | c :: rest =>
    if c == '-' then !endsWord rest
    else if c == '?' || c == ':' then !bracketed && !endsWord rest
    else !reservedStarts.contains c && !isBlank c && !isLineBreak c

def readPlain (margin : Nat) (cursor : Cursor) : Option (List Char × Cursor) := do
  if cursor.atBound || !startsPlain cursor.isBracketed cursor.rest then none
  else
    let word ← plainWord cursor.isBracketed cursor.rest
    let (others, after) ← plainWords margin (cursor.rest.length + 1) (cursor.skip word.length)
    return (word ++ others, after)

/-- Escapes of one letter in double quotes. -/
def escapedLetters : List (Char × Char) := [
  ('0', '\x00'), ('a', '\x07'), ('b', '\x08'), ('t', '\t'), ('\t', '\t'), ('n', '\n'),
  ('v', '\x0b'), ('f', '\x0c'), ('r', '\r'), ('e', '\x1b'), (' ', ' '), ('"', '"'), ('/', '/'),
  ('\\', '\\'), ('N', '\u0085'), ('_', '\u00a0'), ('L', '\u2028'), ('P', '\u2029')]

/-- Escapes by number, with the count of hexadecimal digits. -/
def escapedWidths : List (Char × Nat) := [('x', 2), ('u', 4), ('U', 8)]

def hexDigit? (c : Char) : Option Nat :=
  if c.isDigit then some (c.toNat - '0'.toNat)
  else if 'a' ≤ c ∧ c ≤ 'f' then some (c.toNat - 'a'.toNat + 10)
  else if 'A' ≤ c ∧ c ≤ 'F' then some (c.toNat - 'A'.toNat + 10)
  else none

/-- The character with a number of exactly `width` hexadecimal digits. -/
def numbered? (width : Nat) (text : List Char) : Option Char := do
  let digits := text.take width
  if digits.length < width then none
  else
    let number ← digits.foldlM (fun value c => (hexDigit? c).map (value * 16 + ·)) 0
    if number < 0xd800 ∨ (0xe000 ≤ number ∧ number ≤ 0x10ffff) then some (Char.ofNat number)
    else none

/-- The character that an escape stands for, and the length of the escape behind its backslash. -/
def escaped? : List Char → Option (Char × Nat)
  | [] => none
  | c :: rest =>
    match escapedLetters.lookup c with
    | some letter => some (letter, 1)
    | none => do
      let width ← escapedWidths.lookup c
      let letter ← numbered? width rest
      return (letter, width + 1)

/-- The text up to the closing quote. A single quote is written twice; a backslash in double quotes
escapes what follows, a line break included. -/
def quotedText (quote : Char) : Nat → Cursor → Option (List Char × Cursor)
  | 0, _ => none
  | fuel + 1, cursor =>
    if cursor.atBound then none
    else
      match cursor.rest with
      | [] => none
      | c :: rest =>
        if c == quote then
          if quote == '\'' && rest.head? == some '\'' then do
            let (others, after) ← quotedText quote fuel (cursor.skip 2)
            return ('\'' :: others, after)
          else some ([], cursor.pass false)
        else if quote == '"' && c == '\\' then
          if rest.head?.any isLineBreak then do
            let next := cursor.skip 2
            let spacing ← Spacing.read 0 true next.rest next.toMark
            let (others, after) ← quotedText quote fuel (spacing.moved next)
            return (spacing.breaks ++ others, after)
          else do
            let (letter, length) ← escaped? rest
            let (others, after) ← quotedText quote fuel (cursor.skip (length + 1))
            return (letter :: others, after)
        else if isBlank c || isLineBreak c then do
          let spacing ← Spacing.read 0 false cursor.rest cursor.toMark
          let (others, after) ← quotedText quote fuel (spacing.moved cursor)
          return (spacing.folded ++ others, after)
        else do
          let (others, after) ← quotedText quote fuel (cursor.skip 1)
          return (c :: others, after)

/-- The text of a scalar whose opening quote comes next. -/
def readQuoted (quote : Char) (cursor : Cursor) : Option (List Char × Cursor) :=
  quotedText quote (cursor.rest.length + 1) (cursor.skip 1)

end DagDeploy.Yaml
