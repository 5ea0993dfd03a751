import DagDeploy.Yaml.Plain

/-! How a text is written as a scalar. A text that would read as something else, or that holds what
a plain scalar cannot, is quoted: in single quotes where nothing has to be escaped, line by line
where it has line feeds, in double quotes otherwise. -/

namespace DagDeploy.Yaml

def isBreak (c : Char) : Bool :=
  c == '\n' || c == '\r' || c == '\u0085' || c == '\u2028' || c == '\u2029'

/-- Line feeds, and the printable characters but the byte order mark. -/
def isPrintable (c : Char) : Bool :=
  c == '\n' || (' ' ≤ c && c ≤ '~') || ('\u00a0' ≤ c && c ≤ '\ud7ff')
    || ('\ue000' ≤ c && c ≤ '\ufffd' && c != '\ufeff') || '\ufffd'.toNat + 2 < c.toNat

def isSeparator (c : Char) : Bool := c == ' ' || c == '\t' || isBreak c

def separates : List Char → Bool
  | [] => true
  | c :: _ => isSeparator c

/-- Characters that mean something else at the start of a plain scalar. -/
def indicators : List Char :=
  [',', '[', ']', '{', '}', '#', '&', '*', '!', '|', '>', '\'', '"', '%', '@', '\x60']

def startsIndicator : List Char → Bool
  | [] => false
  | c :: rest => indicators.contains c || (['?', ':', '-'].contains c && separates rest)

/-- A colon before a separator or a number sign after one, at any later place. -/
def holdsIndicator : List Char → Bool
  | [] => false
  | c :: rest =>
    (c == ':' && separates rest) || (isSeparator c && rest.head? == some '#') || holdsIndicator rest

def isMarker (text : List Char) : Bool :=
  "---".toList.isPrefixOf text || "...".toList.isPrefixOf text

def canBePlain (text : List Char) : Bool :=
  text.all isPrintable && !text.any isBreak
    && text.head? != some ' ' && text.getLast? != some ' '
    && !isMarker text && !startsIndicator text && !holdsIndicator text

/-- Texts that read as something else, and those that only look like a number. -/
def isAmbiguous (text : String) : Bool :=
  Plain.of text != .text || Plain.looksOctal text.toList

def needsQuotes (text : String) : Bool := isAmbiguous text || !canBePlain text.toList

/-- Whether a character of one kind stands right before one of the other kind. -/
def adjoins (first second : Char → Bool) : List Char → Bool
  | [] => false
  | c :: rest => (first c && rest.head?.any second) || adjoins first second rest

/-- A space before a line break would be lost in every style but double quotes. -/
def endsLineInSpace (text : List Char) : Bool := adjoins (· == ' ') isBreak text

/-- A space after a line break would be taken for indentation in single quotes. -/
def startsLineInSpace (text : List Char) : Bool := adjoins isBreak (· == ' ') text

def pad (indent : Nat) : List Char := List.replicate indent ' '

/-- The lines of a text: each one but the first is indented where a character of it comes. -/
def indented (indent : Nat) (atStart : Bool) (write : Char → List Char) : List Char → List Char
  | [] => []
  | c :: rest =>
    if isBreak c then c :: indented indent true write rest
    else (if atStart then pad indent else []) ++ write c ++ indented indent false write rest

def endsInBreak (text : List Char) : Bool := text.getLast?.any isBreak

/-- A quote within single quotes is written twice. -/
def doubled (c : Char) : List Char := if c = '\'' then ['\'', '\''] else [c]

def singleQuoted (indent : Nat) (text : List Char) : List Char :=
  '\'' :: indented indent false doubled text ++ (if endsInBreak text then pad indent else []) ++ ['\'']

def canBeSingleQuoted (text : List Char) : Bool :=
  text.all isPrintable && !endsLineInSpace text && !startsLineInSpace text

def hexDigits (width value : Nat) : List Char :=
  let digits := (Nat.toDigits 16 value).map Char.toUpper
  List.replicate (width - digits.length) '0' ++ digits

/-- The letters of the escapes that have one. -/
def escapeLetters : List (Char × Char) := [
  ('\x00', '0'), ('\x07', 'a'), ('\x08', 'b'), ('\t', 't'), ('\n', 'n'), ('\x0b', 'v'),
  ('\x0c', 'f'), ('\r', 'r'), ('\x1b', 'e'), ('"', '"'), ('\\', '\\'), ('\u0085', 'N'),
  ('\u2028', 'L'), ('\u2029', 'P')]

def escape (c : Char) : List Char :=
  match escapeLetters.lookup c with
  | some letter => ['\\', letter]
  | none =>
    if isPrintable c then [c]
    else if c.toNat ≤ 0xff then '\\' :: 'x' :: hexDigits 2 c.toNat
    else if c.toNat ≤ 0xffff then '\\' :: 'u' :: hexDigits 4 c.toNat
    else '\\' :: 'U' :: hexDigits 8 c.toNat

def doubleQuoted (text : List Char) : List Char := '"' :: text.flatMap escape ++ ['"']

/-- A text of several lines, below a header that tells the indentation where the text starts with a
separator, and how many line breaks end it. -/
def literal (indent : Nat) (text : List Char) : List Char :=
  let hint := if text.head?.any fun c => c == ' ' || isBreak c then ['2'] else []
  let chomp :=
    if !endsInBreak text then ['-']
    else if text.dropLast.isEmpty || endsInBreak text.dropLast then ['+']
    else []
  '|' :: hint ++ chomp ++ '\n' :: indented indent true (fun c => [c]) text
    ++ if endsInBreak text then [] else ['\n']

def canBeLiteral (text : List Char) : Bool :=
  text.all isPrintable && text.getLast? != some ' ' && !endsLineInSpace text

/-- A scalar as a key, which stays on one line. -/
def inlineScalar (text : List Char) (isPlain : Bool) : List Char :=
  if isPlain then text
  else if canBeSingleQuoted text && !text.any isBreak then singleQuoted 0 text
  else doubleQuoted text

/-- The rest of a line that starts with a scalar, in a collection in column `indent`. -/
def scalarLine (indent : Nat) (text : String) (isPlain : Bool) : List Char :=
  let chars := text.toList
  if isPlain then chars ++ ['\n']
  else if chars.contains '\n' then
    if canBeLiteral chars then literal (indent + 2) chars else doubleQuoted chars ++ ['\n']
  else if canBeSingleQuoted chars then singleQuoted (indent + 2) chars ++ ['\n']
  else doubleQuoted chars ++ ['\n']

end DagDeploy.Yaml
