import DagDeploy.Yaml.Reader
import DagDeploy.Yaml.Writer

/-! Words: texts that a plain scalar holds as they are, on one line. A word that is read ends with
its line, or before the colon behind a key, and the cursor is left at the text that comes next. -/

namespace DagDeploy.Yaml

def isWordChar (c : Char) : Bool :=
  c.isAlphanum || c == '_' || c == '.' || c == '-' || c == '+'

/-- A hyphen or a dot starts a word only before another character. -/
def startsWord : List Char → Bool
  | [] => false
  | c :: rest =>
    c.isAlphanum || c == '_' || ((c == '-' || c == '.') && rest.head?.any fun next => next != c)

def isWord (text : List Char) : Bool := startsWord text && text.all isWordChar

section characters

/-- What tells two characters apart. -/
theorem ne_of_test {test : Char → Bool} {c : Char} (passes : test c = true) (other : Char)
    (fails : test other = false) : c ≠ other := by
  rintro rfl
  rw [passes] at fails
  cases fails

variable {c : Char}

theorem isAlpha_iff : c.isAlpha = true ↔
    (65 ≤ c.toNat ∧ c.toNat ≤ 90) ∨ (97 ≤ c.toNat ∧ c.toNat ≤ 122) := by
  have upper : c.isUpper = true ↔ 65 ≤ c.toNat ∧ c.toNat ≤ 90 := decide_eq_true_iff
  have lower : c.isLower = true ↔ 97 ≤ c.toNat ∧ c.toNat ≤ 122 :=
    Bool.and_eq_true_iff.trans (and_congr decide_eq_true_iff decide_eq_true_iff)
  exact Bool.or_eq_true_iff.trans (or_congr upper lower)

theorem toNat_of_isWordChar (isChar : isWordChar c = true) : 32 < c.toNat ∧ c.toNat < 127 := by
  simp only [isWordChar, Char.isAlphanum, Bool.or_eq_true, isAlpha_iff, Char.isDigit_iff_toNat,
    beq_iff_eq, or_assoc] at isChar
  rcases isChar with upper | lower | ⟨low, high⟩ | rfl | rfl | rfl | rfl
  case inl => omega
  case inr.inl => omega
  case inr.inr.inl =>
    exact ⟨Nat.lt_of_lt_of_le (by decide) low, Nat.lt_of_le_of_lt high (by decide)⟩
  all_goals decide

theorem printable_of_isWordChar (isChar : isWordChar c = true) : ' ' ≤ c ∧ c ≤ '~' := by
  obtain ⟨low, high⟩ := toNat_of_isWordChar isChar
  rw [Char.le_def, Char.le_def, UInt32.le_iff_toNat_le, UInt32.le_iff_toNat_le]
  exact ⟨Nat.le_of_lt low, Nat.le_of_lt_succ high⟩

theorem isBlank_of_isWordChar (isChar : isWordChar c = true) : isBlank c = false := by
  simp [isBlank, ne_of_test isChar ' ' (by decide), ne_of_test isChar '\t' (by decide)]

theorem isLineBreak_of_isWordChar (isChar : isWordChar c = true) : isLineBreak c = false := by
  simp [isLineBreak, ne_of_test isChar '\n' (by decide),
    ne_of_test isChar '\u2028' (by decide), ne_of_test isChar '\u2029' (by decide)]

theorem past_of_isWordChar (isChar : isWordChar c = true) (line column : Nat) :
    Mark.past ⟨line, column, column⟩ c = ⟨line, column + 1, column + 1⟩ := by
  have size : c.utf8Size = 1 := by
    rw [Char.utf8Size_eq_one_iff]
    have bound := (toNat_of_isWordChar isChar).2
    rw [UInt32.le_iff_toNat_le]
    change c.toNat ≤ 127
    omega
  simp [Mark.past, isLineBreak_of_isWordChar isChar, size]

end characters

/-- Text that comes next: it is not passed over as a gap. -/
def opens : List Char → Bool
  | [] => false
  | c :: _ => !isBlank c && !isLineBreak c && c != '#' && c != byteOrderMark

namespace Cursor

/-- A place outside of all brackets, with as many bytes as columns before it. -/
def outside (line column : Nat) (fresh : Bool) (rest : List Char) : Cursor :=
  ⟨⟨line, column, column⟩, rest, 0, fresh, 0⟩

variable {line column : Nat} {fresh : Bool} {text rest : List Char}

@[simp] theorem rest_outside : (outside line column fresh rest).rest = rest := rfl

@[simp] theorem fresh_outside : (outside line column fresh rest).fresh = fresh := rfl

@[simp] theorem line_outside : (outside line column fresh rest).line = line := rfl

@[simp] theorem column_outside : (outside line column fresh rest).column = column := rfl

@[simp] theorem isBracketed_outside : (outside line column fresh rest).isBracketed = false := rfl

theorem skip_word (isChars : text.all isWordChar = true) :
    (outside line column fresh (text ++ rest)).skip text.length
      = outside line (column + text.length) fresh rest := by
  have moved : text.foldl Mark.past ⟨line, column, column⟩
      = ⟨line, column + text.length, column + text.length⟩ := by
    induction text generalizing column with
    | nil => rfl
    | cons c others ih =>
      rw [List.all_cons, Bool.and_eq_true] at isChars
      rw [List.foldl_cons, past_of_isWordChar isChars.1, ih isChars.2, List.length_cons]
      simp only [Nat.add_assoc, Nat.add_comm 1]
  simp only [skip, outside, List.take_left', List.drop_left', moved]

theorem overGap_pad (count line column : Nat) (fresh : Bool) (rest : List Char) :
    overGap 0 0 false fresh (pad count ++ rest) ⟨line, column, column⟩
      = overGap 0 0 false fresh rest ⟨line, column + count, column + count⟩ := by
  induction count generalizing column with
  | zero => rfl
  | succ count ih =>
    have step : overGap 0 0 false fresh (' ' :: (pad count ++ rest)) ⟨line, column, column⟩
        = overGap 0 0 false fresh (pad count ++ rest) ⟨line, column + 1, column + 1⟩ := rfl
    rw [pad, List.replicate_succ, List.cons_append, ← pad, step, ih, Nat.add_assoc,
      Nat.add_comm 1]

theorem overGap_opens (opening : rest = [] ∨ opens rest = true) (line column : Nat)
    (fresh : Bool) :
    overGap 0 0 false fresh rest ⟨line, column, column⟩ = outside line column fresh rest := by
  cases rest with
  | nil => rfl
  | cons c others =>
    have isText := opening.resolve_left (List.cons_ne_nil c others)
    simp only [opens, isBlank, Bool.and_eq_true, Bool.not_eq_true', Bool.or_eq_false_iff,
      bne_iff_ne, ne_eq, beq_eq_false_iff_ne] at isText
    obtain ⟨⟨⟨⟨noSpace, noTab⟩, noBreak⟩, noComment⟩, noMark⟩ := isText
    simp [overGap, isGap, noSpace, noTab, noBreak, noComment, noMark, outside]

/-- Over the blanks of a line. -/
theorem settle_pad (opening : rest = [] ∨ opens rest = true) (count : Nat) :
    (outside line column fresh (pad count ++ rest)).settle
      = outside line (column + count) fresh rest := by
  rw [settle]
  exact (overGap_pad count line column fresh rest).trans (overGap_opens opening _ _ _)

theorem settle_opens (opening : rest = [] ∨ opens rest = true) :
    (outside line column fresh rest).settle = outside line column fresh rest :=
  overGap_opens opening line column fresh

/-- Over the end of a line and the indentation of the next one. -/
theorem settle_line (opening : rest = [] ∨ opens rest = true) (count : Nat) :
    (outside line column fresh ('\n' :: (pad count ++ rest))).settle
      = outside (line + 1) count true rest := by
  have step : (outside line column fresh ('\n' :: (pad count ++ rest))).settle
      = overGap 0 0 false (fresh || true) (pad count ++ rest) ⟨line + 1, 0, 0⟩ := rfl
  rw [step, Bool.or_true, overGap_pad, overGap_opens opening, Nat.zero_add]

theorem pass_char {c : Char} (ascii : c.utf8Size = 1) (noBreak : isLineBreak c = false)
    (again : Bool) : (outside line column fresh (c :: rest)).pass again
      = outside line (column + 1) again rest := by
  have moved : Mark.past ⟨line, column, column⟩ c = ⟨line, column + 1, column + 1⟩ := by
    simp [Mark.past, noBreak, ascii]
  simp [pass, skip, outside, moved]

end Cursor

open Cursor

section spacing

variable {line column count : Nat} {rest : List Char}

theorem Spacing.read_opens (opening : rest = [] ∨ opens rest = true) (margin : Nat) (broken : Bool)
    (mark : Mark) : Spacing.read margin broken rest mark = some ⟨[], [], rest, mark⟩ := by
  cases rest with
  | nil => rfl
  | cons c others =>
    have isText := opening.resolve_left (List.cons_ne_nil c others)
    simp only [opens, Bool.and_eq_true, Bool.not_eq_true'] at isText
    simp [Spacing.read, isText]

theorem Spacing.read_pad (opening : rest = [] ∨ opens rest = true) (margin line column : Nat) :
    Spacing.read margin true (pad count ++ rest) ⟨line, column, column⟩
      = some ⟨[], [], rest, ⟨line, column + count, column + count⟩⟩ := by
  induction count generalizing column with
  | zero => exact Spacing.read_opens opening margin true _
  | succ count ih =>
    have step : Spacing.read margin true (' ' :: (pad count ++ rest)) ⟨line, column, column⟩
        = Spacing.read margin true (pad count ++ rest) ⟨line, column + 1, column + 1⟩ := rfl
    rw [pad, List.replicate_succ, List.cons_append, ← pad, step, ih, Nat.add_assoc,
      Nat.add_comm 1]

theorem Spacing.read_line (opening : rest = [] ∨ opens rest = true) (margin : Nat) :
    Spacing.read margin false ('\n' :: (pad count ++ rest)) ⟨line, column, column⟩
      = some ⟨[], ['\n'], rest, ⟨line + 1, count, count⟩⟩ := by
  have step : Spacing.read margin false ('\n' :: (pad count ++ rest)) ⟨line, column, column⟩
      = (Spacing.read margin true (pad count ++ rest) ⟨line + 1, 0, 0⟩).bind fun further =>
        some { further with breaks := '\n' :: further.breaks } := rfl
  rw [step, Spacing.read_pad opening, Nat.zero_add]
  rfl

end spacing

section words

variable {text rest : List Char}

/-- What ends a word: the end of the line, or a colon that stands apart. -/
def stopsWord : List Char → Bool
  | [] => true
  | c :: rest => c == '\n' || (c == ':' && endsWord rest)

theorem plainWord_append (isChars : text.all isWordChar = true) (stops : stopsWord rest = true) :
    plainWord false (text ++ rest) = some text := by
  induction text with
  | nil =>
    cases rest with
    | nil => rfl
    | cons c others =>
      simp only [stopsWord, Bool.or_eq_true, beq_iff_eq, Bool.and_eq_true] at stops
      rcases stops with rfl | ⟨rfl, apart⟩
      · rfl
      · simp [plainWord, isBlank, isLineBreak, apart]
  | cons c others ih =>
    rw [List.all_cons, Bool.and_eq_true] at isChars
    obtain ⟨isChar, isOthers⟩ := isChars
    have noColon := ne_of_test isChar ':' (by decide)
    simp [plainWord, isBlank_of_isWordChar isChar, isLineBreak_of_isWordChar isChar, noColon,
      ih isOthers]

/-- A word starts with a character that means itself, or with one that its second character tells
from a mark. -/
theorem startsWord_cases {c : Char} {others : List Char}
    (starts : startsWord (c :: others) = true) :
    (c ≠ '-' ∧ c ≠ '.') ∨ ∃ next more, others = next :: more ∧ next ≠ c := by
  simp only [startsWord, Bool.or_eq_true, Bool.and_eq_true, beq_iff_eq] at starts
  rcases starts with (letter | rfl) | ⟨-, follows⟩
  · left
    constructor
    all_goals
      rintro rfl
      revert letter
      decide
  · exact .inl (by decide)
  · cases others with
    | nil => cases follows
    | cons next more => exact .inr ⟨next, more, rfl, by simpa using follows⟩

theorem startsPlain_word (word : isWord text = true) : startsPlain false (text ++ rest) = true := by
  rw [isWord, Bool.and_eq_true] at word
  obtain ⟨starts, isChars⟩ := word
  cases text with
  | nil => cases starts
  | cons c others =>
    rw [List.all_cons, Bool.and_eq_true] at isChars
    obtain ⟨isChar, isOthers⟩ := isChars
    have reserved : c ∉ reservedStarts := by
      intro member
      have none : reservedStarts.all (fun other => !isWordChar other) = true := rfl
      have isNot := List.all_eq_true.mp none c member
      rw [isChar] at isNot
      cases isNot
    have noQuestion : (c == '?') = false := beq_false_of_ne (ne_of_test isChar _ (by decide))
    have noColon : (c == ':') = false := beq_false_of_ne (ne_of_test isChar _ (by decide))
    by_cases hyphen : c = '-'
    · rcases startsWord_cases starts with ⟨noHyphen, -⟩ | ⟨next, more, rfl, -⟩
      · exact absurd hyphen noHyphen
      · rw [List.all_cons, Bool.and_eq_true] at isOthers
        simp [startsPlain, hyphen, endsWord, isBlank_of_isWordChar isOthers.1,
          isLineBreak_of_isWordChar isOthers.1]
    · have noHyphen : (c == '-') = false := beq_false_of_ne hyphen
      simp [startsPlain, noHyphen, noQuestion, noColon, reserved, isBlank_of_isWordChar isChar,
        isLineBreak_of_isWordChar isChar]

theorem rest_of_atMark {mark : Char} {cursor : Cursor} (isBound : cursor.atMark mark = true) :
    ∃ more, cursor.rest = mark :: mark :: mark :: more := by
  rw [atMark, Bool.and_eq_true] at isBound
  obtain ⟨-, marks⟩ := isBound
  split at marks
  next a b c more shape =>
    simp only [Bool.and_eq_true, beq_iff_eq] at marks
    obtain ⟨⟨⟨rfl, rfl⟩, rfl⟩, -⟩ := marks
    exact ⟨more, shape⟩
  next => cases marks

/-- A word never looks like the bound of a document. -/
theorem atMark_word {mark : Char} (isMark : mark = '-' ∨ mark = '.')
    (starts : startsWord text = true) {cursor : Cursor} (shape : cursor.rest = text ++ rest) :
    cursor.atMark mark = false := by
  rw [Bool.eq_false_iff]
  intro isBound
  obtain ⟨more, bound⟩ := rest_of_atMark isBound
  rw [shape] at bound
  cases text with
  | nil => cases starts
  | cons c others =>
    obtain ⟨rfl, tail⟩ := List.cons.inj bound
    rcases startsWord_cases starts with ⟨noHyphen, noDot⟩ | ⟨next, further, rfl, different⟩
    · exact isMark.elim noHyphen noDot
    · exact different (List.cons.inj tail).1

theorem atBound_word (starts : startsWord text = true) {cursor : Cursor}
    (shape : cursor.rest = text ++ rest) : cursor.atBound = false := by
  rw [atBound, atMark_word (.inl rfl) starts shape, atMark_word (.inr rfl) starts shape]
  rfl

variable {line column count margin : Nat} {fresh : Bool} {after : List Char}

theorem readPlain_word (word : isWord text = true) (stops : stopsWord rest = true) {next : Cursor}
    (ends : ∀ fuel, plainWords margin (fuel + 1)
      (outside line (column + text.length) fresh rest) = some ([], next)) :
    readPlain margin (outside line column fresh (text ++ rest)) = some (text, next) := by
  obtain ⟨starts, isChars⟩ := Bool.and_eq_true_iff.mp word
  have isBound : (outside line column fresh (text ++ rest)).atBound = false :=
    atBound_word starts rfl
  simp [readPlain, isBound, startsPlain_word word, plainWord_append isChars stops,
    skip_word isChars, ends]

/-- Nothing of the scalar follows on the next line, where the indentation is less. -/
theorem plainWords_line (opening : rest = [] ∨ opens rest = true)
    (left : rest = [] ∨ count < margin) (fuel : Nat) :
    plainWords margin (fuel + 1) (outside line column fresh ('\n' :: (pad count ++ rest)))
      = some ([], outside (line + 1) count true rest) := by
  have spacing : Spacing.read margin false
      (outside line column fresh ('\n' :: (pad count ++ rest))).rest
      (outside line column fresh ('\n' :: (pad count ++ rest))).toMark
        = some ⟨[], ['\n'], rest, ⟨line + 1, count, count⟩⟩ := Spacing.read_line opening margin
  have stops : ((outside (line + 1) count true rest).atEnd || rest.head? == some '#' ||
      decide (count < margin)) = true := by
    rcases left with rfl | fewer
    · rfl
    · simp [fewer]
  rw [plainWords, spacing]
  exact if_pos stops

theorem plainWords_colon (fuel : Nat) :
    plainWords margin (fuel + 1) (outside line column fresh (':' :: rest))
      = some ([], outside line column false (':' :: rest)) := by
  have spacing : Spacing.read margin false (outside line column fresh (':' :: rest)).rest
      (outside line column fresh (':' :: rest)).toMark
        = some ⟨[], [], ':' :: rest, ⟨line, column, column⟩⟩ :=
    Spacing.read_opens (.inr rfl) margin false _
  rw [plainWords, spacing]
  rfl

theorem readLeaf_word (word : isWord text = true) (stops : stopsWord rest = true) {next : Cursor}
    (ends : ∀ fuel, plainWords margin (fuel + 1)
      (outside line (column + text.length) fresh rest) = some ([], next)) (fuel : Nat) :
    readLeaf margin (fuel + 1) (outside line column fresh (text ++ rest))
      = some (.plain (String.ofList text), next.settle) := by
  have read := readPlain_word word stops ends
  cases text with
  | nil => cases word
  | cons c others =>
    have isChars := (Bool.and_eq_true_iff.mp word).2
    rw [List.all_cons, Bool.and_eq_true] at isChars
    have differs := ne_of_test isChars.1
    have noBracket := differs '[' (by decide)
    have noBrace := differs '\x7b' (by decide)
    have noQuote := differs '\'' (by decide)
    have noQuotes := differs '"' (by decide)
    have noBar := differs '|' (by decide)
    have noAngle := differs '>' (by decide)
    have noStar := differs '*' (by decide)
    have noAnchor := differs '&' (by decide)
    have noTag := differs '!' (by decide)
    rw [List.cons_append] at read ⊢
    simp [readLeaf, read, noQuote, noQuotes, noBar, noAngle, atBlockScalar, noAnchor, noTag,
      atProperty]

theorem readLeaf_line (word : isWord text = true) (opening : rest = [] ∨ opens rest = true)
    (left : rest = [] ∨ count < margin) (fuel : Nat) :
    readLeaf margin (fuel + 1) (outside line column fresh (text ++ '\n' :: (pad count ++ rest)))
      = some (.plain (String.ofList text), outside (line + 1) count true rest) := by
  rw [readLeaf_word word rfl (plainWords_line opening left), settle_opens opening]

theorem readLeaf_key (word : isWord text = true) (apart : endsWord rest = true) (fuel : Nat) :
    readLeaf margin (fuel + 1) (outside line column fresh (text ++ ':' :: rest))
      = some (.plain (String.ofList text),
        outside line (column + text.length) false (':' :: rest)) := by
  have stops : stopsWord (':' :: rest) = true := by simp [stopsWord, apart]
  rw [readLeaf_word word stops plainWords_colon, settle_opens (.inr rfl)]

end words

end DagDeploy.Yaml
