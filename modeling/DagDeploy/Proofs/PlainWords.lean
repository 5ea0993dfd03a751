import DagDeploy.Proofs.Numerals
import DagDeploy.Proofs.DocumentReading

/-! Texts that are written as they are: words that start with a letter, and that are no spelling of
a truth value or of nothing. They are no numbers, and hold no mark. -/

namespace DagDeploy.Yaml

section characters

variable {c : Char}

theorem isPrintable_of_isWordChar (isChar : isWordChar c = true) : isPrintable c = true := by
  obtain ⟨above, below⟩ := printable_of_isWordChar isChar
  simp [isPrintable, above, below]

theorem isSeparator_of_isWordChar (isChar : isWordChar c = true) : isSeparator c = false := by
  have differs := ne_of_test isChar
  simp [isSeparator, isBreak, differs ' ' (by decide), differs '\t' (by decide),
    differs '\n' (by decide), differs '\r' (by decide), differs '\u0085' (by decide),
    differs '\u2028' (by decide), differs '\u2029' (by decide)]

theorem holdsIndicator_word {text : List Char} (isChars : text.all isWordChar = true) :
    holdsIndicator text = false := by
  induction text with
  | nil => rfl
  | cons c rest ih =>
    rw [List.all_cons, Bool.and_eq_true] at isChars
    obtain ⟨isChar, isRest⟩ := isChars
    have noColon := ne_of_test isChar ':' (by decide)
    simp [holdsIndicator, noColon, isSeparator_of_isWordChar isChar, ih isRest]

end characters

section letters

variable {c : Char} {rest : List Char}

theorem isDigit_of_isAlpha (letter : c.isAlpha = true) : c.isDigit = false := by
  rw [isAlpha_iff] at letter
  rw [← Bool.not_eq_true, Char.isDigit_iff_toNat]
  change ¬(48 ≤ c.toNat ∧ c.toNat ≤ 57)
  omega

theorem signed?_letter (letter : c.isAlpha = true) : signed? (c :: rest) = none := by
  have noMinus := ne_of_test letter '-' (by decide)
  have noPlus := ne_of_test letter '+' (by decide)
  have noZero := ne_of_test letter '0' (by decide)
  simp [signed?, unsigned?, magnitude?, noMinus, noPlus, noZero, hasSuperfluousZero, Decimal.nat?,
    isDigit_of_isAlpha letter]

theorem looksOctal_letter (letter : c.isAlpha = true) : Plain.looksOctal (c :: rest) = false := by
  have noMinus := ne_of_test letter '-' (by decide)
  have noPlus := ne_of_test letter '+' (by decide)
  have noZero := ne_of_test letter '0' (by decide)
  simp [Plain.looksOctal, noMinus, noPlus, hasSuperfluousZero, noZero]

theorem float?_letter (letter : c.isAlpha = true) : Yaml.float? (c :: rest) = none := by
  have noMinus := ne_of_test letter '-' (by decide)
  have noPlus := ne_of_test letter '+' (by decide)
  have noDot := ne_of_test letter '.' (by decide)
  have noDecimal : decimal? (c :: rest) = none := by
    simp [decimal?, isDigit_of_isAlpha letter, noDot, Decimal.nat?]
  simp [Yaml.float?, noMinus, noPlus, noDot, infinities, nans, finite?, noDecimal]

end letters

theorem canBePlain_letter {c : Char} {rest : List Char} (letter : c.isAlpha = true)
    (isChars : (c :: rest).all isWordChar = true) : canBePlain (c :: rest) = true := by
  have differs := ne_of_test letter
  have isChar : ∀ other ∈ c :: rest, isWordChar other = true := List.all_eq_true.mp isChars
  have printable : (c :: rest).all isPrintable = true :=
    List.all_eq_true.mpr fun other member => isPrintable_of_isWordChar (isChar other member)
  have noBreak : (c :: rest).any isBreak = false := by
    rw [List.any_eq_false]
    intro other member isBreak
    have noSeparator := isSeparator_of_isWordChar (isChar other member)
    rw [isSeparator, isBreak, Bool.or_true] at noSeparator
    cases noSeparator
  have noSpace : (c :: rest).getLast? ≠ some ' ' := by
    intro last
    have member := isChar ' ' (List.mem_of_getLast? last)
    cases member
  have noMarker : isMarker (c :: rest) = false := by
    have noHyphen : ('-' == c) = false := beq_false_of_ne (differs '-' (by decide)).symm
    have noDot : ('.' == c) = false := beq_false_of_ne (differs '.' (by decide)).symm
    change ('-' == c && _ || '.' == c && _) = false
    rw [noHyphen, noDot]
    rfl
  have noIndicator : startsIndicator (c :: rest) = false := by
    have others : (indicators ++ ['?', ':', '-']).all (fun other => !other.isAlpha) = true := rfl
    have noMark : c ∉ indicators ++ ['?', ':', '-'] := by
      intro member
      have noLetter := List.all_eq_true.mp others c member
      rw [letter] at noLetter
      cases noLetter
    rw [List.mem_append, not_or] at noMark
    simp only [startsIndicator, List.contains_eq_mem, noMark, decide_false, Bool.false_and,
      Bool.or_self]
  simp [canBePlain, printable, noBreak, noSpace, noMarker, noIndicator,
    holdsIndicator_word isChars, differs ' ' (by decide)]

theorem needsQuotes_letter {text : String} {c : Char} {rest : List Char}
    (shape : text.toList = c :: rest) (letter : c.isAlpha = true)
    (isChars : (c :: rest).all isWordChar = true) (noNull : text ∉ Plain.nulls)
    (noBool : Plain.bools.lookup text = none) : needsQuotes text = false := by
  have isText : Plain.of text = .text := by
    simp [Plain.of, noNull, noBool, Plain.ofNumber, shape, signed?_letter letter,
      looksOctal_letter letter, float?_letter letter]
  simp [needsQuotes, isAmbiguous, isText, shape, looksOctal_letter letter,
    canBePlain_letter letter isChars]

end DagDeploy.Yaml
