import DagDeploy.Proofs.FloatOrder
import DagDeploy.Proofs.Numerals

/-! Floating-point numbers are read back from their texts. Of the short texts only one that reads
back is ever taken, so all depends on the text that is left where there is none: it spells out the
exact value, and rounding leaves an exact value as it is. -/

namespace DagDeploy

namespace Binary64

theorem roundDiv_mul (quotient : Nat) {divisor : Nat} (positive : 0 < divisor) :
    roundDiv (quotient * divisor) divisor = quotient := by
  have whole : quotient * divisor / divisor = quotient := Nat.mul_div_cancel _ positive
  have remainder : quotient * divisor % divisor = 0 := Nat.mul_mod_left _ _
  have noHalf : ¬ divisor = 0 := Nat.ne_of_gt positive
  simp [roundDiv, whole, remainder, noHalf, eq_comm]

/-- The nearest number to the exact value of a rank is the one of this rank. -/
theorem rankOfUnits_units (rank : Nat) {scale : Nat} (positive : 0 < scale) :
    rankOfUnits (units rank * scale) scale = rank := by
  have whole : units rank * scale / scale = units rank := Nat.mul_div_cancel _ positive
  rw [rankOfUnits, whole]
  rcases rank_cases rank with small | ⟨power, part, inside, rfl⟩
  · have bound : rank.log2 < 52 + 1 := by
      by_cases zero : rank = 0
      · subst zero
        decide
      · rw [Nat.log2_lt zero]
        exact Nat.lt_trans small (by decide)
    have bottom : rank.log2 - 52 = 0 := by omega
    simp only [units_small small, bottom, Nat.zero_mul, Nat.zero_add, Nat.pow_eq, Nat.pow_zero,
      Nat.mul_one]
    exact roundDiv_mul rank positive
  · rw [units_normal power inside]
    have digits : ((ranksPerPower + part) * Nat.pow 2 power).log2 = 52 + power := by
      have positive : 0 < Nat.pow 2 power := Nat.pow_pos (by decide)
      have nonzero : (ranksPerPower + part) * Nat.pow 2 power ≠ 0 :=
        Nat.mul_ne_zero (by simp only [ranksPerPower]; omega) (Nat.ne_of_gt positive)
      rw [Nat.log2_eq_iff nonzero, Nat.pow_add, Nat.add_right_comm, Nat.pow_add]
      simp only [ranksPerPower] at inside ⊢
      exact ⟨Nat.mul_le_mul_right _ (by omega), Nat.mul_lt_mul_of_pos_right (by omega) positive⟩
    have scaled : 0 < scale * Nat.pow 2 power := Nat.mul_pos positive (Nat.pow_pos (by decide))
    rw [digits, Nat.add_sub_cancel_left, Nat.mul_assoc, Nat.mul_comm (Nat.pow 2 power),
      roundDiv_mul _ scaled, Nat.succ_mul, Nat.add_assoc]

theorem units_pos {rank : Nat} (nonzero : rank ≠ 0) : 0 < units rank := by
  rw [← units_zero]
  exact units_strictMono (Nat.pos_of_ne_zero nonzero)

theorem log2_mul_fives {count : Nat} (positive : 0 < count) (power : Nat) :
    power ≤ (count * Nat.pow 5 power).log2 := by
  have fives : 0 < Nat.pow 5 power := Nat.pow_pos (by decide)
  have nonzero : count * Nat.pow 5 power ≠ 0 := Nat.ne_of_gt (Nat.mul_pos positive fives)
  rw [Nat.le_log2 nonzero]
  calc 2 ^ power
    _ ≤ Nat.pow 5 power := Nat.pow_le_pow_left (by decide) power
    _ ≤ count * Nat.pow 5 power := Nat.le_mul_of_pos_left _ positive

/-- A decimal that equals the value of a rank has this rank: each of its places takes a power of two
and one of five. -/
theorem Decimal.rank_fives {places power : Nat} (next : places = power + 1)
    (ones : unitsPerOne = Nat.pow 2 places) (rank : Nat) :
    (⟨units rank * Nat.pow 5 places, .negSucc power⟩ : Decimal).rank = rank := by
  by_cases zero : rank = 0
  · rw [zero, units_zero, Nat.zero_mul, Decimal.rank, if_pos rfl]
  · have positive := units_pos zero
    have fives : 0 < Nat.pow 5 places := Nat.pow_pos (by decide)
    have tens : 0 < Nat.pow 10 places := Nat.pow_pos (by decide)
    have nonzero : units rank * Nat.pow 5 places ≠ 0 := Nat.ne_of_gt (Nat.mul_pos positive fives)
    have long := log2_mul_fives positive places
    have notLarge : ¬ (400 : Int) < .negSucc power := by omega
    have notTiny : ¬ (.negSucc power : Int) < -400 - (units rank * Nat.pow 5 places).log2 := by
      omega
    have joined : Nat.pow 5 places * Nat.pow 2 places = Nat.pow 10 places :=
      (Nat.mul_pow 5 2 places).symm
    have fraction : Decimal.fraction ⟨units rank * Nat.pow 5 places, .negSucc power⟩
        = (units rank * Nat.pow 10 places, Nat.pow 10 places) := by
      rw [← joined, Decimal.fraction, ones, Nat.mul_assoc, joined, next]
    rw [Decimal.rank, if_neg nonzero, if_neg notLarge, if_neg notTiny, fraction]
    exact rankOfUnits_units rank tens

theorem rank_exact (rank : Nat) : (exact rank).rank = rank := by
  obtain ⟨places, power, next, ones, shape⟩ : ∃ places power, places = power + 1 ∧
      unitsPerOne = Nat.pow 2 places ∧
      exact rank = ⟨units rank * Nat.pow 5 places, .negSucc power⟩ := by
    unfold unitsPerOne exact
    exact ⟨1074, 1073, rfl, rfl, rfl⟩
  rw [shape, Decimal.rank_fives next ones]

theorem isFinite_ofRank (negative : Bool) (rank : Nat) :
    (ofRank negative rank).isFinite = decide (rank < top) := by
  have bounded : min rank top < top ↔ rank < top := by omega
  simp only [ofRank, isFinite, clip, bounded]

theorem ofRank_inj {negative : Bool} {rank other : Nat} (finite : rank < top)
    (otherFinite : other < top) (same : ofRank negative rank = ofRank negative other) :
    rank = other := by
  have clipped : clip rank = clip other := by
    injection same
  have places : min rank top = min other top := congrArg Fin.val clipped
  omega

end Binary64

namespace Yaml

open Binary64

theorem exponent?_ofInt (value : Int) : exponent? ('e' :: Decimal.ofInt value) = some value := by
  cases value with
  | ofNat n =>
    have read := Decimal.nat?_ofNat n
    have digits : ∀ c ∈ Decimal.ofNat n, c.isDigit = true := fun _ => Decimal.isDigit_of_mem_ofNat
    rw [Decimal.ofInt]
    cases shape : Decimal.ofNat n with
    | nil => exact absurd shape (Decimal.ofNat_ne_nil n)
    | cons c rest =>
      rw [shape] at read digits
      have digit := digits c List.mem_cons_self
      have noMinus := ne_of_test digit '-' rfl
      have noPlus := ne_of_test digit '+' rfl
      simp [exponent?, noMinus, noPlus, read]
  | negSucc n =>
    simp only [Decimal.ofInt, exponent?, Decimal.nat?_ofNat]
    rfl

theorem decimal?_spellOut (decimal : Binary64.Decimal) :
    decimal? (spellOut decimal) = some decimal := by
  have digits : ∀ c ∈ Decimal.ofNat decimal.digits, c.isDigit = true :=
    fun _ => Decimal.isDigit_of_mem_ofNat
  have whole : (spellOut decimal).takeWhile Char.isDigit = Decimal.ofNat decimal.digits := by
    rw [spellOut, List.takeWhile_append_of_pos digits]
    exact List.append_nil _
  have rest : (spellOut decimal).dropWhile Char.isDigit
      = 'e' :: Decimal.ofInt decimal.exponent := by
    rw [spellOut, List.dropWhile_append_of_pos digits]
    rfl
  simp [decimal?, whole, rest, Decimal.nat?_ofNat, exponent?_ofInt]

theorem finite?_eq {text : List Char} {decimal : Binary64.Decimal}
    (read : decimal? text = some decimal) (negative : Bool) :
    finite? negative text
      = if decimal.rank < top then some (ofRank negative decimal.rank) else none := by
  simp only [finite?, read, Option.bind_eq_bind, Option.bind_some, ofDecimal, isFinite_ofRank,
    decide_eq_true_eq]

theorem find?_getD_cases {α : Type} (values : List α) (test : α → Bool) (other : α) :
    (∃ value ∈ values, test value = true ∧ (values.find? test).getD other = value) ∨
      (values.find? test).getD other = other := by
  cases found : values.find? test with
  | some value => exact .inl ⟨value, List.mem_of_find?_eq_some found, List.find?_some found, rfl⟩
  | none => exact .inr rfl

/-- A magnitude is written as a short decimal that reads back, or else digit for digit. -/
theorem writeMagnitude_cases (rank : Nat) :
    (∃ decimal, writeMagnitude rank = layout decimal ∧
      finite? false (writeMagnitude rank) = some (ofRank false rank)) ∨
      writeMagnitude rank = spellOut (exact rank) := by
  rcases find?_getD_cases ((candidates rank).map layout)
    (fun text => finite? false text == some (ofRank false rank)) (spellOut (exact rank)) with
    ⟨text, candidate, readsBack, taken⟩ | spelled
  · obtain ⟨decimal, -, rfl⟩ := List.mem_map.mp candidate
    have written : writeMagnitude rank = layout decimal := taken
    refine .inl ⟨decimal, written, ?_⟩
    rw [written]
    exact beq_iff_eq.mp readsBack
  · exact .inr spelled

/-- A magnitude is read back from its text, whichever text it is, and the sign goes with it. -/
theorem finite?_writeMagnitude {rank : Nat} (finite : rank < top) (negative : Bool) :
    finite? negative (writeMagnitude rank) = some (ofRank negative rank) := by
  rcases writeMagnitude_cases rank with ⟨-, -, readsBack⟩ | spelled
  · cases read : decimal? (writeMagnitude rank) with
    | none => simp [finite?, read] at readsBack
    | some decimal =>
      rw [finite?_eq read] at readsBack ⊢
      split at readsBack
      next small =>
        have same := ofRank_inj small finite (Option.some.inj readsBack)
        rw [if_pos small, same]
      next => cases readsBack
  · have read := finite?_eq (decimal?_spellOut (exact rank)) negative
    rw [rank_exact, if_pos finite] at read
    rw [spelled]
    exact read

/-- The text of a magnitude: a digit, and characters of words behind it. -/
def IsMagnitude (text : List Char) : Prop :=
  ∃ c rest, text = c :: rest ∧ c.isDigit = true ∧ rest.all isWordChar = true

theorem IsMagnitude.append {text more : List Char} (magnitude : IsMagnitude text)
    (isChars : more.all isWordChar = true) : IsMagnitude (text ++ more) := by
  obtain ⟨c, rest, rfl, digit, isRest⟩ := magnitude
  exact ⟨c, rest ++ more, rfl, digit, by rw [List.all_append, isRest, isChars]; rfl⟩

theorem isMagnitude_of_digits {text : List Char} (nonempty : text ≠ [])
    (digits : ∀ c ∈ text, c.isDigit = true) : IsMagnitude text := by
  cases text with
  | nil => exact absurd rfl nonempty
  | cons c rest =>
    refine ⟨c, rest, rfl, digits c List.mem_cons_self, List.all_eq_true.mpr fun other member => ?_⟩
    exact isWordChar_of_isDigit (digits other (List.mem_cons_of_mem c member))

theorem IsMagnitude.isWord {text : List Char} (magnitude : IsMagnitude text) (negative : Bool) :
    isWord ((if negative then ['-'] else []) ++ text) = true := by
  obtain ⟨c, rest, rfl, digit, isRest⟩ := magnitude
  have word : Yaml.isWord (c :: rest) = true := by
    simp [Yaml.isWord, startsWord, Char.isAlphanum, digit, isRest, isWordChar_of_isDigit digit]
  cases negative with
  | true => exact isWord_negated digit word
  | false => exact word

theorem isDigit_of_mem_significantDigits {digits : Nat} {c : Char}
    (member : c ∈ significantDigits digits) : c.isDigit = true := by
  rw [significantDigits, List.mem_reverse] at member
  have inside := (List.dropWhile_sublist _).subset member
  exact Decimal.isDigit_of_mem_ofNat (List.mem_reverse.mp inside)

theorem isWordChar_ofInt (value : Int) : (Decimal.ofInt value).all isWordChar = true :=
  (Bool.and_eq_true_iff.mp (isWord_ofInt value)).2

theorem isMagnitude_spellOut (decimal : Binary64.Decimal) : IsMagnitude (spellOut decimal) := by
  refine (isMagnitude_of_digits (Decimal.ofNat_ne_nil decimal.digits)
    fun _ => Decimal.isDigit_of_mem_ofNat).append ?_
  rw [List.all_cons, isWordChar_ofInt]
  rfl

theorem isMagnitude_layout (decimal : Binary64.Decimal) : IsMagnitude (layout decimal) := by
  have digits : ∀ c ∈ significantDigits decimal.digits, c.isDigit = true :=
    fun _ => isDigit_of_mem_significantDigits
  have zeros : ∀ count, (List.replicate count '0').all isWordChar = true := by
    intro count
    rw [List.all_eq_true]
    intro c member
    rw [List.eq_of_mem_replicate member]
    rfl
  have isChars : ∀ part ⊆ significantDigits decimal.digits, part.all isWordChar = true :=
    fun part inside => List.all_eq_true.mpr fun c member =>
      isWordChar_of_isDigit (digits c (inside member))
  cases shape : significantDigits decimal.digits with
  | nil =>
    simp only [layout, shape]
    exact ⟨'0', ['.', '0'], rfl, rfl, rfl⟩
  | cons first others =>
    rw [shape] at isChars digits
    have isFirst := digits first List.mem_cons_self
    have isOthers := isChars others (List.subset_cons_self first others)
    have isPart : ∀ count, (first :: others).drop count ⊆ first :: others :=
      fun count => (List.drop_sublist count _).subset
    simp only [layout, shape]
    generalize (Decimal.ofNat decimal.digits).length + decimal.exponent - 1 = leading
    split
    · split
      · refine IsMagnitude.append ⟨'0', _, rfl, rfl, ?_⟩ (isChars _ (List.Subset.refl _))
        rw [List.all_cons, zeros]
        rfl
      · refine IsMagnitude.append (IsMagnitude.append ⟨first, _, rfl, isFirst, ?_⟩ (zeros _)) ?_
        · exact isChars _ fun c member =>
            List.mem_cons_of_mem first ((List.take_sublist _ others).subset member)
        · rw [List.all_cons]
          split
          · rfl
          · rw [isChars _ (isPart _)]
            rfl
    · refine IsMagnitude.append ⟨first, _, rfl, isFirst, ?_⟩ ?_
      · split
        · rfl
        · rw [List.all_cons, isOthers]
          rfl
      · rw [List.all_cons, isWordChar_ofInt]
        rfl

theorem isMagnitude_writeMagnitude (rank : Nat) : IsMagnitude (writeMagnitude rank) := by
  rcases writeMagnitude_cases rank with ⟨decimal, written, -⟩ | spelled
  · rw [written]
    exact isMagnitude_layout decimal
  · rw [spelled]
    exact isMagnitude_spellOut (exact rank)

theorem writeFloat_infinity (negative : Bool) : writeFloat (infinity negative)
    = (if negative then ['-'] else []) ++ ".inf".toList := by
  cases negative <;> rfl

theorem writeFloat_finite {rank : Fin (top + 1)} (finite : rank.val < top) (negative : Bool) :
    writeFloat (.number negative rank)
      = (if negative then ['-'] else []) ++ writeMagnitude rank.val := by
  have different : rank.val ≠ top := Nat.ne_of_lt finite
  simp only [writeFloat, different, if_false]

/-- A number is infinite or has a rank below infinity. -/
theorem float_cases (value : Binary64) : value = .nan ∨ (∃ negative, value = infinity negative) ∨
    ∃ negative rank, value = .number negative rank ∧ rank.val < top := by
  cases value with
  | nan => exact .inl rfl
  | number negative rank =>
    right
    by_cases finite : rank.val < top
    · exact .inr ⟨negative, rank, rfl, finite⟩
    · have bound : rank.val < top + 1 := rank.isLt
      have last : rank = clip top := Fin.ext (by simp only [clip, Nat.min_self]; omega)
      exact .inl ⟨negative, congrArg (Binary64.number negative) last⟩

theorem isWord_writeFloat (value : Binary64) : isWord (writeFloat value) = true := by
  rcases float_cases value with rfl | ⟨negative, rfl⟩ | ⟨negative, rank, rfl, finite⟩
  · rfl
  · rw [writeFloat_infinity]
    cases negative <;> rfl
  · rw [writeFloat_finite finite]
    exact (isMagnitude_writeMagnitude rank.val).isWord negative

theorem float?_magnitude {text : List Char} (magnitude : IsMagnitude text) (negative : Bool) :
    Yaml.float? ((if negative then ['-'] else []) ++ text) = finite? negative text := by
  obtain ⟨c, rest, rfl, digit, -⟩ := magnitude
  have differs := ne_of_test digit
  have noDot := differs '.' rfl
  cases negative with
  | true => simp [Yaml.float?, infinities, noDot]
  | false =>
    simp [Yaml.float?, infinities, nans, noDot, differs '-' rfl, differs '+' rfl]

/-- Reading undoes writing for all floating-point numbers, NaN and the infinities among them. -/
theorem float?_writeFloat (value : Binary64) : Yaml.float? (writeFloat value) = some value := by
  rcases float_cases value with rfl | ⟨negative, rfl⟩ | ⟨negative, rank, rfl, finite⟩
  · rfl
  · rw [writeFloat_infinity]
    cases negative <;> rfl
  · have whole : clip rank.val = rank := Fin.ext (by simp only [clip]; omega)
    rw [writeFloat_finite finite, float?_magnitude (isMagnitude_writeMagnitude rank.val),
      finite?_writeMagnitude finite, ofRank, whole]

end Yaml

end DagDeploy
