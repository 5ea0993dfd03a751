import DagDeploy.Proofs.Words
import DagDeploy.Yaml.Codec

/-! Integers are read back from the scalars that are written for them. A numeral starts with a zero
only where it has no other digit, so it never looks like one in another base. -/

namespace DagDeploy

namespace Decimal

theorem isDigit_of_mem_ofNat {n : Nat} {c : Char} (member : c ∈ ofNat n) : c.isDigit = true :=
  Nat.isDigit_of_mem_toDigits (by decide) (by decide) member

theorem ofNat_ne_nil (n : Nat) : ofNat n ≠ [] := Nat.toDigits_ne_nil

theorem ofNat_ne_zero_cons {n : Nat} (positive : 0 < n) (rest : List Char) :
    ofNat n ≠ '0' :: rest := by
  induction n using Nat.strongRecOn generalizing rest with
  | ind n ih =>
    intro shape
    by_cases short : n < 10
    · rw [ofNat, Nat.toDigits_of_lt_base short] at shape
      have digits : ∀ digit < 10, 0 < digit → Nat.digitChar digit ≠ '0' := by decide
      exact digits n short positive (List.cons.inj shape).1
    · have long : 10 ≤ n := Nat.not_lt.mp short
      have front : ofNat n = ofNat (n / 10) ++ [(n % 10).digitChar] :=
        Nat.toDigits_of_base_le (by decide) long
      have smaller := ih (n / 10) (by omega) (by omega)
      cases head : ofNat (n / 10) with
      | nil => exact ofNat_ne_nil _ head
      | cons c others =>
        rw [front, head, List.cons_append] at shape
        obtain ⟨rfl, -⟩ := List.cons.inj shape
        exact smaller others head

/-- A numeral is the zero, or starts with another digit. -/
theorem ofNat_cases (n : Nat) : n = 0 ∨ ∃ c rest, ofNat n = c :: rest ∧ c.isDigit = true ∧
    c ≠ '0' := by
  by_cases zero : n = 0
  · exact .inl zero
  · cases shape : ofNat n with
    | nil => exact absurd shape (ofNat_ne_nil n)
    | cons c rest =>
      have member : c ∈ ofNat n := by
        rw [shape]
        exact List.mem_cons_self
      refine .inr ⟨c, rest, rfl, isDigit_of_mem_ofNat member, ?_⟩
      rintro rfl
      exact ofNat_ne_zero_cons (Nat.pos_of_ne_zero zero) rest shape

end Decimal

namespace Yaml

theorem isWordChar_of_isDigit {c : Char} (digit : c.isDigit = true) : isWordChar c = true := by
  simp [isWordChar, Char.isAlphanum, digit]

theorem isWord_of_digits {text : List Char} (nonempty : text ≠ [])
    (digits : ∀ c ∈ text, c.isDigit = true) : isWord text = true := by
  have isChars : text.all isWordChar = true :=
    List.all_eq_true.mpr fun c member => isWordChar_of_isDigit (digits c member)
  cases text with
  | nil => exact absurd rfl nonempty
  | cons c rest => simp [isWord, startsWord, Char.isAlphanum, digits c List.mem_cons_self, isChars]

theorem isWord_ofNat (n : Nat) : isWord (Decimal.ofNat n) = true :=
  isWord_of_digits (Decimal.ofNat_ne_nil n) fun _ => Decimal.isDigit_of_mem_ofNat

/-- A minus sign before a digit starts a word. -/
theorem isWord_negated {c : Char} {rest : List Char} (digit : c.isDigit = true)
    (word : isWord (c :: rest) = true) : isWord ('-' :: c :: rest) = true := by
  have isChars := (Bool.and_eq_true_iff.mp word).2
  have different : c ≠ '-' := ne_of_test digit '-' rfl
  have starts : startsWord ('-' :: c :: rest) = true := by simp [startsWord, different]
  rw [isWord, starts, List.all_cons, isChars]
  rfl

theorem isWord_ofInt (value : Int) : isWord (Decimal.ofInt value) = true := by
  cases value with
  | ofNat n => exact isWord_ofNat n
  | negSucc n =>
    obtain zero | ⟨c, rest, shape, digit, -⟩ := Decimal.ofNat_cases (n + 1)
    · cases zero
    · have word := isWord_ofNat (n + 1)
      rw [shape] at word
      rw [Decimal.ofInt, shape]
      exact isWord_negated digit word

theorem magnitude?_ofNat (n : Nat) : magnitude? (Decimal.ofNat n) = some n := by
  obtain rfl | ⟨c, rest, shape, -, noZero⟩ := Decimal.ofNat_cases n
  · rfl
  · have value := Decimal.nat?_ofNat n
    rw [shape] at value ⊢
    simp [magnitude?, hasSuperfluousZero, noZero, value]

theorem unsigned?_ofNat (n : Nat) : unsigned? (Decimal.ofNat n) = some n := by
  have value := magnitude?_ofNat n
  obtain rfl | ⟨c, rest, shape, digit, -⟩ := Decimal.ofNat_cases n
  · rfl
  · have noSign := ne_of_test digit '+' rfl
    rw [shape] at value ⊢
    simp [unsigned?, noSign, value]

theorem signed?_ofInt (value : Int) : signed? (Decimal.ofInt value) = some value := by
  cases value with
  | ofNat n =>
    have value := unsigned?_ofNat n
    obtain rfl | ⟨c, rest, shape, digit, -⟩ := Decimal.ofNat_cases n
    · rfl
    · have noSign := ne_of_test digit '-' rfl
      rw [shape] at value
      rw [Decimal.ofInt, shape]
      simp [signed?, noSign, value]
  | negSucc n =>
    simp only [Decimal.ofInt, signed?, magnitude?_ofNat, Option.map_some]
    rfl

namespace Node

theorem nat?_ofNat {n : Nat} (small : n < Nat.pow 2 64) : (ofNat n).nat? = some n := by
  simp [nat?, ofNat, numeral?, untagged, plain, unsigned?_ofNat, small]

theorem int?_ofInt {bits : Nat} {value : Int} (within : isWithin bits bits value = true) :
    (ofInt value).int? bits = some value := by
  simp [int?, ofInt, numeral?, untagged, plain, signed?_ofInt, within]

end Node

end Yaml

end DagDeploy
