/-! Decimal numerals: the digits of a number, and the number that a run of digits stands for.
Reading undoes writing. -/

namespace DagDeploy.Decimal

def ofNat (n : Nat) : List Char := Nat.toDigits 10 n

def ofInt : Int → List Char
  | .ofNat n => ofNat n
  | .negSucc n => '-' :: ofNat (n + 1)

/-- The value of a nonempty run of the digits 0 to 9; superfluous zeros in front are allowed. -/
def nat? (digits : List Char) : Option Nat :=
  if !digits.isEmpty && digits.all Char.isDigit then some (Nat.ofDigitChars 10 digits 0) else none

theorem nat?_ofNat (n : Nat) : nat? (ofNat n) = some n := by
  have digits : (ofNat n).all Char.isDigit = true := by
    simpa [ofNat] using fun c member => Nat.isDigit_of_mem_toDigits (by decide) (by decide) member
  have nonempty : (ofNat n).isEmpty = false := by
    cases shape : ofNat n with
    | nil => exact absurd shape Nat.toDigits_ne_nil
    | cons _ _ => rfl
  simp only [nat?, nonempty, digits]
  simp [ofNat, Nat.ofDigitChars_ten_toDigits]

end DagDeploy.Decimal
