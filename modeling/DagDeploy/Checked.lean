import DagDeploy.Conversion

/-! Computations as a processor runs them, on words of 64 bits and on lists that are addressed by
position. An operation whose operands do not suit it is trapped; that is neither a success nor a
failure, and no caller can go on from there. -/

namespace DagDeploy

inductive Trap where
  | outside (length position : Nat)
  | overflow
  | zeroDivisor
  | fullGraph
  | missingNode
  deriving DecidableEq, Repr

/-- Computations that succeed, fail or are trapped, and write log lines on the way. -/
abbrev Checked := ExceptT Trap Logged

namespace Checked

variable {α β : Type}

/-- A computation that has no operation to be trapped in. -/
def ofLogged (plain : Logged α) : Checked α := liftM plain

def fail (failure : Failure) : Checked α := ofLogged (Logged.fail failure)

@[simp] theorem ofLogged_pure (value : α) : ofLogged (pure value) = pure value := by
  rw [ofLogged, liftM_pure]

@[simp] theorem ofLogged_bind (first : Logged α) (next : α → Logged β) :
    ofLogged (first >>= next) = ofLogged first >>= fun value => ofLogged (next value) := by
  simp only [ofLogged, liftM_bind]

@[simp] theorem ofLogged_fail (failure : Failure) :
    (ofLogged (Logged.fail failure) : Checked α) = fail failure := rfl

theorem outcome_run_ofLogged (plain : Logged α) :
    (ofLogged plain).run.outcome = plain.outcome.map .ok := by
  obtain ⟨lines, outcome⟩ := plain
  cases outcome <;> rfl

theorem run_ofLogged_bind (first : Logged α) (next : α → Checked β) :
    (ofLogged first >>= next).run = first >>= fun value => (next value).run :=
  ExceptT.run_bind_lift first next

@[simp] theorem fail_bind (failure : Failure) (next : α → Checked β) :
    fail failure >>= next = fail failure := by
  apply ExceptT.ext
  rw [fail, run_ofLogged_bind]
  rfl

/-- What follows only has to agree on the value there is. -/
theorem ofLogged_bind_congr {first : Logged α} {next other : α → Checked β}
    (same : ∀ value, first.outcome = .ok value → next value = other value) :
    ofLogged first >>= next = ofLogged first >>= other := by
  apply ExceptT.ext
  rw [run_ofLogged_bind, run_ofLogged_bind]
  obtain ⟨lines, outcome⟩ := first
  cases outcome with
  | error failure => rfl
  | ok value => simp only [Logged.bind_ok, same value rfl]

/-- The largest unsigned word. -/
def largest : Nat := 0xffffffffffffffff

/-- Whether a signed word holds the number. -/
def Signed (number : Int) : Prop := -0x8000000000000000 ≤ number ∧ number < 0x8000000000000000

instance (number : Int) : Decidable (Signed number) := inferInstanceAs (Decidable (_ ∧ _))

def word (number : Nat) : Checked Nat :=
  if number ≤ largest then return number else throw .overflow

def signed (number : Int) : Checked Int :=
  if Signed number then return number else throw .overflow

def read (list : List α) (position : Nat) : Checked α :=
  match list[position]? with
  | some value => return value
  | none => throw (.outside list.length position)

def write (list : List α) (position : Nat) (value : α) : Checked (List α) :=
  if position < list.length then return list.set position value
  else throw (.outside list.length position)

def divide (number divisor : Nat) : Checked Nat :=
  if divisor = 0 then throw .zeroDivisor else return number / divisor

def remainder (number divisor : Nat) : Checked Nat :=
  if divisor = 0 then throw .zeroDivisor else return number % divisor

/-- Toward zero. The least number has no quotient by -1. -/
def divideSigned (number divisor : Int) : Checked Int :=
  if divisor = 0 then throw .zeroDivisor else signed (number.tdiv divisor)

/-- Trapped wherever the quotient is. -/
def remainderSigned (number divisor : Int) : Checked Int := do
  let _ ← divideSigned number divisor
  return number.tmod divisor

/-- The product of two words, if it is a word. -/
def product? (first second : Nat) : Option Nat :=
  if first * second ≤ largest then some (first * second) else none

def divideUp (number divisor : Nat) : Checked Nat := do
  let whole ← divide number divisor
  let rest ← remainder number divisor
  if 0 < rest then word (whole + 1) else return whole

end Checked

end DagDeploy
