import DagDeploy.Binary64.Shortest
import DagDeploy.Decimal

/-! Numbers as documents spell them. Integers are decimal, or have one of the markers `0x`, `0o`
and `0b`; a decimal with a superfluous leading zero is no integer. Floats are decimal, with an
optional point and exponent. -/

namespace DagDeploy.Yaml

def digit? (base : Nat) (c : Char) : Option Nat :=
  let value :=
    if '0' ≤ c ∧ c ≤ '9' then c.toNat - '0'.toNat
    else if 'a' ≤ c ∧ c ≤ 'f' then c.toNat - 'a'.toNat + 10
    else if 'A' ≤ c ∧ c ≤ 'F' then c.toNat - 'A'.toNat + 10
    else base
  if value < base then some value else none

def radix? (base : Nat) (digits : List Char) : Option Nat :=
  if digits.isEmpty then none
  else digits.foldlM (fun value c => (digit? base c).map (value * base + ·)) 0

def hasSuperfluousZero : List Char → Bool
  | '0' :: c :: rest => (c :: rest).all Char.isDigit
  | _ => false

def magnitude? : List Char → Option Nat
  | '0' :: 'x' :: digits => radix? 16 digits
  | '0' :: 'o' :: digits => radix? 8 digits
  | '0' :: 'b' :: digits => radix? 2 digits
  | digits => if hasSuperfluousZero digits then none else Decimal.nat? digits

/-- Whether a number lies from minus the one power of two up to, but without, the other. -/
def isWithin (low high : Nat) (value : Int) : Bool :=
  -(Nat.pow 2 low : Int) ≤ value && value < (Nat.pow 2 high : Int)

/-- Unsigned numbers may still have a plus sign; minus zero is not one of them. -/
def unsigned? : List Char → Option Nat
  | '+' :: rest => magnitude? rest
  | text => magnitude? text

def signed? : List Char → Option Int
  | '-' :: rest => (magnitude? rest).map fun (magnitude : Nat) => -(magnitude : Int)
  | text => (unsigned? text).map fun (magnitude : Nat) => (magnitude : Int)

/-- The sign and the number after `e`; a text without an exponent has the exponent zero. -/
def exponent? : List Char → Option Int
  | [] => some 0
  | mark :: rest =>
    if mark = 'e' ∨ mark = 'E' then
      match rest with
      | '-' :: digits => (Decimal.nat? digits).map fun (value : Nat) => -(value : Int)
      | '+' :: digits => (Decimal.nat? digits).map fun (value : Nat) => (value : Int)
      | digits => (Decimal.nat? digits).map fun (value : Nat) => (value : Int)
    else none

/-- Digits with an optional point before, within or after them, and an optional exponent. -/
def decimal? (text : List Char) : Option Binary64.Decimal := do
  let whole := text.takeWhile Char.isDigit
  let (part, rest) := match text.dropWhile Char.isDigit with
    | '.' :: more => (more.takeWhile Char.isDigit, more.dropWhile Char.isDigit)
    | more => ([], more)
  let digits ← Decimal.nat? (whole ++ part)
  let exponent ← exponent? rest
  return ⟨digits, exponent - part.length⟩

/-- Decimals too large for a finite number are refused; tiny ones become zero. -/
def finite? (negative : Bool) (text : List Char) : Option Binary64 := do
  let value := Binary64.ofDecimal negative (← decimal? text)
  if value.isFinite then some value else none

def infinities : List (List Char) := [".inf".toList, ".Inf".toList, ".INF".toList]

def nans : List (List Char) := [".nan".toList, ".NaN".toList, ".NAN".toList]

/-- Infinity may have a sign, NaN has none. -/
def float? : List Char → Option Binary64
  | '-' :: rest =>
    if rest ∈ infinities then some (.infinity true) else finite? true rest
  | '+' :: rest =>
    if rest ∈ infinities then some (.infinity false) else finite? false rest
  | text =>
    if text ∈ infinities then some (.infinity false)
    else if text ∈ nans then some .nan
    else finite? false text

/-- Where the positional notation of floats ends: the exponent of the leading digit is at least the
first number and below the second. -/
def positionalExponents : Int × Int := (-5, 16)

/-- Decimal digits without trailing zeros; zero has none. -/
def significantDigits (digits : Nat) : List Char :=
  ((Decimal.ofNat digits).reverse.dropWhile (· == '0')).reverse

/-- A decimal in positional notation always shows a point with digits on both sides; in the other
notation a point stands only where more than one digit is left. -/
def layout (decimal : Binary64.Decimal) : List Char :=
  let all := Decimal.ofNat decimal.digits
  let digits := significantDigits decimal.digits
  let leading : Int := all.length + decimal.exponent - 1
  match digits with
  | [] => "0.0".toList
  | first :: others =>
    if positionalExponents.1 ≤ leading ∧ leading < positionalExponents.2 then
      if leading < 0 then
        '0' :: '.' :: List.replicate (-leading - 1).toNat '0' ++ digits
      else
        let whole := leading.toNat + 1
        let part := digits.drop whole
        digits.take whole ++ List.replicate (whole - digits.length) '0' ++ '.' ::
          (if part.isEmpty then ['0'] else part)
    else
      first :: (if others.isEmpty then [] else '.' :: others) ++ 'e' :: Decimal.ofInt leading

/-- Digits and exponent of a decimal as they are. -/
def spellOut (decimal : Binary64.Decimal) : List Char :=
  Decimal.ofNat decimal.digits ++ 'e' :: Decimal.ofInt decimal.exponent

/-- The first candidate that reads back, or else all digits of the number. -/
def writeMagnitude (rank : Nat) : List Char :=
  let texts := (Binary64.candidates rank).map layout
  let readsBack := fun text => finite? false text == some (Binary64.ofRank false rank)
  (texts.find? readsBack).getD (spellOut (Binary64.exact rank))

def writeFloat : Binary64 → List Char
  | .nan => ".nan".toList
  | .number negative rank =>
    let sign := if negative then ['-'] else []
    sign ++ if rank.val = Binary64.top then ".inf".toList else writeMagnitude rank.val

end DagDeploy.Yaml
