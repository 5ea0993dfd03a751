import DagDeploy.Yaml.Number

/-! What a plain scalar stands for where no type is expected: nothing, a truth value, a number, or
its text. Integers have at most 128 bits; longer ones count as floats, and decimals too large for a
float are texts. -/

namespace DagDeploy.Yaml

inductive Plain where
  | null
  | bool (value : Bool)
  | int (value : Int)
  | float (value : Binary64)
  | text
  deriving DecidableEq, Repr

namespace Plain

def nulls : List String := ["", "~", "null", "Null", "NULL"]

def bools : List (String × Bool) := [
  ("true", true), ("True", true), ("TRUE", true),
  ("false", false), ("False", false), ("FALSE", false)]

/-- Digits with a superfluous zero, perhaps after a sign, are a text, but look like a number. -/
def looksOctal : List Char → Bool
  | '-' :: digits | '+' :: digits => hasSuperfluousZero digits
  | digits => hasSuperfluousZero digits

def ofNumber (content : List Char) : Plain :=
  match (signed? content).filter (isWithin 127 128) with
  | some value => .int value
  | none =>
    if looksOctal content then .text
    else
      match float? content with
      | some value => .float value
      | none => .text

def of (content : String) : Plain :=
  if nulls.contains content then .null
  else
    match bools.lookup content with
    | some value => .bool value
    | none => ofNumber content.toList

end Plain

end DagDeploy.Yaml
