import DagDeploy.Yaml.Codec
import DagDeploy.Yaml.Plain

/-! Values of no particular type. A node stands for one if plain integers have at most 64 bits, no
mapping repeats a key, and collections are not nested too deeply. A local tag is part of the value;
other tags may say which kind of value a scalar is. -/

namespace DagDeploy.Yaml

inductive Value where
  | null
  | bool (value : Bool)
  | int (value : Int)
  | float (value : Binary64)
  | text (value : String)
  | sequence (items : List Value)
  | mapping (entries : List (Value × Value))
  | tagged (variant : String) (value : Value)
  deriving Repr

namespace Value

section equality

mutual
def isSame : Value → Value → Bool
  | .null, .null => true
  | .bool a, .bool b => a == b
  | .int a, .int b => a == b
  | .float a, .float b => a == b
  | .text a, .text b => a == b
  | .sequence a, .sequence b => areSame a b
  | .mapping a, .mapping b => areSameEntries a b
  | .tagged first a, .tagged second b => first == second && isSame a b
  | _, _ => false
termination_by structural value => value

def areSame : List Value → List Value → Bool
  | [], [] => true
  | a :: rest, b :: others => isSame a b && areSame rest others
  | _, _ => false
termination_by structural values => values

def isSameEntry : Value × Value → Value × Value → Bool
  | (key, value), (otherKey, other) => isSame key otherKey && isSame value other
termination_by structural entry => entry

def areSameEntries : List (Value × Value) → List (Value × Value) → Bool
  | [], [] => true
  | a :: rest, b :: others => isSameEntry a b && areSameEntries rest others
  | _, _ => false
termination_by structural entries => entries
end

mutual
theorem isSame_iff (a b : Value) : isSame a b = true ↔ a = b := by
  cases a with
  | sequence items => cases b <;> simp [isSame, areSame_iff items]
  | mapping entries => cases b <;> simp [isSame, areSameEntries_iff entries]
  | tagged variant value => cases b <;> simp [isSame, isSame_iff value]
  | _ => cases b <;> simp [isSame]
termination_by structural a

theorem areSame_iff (a b : List Value) : areSame a b = true ↔ a = b := by
  cases a with
  | nil => cases b <;> simp [areSame]
  | cons first rest => cases b <;> simp [areSame, isSame_iff first, areSame_iff rest]
termination_by structural a

theorem isSameEntry_iff (a b : Value × Value) : isSameEntry a b = true ↔ a = b := by
  cases a with
  | mk key value =>
    obtain ⟨otherKey, other⟩ := b
    simp [isSameEntry, isSame_iff key, isSame_iff value]
termination_by structural a

theorem areSameEntries_iff (a b : List (Value × Value)) : areSameEntries a b = true ↔ a = b := by
  cases a with
  | nil => cases b <;> simp [areSameEntries]
  | cons first rest =>
    cases b <;> simp [areSameEntries, isSameEntry_iff first, areSameEntries_iff rest]
termination_by structural a
end

instance : DecidableEq Value := fun a b => decidable_of_iff (isSame a b = true) (isSame_iff a b)

end equality

section scalars

/-- A plain scalar, whose integers have at most 64 bits. -/
def ofPlain? (content : String) : Option Value :=
  match Plain.of content with
  | .null => some .null
  | .bool value => some (.bool value)
  | .int value => if isWithin 63 64 value then some (.int value) else none
  | .float value => some (.float value)
  | .text => some (.text content)

def ofScalar? (content : String) (style : Style) : Option Value :=
  if style.isPlain then ofPlain? content else some (.text content)

/-- A scalar whose tag names no variant. The tags of the language itself ask for their kind of
value, of any other no more than a text is made. -/
def ofKind? (tag : Tag) (content : String) (style : Style) : Option Value :=
  if tag = .core "bool" then (Plain.bools.lookup content).map .bool
  else if tag = .core "int" then
    ((signed? content.toList).filter (isWithin 63 64)).map .int
  else if tag = .core "float" then (float? content.toList).map .float
  else if tag = .core "null" then
    if content ≠ "" ∧ content ∈ Plain.nulls then some .null else none
  else if tag.isLocal then ofScalar? content style
  else some (.text content)

end scalars

/-- The value under the local tag that it may have. -/
def under (tag : Option Tag) (value : Value) : Value :=
  match tag.bind Tag.variant? with
  | some variant => .tagged variant value
  | none => value

/-- An exclamation mark at the start of a variant does not count, unless it is all. -/
def variantName (variant : String) : List Char :=
  match variant.toList with
  | '!' :: c :: rest => c :: rest
  | chars => chars

/-- Mappings are equal when they have equal values for equal keys, in whatever order; `depth` bounds
the nesting of both values. -/
def same : Nat → Value → Value → Bool
  | 0, _, _ => false
  | _ + 1, .null, .null => true
  | _ + 1, .bool a, .bool b => a == b
  | _ + 1, .int a, .int b => a == b
  | _ + 1, .float a, .float b => a.same b
  | _ + 1, .text a, .text b => a == b
  | depth + 1, .sequence a, .sequence b =>
    a.length == b.length && (a.zip b).all fun (x, y) => same depth x y
  | depth + 1, .mapping a, .mapping b =>
    a.length == b.length && a.all fun (key, value) => b.any fun (otherKey, otherValue) =>
      same depth key otherKey && same depth value otherValue
  | depth + 1, .tagged first a, .tagged second b =>
    variantName first == variantName second && same depth a b
  | _ + 1, _, _ => false

def allDistinct (depth : Nat) : List Value → Bool
  | [] => true
  | first :: rest => !rest.any (same depth first) && allDistinct depth rest

/-- Collections may be nested up to `depth` levels deep, each with a tag. -/
def ofNode? : Nat → Node → Option Value
  | depth, node =>
    match depth, node.untagged with
    | _, .scalar content style =>
      match node.tag? with
      | none => ofScalar? content style
      | some tag =>
        match tag.variant? with
        | none => ofKind? tag content style
        | some variant => (ofScalar? content style).map (.tagged variant)
    | depth + 1, .sequence items => do
      return under node.tag? (.sequence (← items.mapM (ofNode? depth)))
    | depth + 1, .mapping entries => do
      let entries ← entries.mapM fun (key, value) => do
        return (← ofNode? depth key, ← ofNode? depth value)
      if allDistinct (2 * depth + 2) (entries.map Prod.fst) then
        return under node.tag? (.mapping entries)
      else none
    | _, _ => none

end Value

end DagDeploy.Yaml
