import DagDeploy.Proofs.DocumentReading

/-! How many copies a reader comes to in a document. A budget of copies is enough exactly if it is not
smaller, and what is left then is the difference; so neither the order of entries counts, nor what is
passed by. -/

namespace DagDeploy.Yaml

namespace Node

mutual
/-- Copies of copies count as often as somebody comes to them. -/
def cost (shape : Shape) : Node → Nat
  | .scalar _ _ => 0
  | .sequence items => costOfItems shape.item items
  | .mapping entries => costOfEntries shape entries
  | .tagged _ node => cost shape node
  | .copied node => cost shape (node ()) + 1
termination_by structural node => node

def costOfItems (shape : Shape) : List Node → Nat
  | [] => 0
  | item :: rest => cost shape item + costOfItems shape rest
termination_by structural items => items

def costOfEntry (shape : Shape) : Node × Node → Nat
  | (key, value) =>
    cost .whole key + match shape.under? key with
      | some inside => cost inside value
      | none => 0
termination_by structural entry => entry

def costOfEntries (shape : Shape) : List (Node × Node) → Nat
  | [] => 0
  | entry :: rest => costOfEntry shape entry + costOfEntries shape rest
termination_by structural entries => entries
end

/-- What is left of a budget, if it is large enough. -/
def pay (cost left : Nat) : Option Nat := if cost ≤ left then some (left - cost) else none

theorem pay_bind (first second left : Nat) :
    (pay first left).bind (pay second) = pay (first + second) left := by
  by_cases enough : first ≤ left
  · rw [pay, if_pos enough, Option.bind_some, pay, pay, Nat.sub_sub]
    have same : second ≤ left - first ↔ first + second ≤ left := by omega
    simp only [same]
  · have short : ¬ first + second ≤ left := by omega
    rw [pay, if_neg enough, pay, if_neg short, Option.bind_none]

mutual
theorem spend_eq_pay (shape : Shape) (left : Nat) (node : Node) :
    node.spend shape left = pay (node.cost shape) left := by
  cases node with
  | scalar text style => rfl
  | sequence items => exact spendItems_eq_pay shape.item left items
  | mapping entries => exact spendEntries_eq_pay shape left entries
  | tagged tag node => exact spend_eq_pay shape left node
  | copied node =>
    cases left with
    | zero => rfl
    | succ left =>
      rw [spend, cost, spend_eq_pay shape left (node ()), pay, pay, Nat.add_sub_add_right]
      simp only [Nat.add_le_add_iff_right]
termination_by structural node

theorem spendItems_eq_pay (shape : Shape) (left : Nat) (items : List Node) :
    spendItems shape left items = pay (costOfItems shape items) left := by
  cases items with
  | nil => rfl
  | cons item rest =>
    rw [spendItems, costOfItems, ← pay_bind, spend_eq_pay shape left item]
    exact congrArg _ (funext fun left => spendItems_eq_pay shape left rest)
termination_by structural items

theorem spendEntry_eq_pay (shape : Shape) (left : Nat) (entry : Node × Node) :
    spendEntry shape left entry = pay (costOfEntry shape entry) left := by
  cases entry with
  | mk key value =>
    rw [spendEntry, costOfEntry, ← pay_bind, spend_eq_pay .whole left key]
    refine congrArg _ (funext fun left => ?_)
    cases shape.under? key with
    | none => rfl
    | some inside => exact spend_eq_pay inside left value
termination_by structural entry

theorem spendEntries_eq_pay (shape : Shape) (left : Nat) (entries : List (Node × Node)) :
    spendEntries shape left entries = pay (costOfEntries shape entries) left := by
  cases entries with
  | nil => rfl
  | cons entry rest =>
    rw [spendEntries, costOfEntries, ← pay_bind, spendEntry_eq_pay shape left entry]
    exact congrArg _ (funext fun left => spendEntries_eq_pay shape left rest)
termination_by structural entries
end

end Node

theorem Document.suffices_iff (document : Document) (shape : Shape) :
    document.suffices shape = true ↔ document.node.cost shape ≤ document.copies := by
  rw [Document.suffices, Node.spend_eq_pay, Node.pay]
  split <;> simp_all

end DagDeploy.Yaml
