import DagDeploy.Platform
import DagDeploy.Proofs.FloatOrder

/-! How a board is told from its name, and how it numbers the units of an island. Of an island, only
the capacity and the number of units count. -/

namespace DagDeploy.Platform

/-- The text stands somewhere in the name, without a gap. -/
def Mentions (name part : String) : Prop := part.toList <:+: name.toList

/-- A name that mentions several boards tells the first of them. -/
def Told (name : String) : Platform → Prop
  | .odroid => Mentions name "odroid"
  | .zcu102 => ¬ Mentions name "odroid" ∧ Mentions name "zcu102"
  | .xavierAgx =>
    ¬ Mentions name "odroid" ∧ ¬ Mentions name "zcu102" ∧ Mentions name "xavier-agx"

theorem occurs_iff {part text : List Char} : occurs part text = true ↔ part <:+: text := by
  induction text with
  | nil => simp [occurs]
  | cons first rest ih =>
    simp only [occurs, Bool.or_eq_true, ih, List.infix_cons_iff, List.isPrefixOf_iff_prefix]

theorem mentions_iff {name part : String} : mentions name part = true ↔ Mentions name part :=
  occurs_iff

theorem ofName_eq_ok {name : String} {board : Platform} :
    ofName name = .ok board ↔ Told name board := by
  unfold ofName
  split
  next odroid =>
    rw [mentions_iff] at odroid
    cases board <;> simp [Told, odroid]
  next notOdroid =>
    rw [mentions_iff] at notOdroid
    split
    next zcu102 =>
      rw [mentions_iff] at zcu102
      cases board <;> simp [Told, notOdroid, zcu102]
    next notZcu102 =>
      rw [mentions_iff] at notZcu102
      split
      next xavierAgx =>
        rw [mentions_iff] at xavierAgx
        cases board <;> simp [Told, notOdroid, notZcu102, xavierAgx]
      next unknown =>
        rw [mentions_iff] at unknown
        cases board <;> simp [Told, notOdroid, notZcu102, unknown]

theorem told_iff {name : String} : (∃ board, Told name board) ↔
    Mentions name "odroid" ∨ Mentions name "zcu102" ∨ Mentions name "xavier-agx" := by
  constructor
  · intro ⟨board, told⟩
    cases board with
    | odroid => exact .inl told
    | zcu102 => exact .inr (.inl told.2)
    | xavierAgx => exact .inr (.inr told.2.2)
  · intro mentioned
    by_cases odroid : Mentions name "odroid"
    · exact ⟨.odroid, odroid⟩
    · by_cases zcu102 : Mentions name "zcu102"
      · exact ⟨.zcu102, odroid, zcu102⟩
      · have xavierAgx := (mentioned.resolve_left odroid).resolve_left zcu102
        exact ⟨.xavierAgx, odroid, zcu102, xavierAgx⟩

theorem told_unique {name : String} {board other : Platform} (told : Told name board)
    (otherTold : Told name other) : board = other :=
  Except.ok.inj ((ofName_eq_ok.mpr told).symm.trans (ofName_eq_ok.mpr otherTold))

/-- An accelerator is faster than the reference core; on Xavier it is an island of a single unit. -/
def Accelerates (board : Platform) (island : Island) : Prop :=
  match board with
  | .odroid | .zcu102 =>
    ∃ capacity, island.capacity.value? = some capacity ∧ (Binary64.unitsPerOne : Int) < capacity
  | .xavierAgx => island.units.length = 1

/-- The capacity of the island is that of the reference core. -/
def AtReference (island : Island) : Prop :=
  island.capacity.value? = some (Binary64.unitsPerOne : Int)

variable {board : Platform} {island other : Island} {unitIndex : Nat}

theorem isAccelerator_iff : board.isAccelerator island = true ↔ board.Accelerates island := by
  cases board with
  | odroid | zcu102 => exact Binary64.above_one_iff
  | xavierAgx => simp [isAccelerator, Accelerates]

theorem kindOf_eq_fred : board.kindOf island = .fred ↔ board.Accelerates island := by
  rw [← isAccelerator_iff, kindOf]
  split
  next accelerates => simp [accelerates]
  next general => simp [general]

theorem kindOf_eq_cpu : board.kindOf island = .cpu ↔ ¬ board.Accelerates island := by
  rw [← isAccelerator_iff, kindOf]
  split
  next accelerates => simp [accelerates]
  next general => simp [general]

/-- The big cluster of an Odroid is not above the reference core, and at least as fast. -/
theorem cpuOf_eq_add (reference : AtReference island) :
    cpuOf .odroid island unitIndex = 4 + unitIndex := by
  have notAbove : isAccelerator .odroid island = false := by
    rw [← Bool.not_eq_true, isAccelerator_iff]
    intro ⟨capacity, isCapacity, above⟩
    rw [reference] at isCapacity
    cases isCapacity
    exact Int.lt_irrefl _ above
  have atLeast : island.capacity.atLeast .one = true :=
    Binary64.atLeast_one_iff.mpr ⟨_, reference, Int.le_refl _⟩
  simp [cpuOf, notAbove, atLeast, littleCores]

theorem cpuOf_eq_self (other : board ≠ .odroid ∨ ¬ AtReference island) :
    board.cpuOf island unitIndex = unitIndex := by
  unfold cpuOf
  split
  · rfl
  next general =>
    cases board with
    | zcu102 | xavierAgx => rfl
    | odroid =>
      have offReference : ¬ AtReference island := other.resolve_left fun different => different rfl
      simp only
      split
      next atLeast =>
        obtain ⟨capacity, isCapacity, least⟩ := Binary64.atLeast_one_iff.mp atLeast
        rw [isAccelerator_iff] at general
        have notAbove : ¬ (Binary64.unitsPerOne : Int) < capacity := fun above =>
          general ⟨capacity, isCapacity, above⟩
        obtain rfl : capacity = (Binary64.unitsPerOne : Int) := by omega
        exact absurd isCapacity offReference
      · rfl

theorem cpuOf_injective (board : Platform) (island : Island) :
    Function.Injective (board.cpuOf island) := by
  intro first second same
  by_cases big : board = .odroid ∧ AtReference island
  · obtain ⟨rfl, reference⟩ := big
    rw [cpuOf_eq_add reference, cpuOf_eq_add reference] at same
    omega
  · have other : board ≠ .odroid ∨ ¬ AtReference island := by
      by_cases odroid : board = .odroid
      · exact .inr fun reference => big ⟨odroid, reference⟩
      · exact .inl odroid
    rwa [cpuOf_eq_self other, cpuOf_eq_self other] at same

theorem isAccelerator_congr (capacity : island.capacity = other.capacity)
    (units : island.units.length = other.units.length) :
    board.isAccelerator island = board.isAccelerator other := by
  simp only [isAccelerator, capacity, units]

theorem kindOf_congr (capacity : island.capacity = other.capacity)
    (units : island.units.length = other.units.length) :
    board.kindOf island = board.kindOf other := by
  simp only [kindOf, isAccelerator_congr capacity units]

theorem cpuOf_congr (capacity : island.capacity = other.capacity)
    (units : island.units.length = other.units.length) :
    board.cpuOf island unitIndex = board.cpuOf other unitIndex := by
  simp only [cpuOf, isAccelerator_congr capacity units, capacity]

end DagDeploy.Platform
