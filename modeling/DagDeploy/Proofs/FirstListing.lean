import DagDeploy.Placement

/-! The unit of a task is the first that lists it, by the order of the islands and then by the order
of the units within an island. Listings after the first one never matter. -/

namespace DagDeploy

/-- The unit at these positions lists the task. -/
def Lists (islands : List Island) (wanted : TaskId) (islandIndex unitIndex : Nat) : Prop :=
  ∃ island unit, islands[islandIndex]? = some island ∧ island.units[unitIndex]? = some unit ∧
    wanted ∈ unit.map Assignment.toTaskId

theorem exists_lists {islands : List Island} {wanted : TaskId} :
    (∃ islandIndex unitIndex, Lists islands wanted islandIndex unitIndex) ↔
      ∃ island ∈ islands, ∃ unit ∈ island.units, wanted ∈ unit.map Assignment.toTaskId := by
  constructor
  · intro ⟨islandIndex, unitIndex, island, unit, inside, position, listed⟩
    exact ⟨island, List.mem_of_getElem? inside, unit, List.mem_of_getElem? position, listed⟩
  · intro ⟨island, member, unit, unitMember, listed⟩
    obtain ⟨islandIndex, inside⟩ := List.mem_iff_getElem?.mp member
    obtain ⟨unitIndex, position⟩ := List.mem_iff_getElem?.mp unitMember
    exact ⟨islandIndex, unitIndex, island, unit, inside, position, listed⟩

namespace Placement

/-- The placement is a listing, and none comes before it. -/
structure IsFirst (islands : List Island) (wanted : TaskId) (placement : Placement) :
    Prop where
  inside : islands[placement.islandIndex]? = some placement.island
  listed : Lists islands wanted placement.islandIndex placement.unitIndex
  least : ∀ islandIndex unitIndex, Lists islands wanted islandIndex unitIndex →
    placement.islandIndex < islandIndex ∨
      placement.islandIndex = islandIndex ∧ placement.unitIndex ≤ unitIndex

variable {islands : List Island} {wanted : TaskId} {placement other : Placement}

theorem IsFirst.unique (first : placement.IsFirst islands wanted)
    (second : other.IsFirst islands wanted) : placement = other := by
  have before := first.least _ _ second.listed
  have after := second.least _ _ first.listed
  have sameIsland : placement.islandIndex = other.islandIndex := by omega
  have sameUnit : placement.unitIndex = other.unitIndex := by omega
  obtain ⟨islandIndex, island, unitIndex⟩ := placement
  obtain ⟨otherIndex, otherIsland, otherUnit⟩ := other
  simp only at sameIsland sameUnit
  subst sameIsland sameUnit
  have same : some island = some otherIsland := first.inside.symm.trans second.inside
  rw [Option.some.inj same]

theorem IsFirst.unit_inside (first : placement.IsFirst islands wanted) :
    placement.unitIndex < placement.island.units.length := by
  obtain ⟨island, unit, inside, found, -⟩ := first.listed
  obtain rfl : placement.island = island := Option.some.inj (first.inside.symm.trans inside)
  exact (List.getElem?_eq_some_iff.mp found).1

private theorem unit_found {units : List (List Assignment)} {unitIndex : Nat}
    (found : units.findIdx? (·.any (·.toTaskId == wanted)) = some unitIndex) :
    (∃ unit, units[unitIndex]? = some unit ∧ wanted ∈ unit.map Assignment.toTaskId) ∧
      ∀ other unit, units[other]? = some unit → wanted ∈ unit.map Assignment.toTaskId →
        unitIndex ≤ other := by
  obtain ⟨inside, holds, earlier⟩ := List.findIdx?_eq_some_iff_getElem.mp found
  refine ⟨⟨units[unitIndex], List.getElem?_eq_getElem inside, by simpa using holds⟩, ?_⟩
  intro other unit position listed
  obtain ⟨_, rfl⟩ := List.getElem?_eq_some_iff.mp position
  refine Nat.le_of_not_lt fun before => ?_
  exact earlier other before (by simpa using listed)

private theorem unit_missing {units : List (List Assignment)}
    (missing : units.findIdx? (·.any (·.toTaskId == wanted)) = none) {unitIndex : Nat}
    {unit : List Assignment} (position : units[unitIndex]? = some unit) :
    wanted ∉ unit.map Assignment.toTaskId := by
  have absent := List.findIdx?_eq_none_iff.mp missing unit (List.mem_of_getElem? position)
  simpa using absent

/-- Islands are numbered from `start`, so the first one of the list has the offset zero. -/
theorem search_eq_some {start : Nat} (found : search wanted start islands = some placement) :
    ∃ offset, placement.islandIndex = start + offset ∧
      IsFirst islands wanted ⟨offset, placement.island, placement.unitIndex⟩ := by
  induction islands generalizing start with
  | nil => cases found
  | cons island rest ih =>
    simp only [search] at found
    split at found
    next unitIndex here =>
      cases found
      obtain ⟨⟨unit, position, listed⟩, earliest⟩ := unit_found here
      refine ⟨0, rfl, rfl, ⟨island, unit, rfl, position, listed⟩, ?_⟩
      intro islandIndex other ⟨listing, candidate, inside, candidateAt, also⟩
      cases islandIndex with
      | zero =>
        obtain rfl : island = listing := Option.some.inj inside
        exact .inr ⟨rfl, earliest other candidate candidateAt also⟩
      | succ later => exact .inl (Nat.succ_pos later)
    next missing =>
      obtain ⟨offset, numbered, first⟩ := ih found
      refine ⟨offset + 1, by omega, first.inside, first.listed, ?_⟩
      intro islandIndex unitIndex ⟨listing, unit, inside, position, listed⟩
      cases islandIndex with
      | zero =>
        obtain rfl : island = listing := Option.some.inj inside
        exact absurd listed (unit_missing missing position)
      | succ later =>
        have least := first.least later unitIndex ⟨listing, unit, inside, position, listed⟩
        simp only at least ⊢
        omega

theorem search_eq_none {start : Nat} (missing : search wanted start islands = none) :
    ∀ islandIndex unitIndex, ¬ Lists islands wanted islandIndex unitIndex := by
  induction islands generalizing start with
  | nil =>
    intro islandIndex unitIndex ⟨island, unit, inside, _⟩
    simp at inside
  | cons island rest ih =>
    simp only [search] at missing
    split at missing
    · cases missing
    next absent =>
      intro islandIndex unitIndex ⟨listing, unit, inside, position, listed⟩
      cases islandIndex with
      | zero =>
        obtain rfl : island = listing := Option.some.inj inside
        exact unit_missing absent position listed
      | succ later => exact ih missing later unitIndex ⟨listing, unit, inside, position, listed⟩

theorem find_eq_ok {dag task : Nat} :
    find islands dag task = .ok placement ↔ placement.IsFirst islands ⟨dag, task⟩ := by
  have sound : ∀ {found}, search ⟨dag, task⟩ 0 islands = some found →
      found.IsFirst islands ⟨dag, task⟩ := by
    intro found searched
    obtain ⟨offset, numbered, first⟩ := search_eq_some searched
    obtain rfl : found.islandIndex = offset := by omega
    exact first
  unfold find
  constructor
  · intro found
    split at found
    next searched => cases found; exact sound searched
    · cases found
  · intro first
    split
    next searched => rw [(sound searched).unique first]
    next missing => exact absurd first.listed (search_eq_none missing _ _)

/-- A task is missing exactly when no unit of any island lists it. -/
theorem find_eq_error {dag task : Nat} {failure : Failure} :
    find islands dag task = .error failure ↔
      failure = .inconsistent (.missingMapping dag task) ∧
        ∀ islandIndex unitIndex, ¬ Lists islands ⟨dag, task⟩ islandIndex unitIndex := by
  constructor
  · intro stopped
    unfold find at stopped
    split at stopped
    · cases stopped
    next missing => cases stopped; exact ⟨rfl, search_eq_none missing⟩
  · intro ⟨isMissing, unlisted⟩
    subst isMissing
    cases searched : find islands dag task with
    | ok placement => exact absurd (find_eq_ok.mp searched).listed (unlisted _ _)
    | error other =>
      unfold find at searched
      split at searched <;> cases searched
      rfl

end Placement

end DagDeploy
