import DagDeploy.Proofs.CheckedSteps
import DagDeploy.Proofs.Hyperperiod

/-! Where the hyperperiod stops, and that it does not stop without need. A period hinders it by being
zero or by making the least common multiple of the periods so far too long; the first one to do so
is told. As long as none does, all periods so far are reduced to their least common multiple. -/

namespace DagDeploy.Period

/-- The period with this index is zero, or too much for those before it. -/
inductive Hinders (periods : List Nat) (index : Nat) : Failure → Prop where
  | zero (found : periods[index]? = some 0) : Hinders periods index (.zeroPeriod index)
  | long (inside : index < periods.length)
    (exceeds : longest < (periods.take (index + 1) : Multiset Nat).lcm) :
    Hinders periods index (.hyperPeriodOverflow index)

structure FirstHinders (periods : List Nat) (index : Nat) (failure : Failure) : Prop where
  hinders : Hinders periods index failure
  first : ∀ earlier < index, ∀ other, ¬ Hinders periods earlier other

variable {periods others : List Nat} {index : Nat} {failure : Failure}

theorem lcm_take_succ (inside : index < periods.length) :
    (periods.take (index + 1) : Multiset Nat).lcm
      = Nat.lcm (periods.take index : Multiset Nat).lcm periods[index] := by
  rw [← List.take_append_getElem inside, ← Multiset.coe_add, Multiset.lcm_add, lcm_eq_nat_lcm,
    Multiset.coe_singleton, Multiset.lcm_singleton, normalize_eq]

/-- What is reduced already does not depend on what comes after it. -/
theorem extend_append {dag current : Nat} (before after : List Nat) :
    extend dag current (before ++ after)
      = extend dag current before >>= fun next => extend (dag + before.length) next after := by
  induction before generalizing dag current with
  | nil => rfl
  | cons period rest ih =>
    simp only [List.cons_append, extend]
    split
    · rfl
    split
    · rw [ih, List.length_cons, Nat.add_comm rest.length, ← Nat.add_assoc]
    · rfl

/-- Periods that nothing hinders are reduced. -/
theorem hyperPeriod_of_free (bound : index ≤ periods.length)
    (free : ∀ earlier < index, ∀ other, ¬ Hinders periods earlier other) :
    hyperPeriod (periods.take index) = .ok (periods.take index : Multiset Nat).lcm := by
  refine hyperPeriod_eq_ok.mpr ⟨?_, rfl, ?_⟩
  · intro period member isZero
    obtain ⟨position, inside, rfl⟩ := List.mem_take_iff_getElem.mp member
    have found : periods[position]? = some 0 := by
      rw [← isZero]
      exact List.getElem?_eq_getElem _
    exact free position (by omega) _ (.zero found)
  · cases index with
    | zero => simp [longest]
    | succ last =>
      apply Nat.le_of_not_lt
      intro exceeds
      exact free last (Nat.lt_succ_self last) _ (.long bound exceeds)

theorem Hinders.inside (hinders : Hinders periods index failure) : index < periods.length := by
  cases hinders with
  | zero found => exact (List.getElem?_eq_some_iff.mp found).1
  | long inside exceeds => exact inside

/-- The step at the first hindrance tells it, from the multiple of all periods before. -/
theorem hyperPeriod_of_first (first : FirstHinders periods index failure) :
    hyperPeriod periods = .error failure := by
  have inside := first.hinders.inside
  have reduced := hyperPeriod_of_free (Nat.le_of_lt inside) first.first
  have split : periods = periods.take index ++ periods[index] :: periods.drop (index + 1) := by
    rw [List.cons_getElem_drop_succ, List.take_append_drop]
  rw [hyperPeriod] at reduced
  rw [hyperPeriod, split, extend_append, reduced, List.length_take_of_le (Nat.le_of_lt inside),
    Nat.zero_add]
  change extend index _ (periods[index] :: _) = _
  cases first.hinders with
  | zero found =>
    obtain ⟨_, isZero⟩ := List.getElem?_eq_some_iff.mp found
    rw [extend, if_pos isZero]
  | long _ exceeds =>
    rw [lcm_take_succ inside] at exceeds
    have nonzero : periods[index] ≠ 0 := by
      intro isZero
      rw [isZero, Nat.lcm_zero_right] at exceeds
      omega
    simp only [extend, if_neg nonzero, div_gcd_mul, if_neg (Nat.not_le.mpr exceeds)]

/-- A list that cannot be reduced has a first period that hinders it. -/
theorem exists_first (refused : ∀ common, hyperPeriod periods ≠ .ok common) :
    ∃ index failure, FirstHinders periods index failure := by
  classical
  have hindered : ∃ index failure, Hinders periods index failure := by
    by_contra free
    push Not at free
    have reduced := hyperPeriod_of_free (Nat.le_refl periods.length)
      fun earlier _ other => free earlier other
    rw [List.take_length] at reduced
    exact refused _ reduced
  obtain ⟨failure, hinders⟩ := Nat.find_spec hindered
  refine ⟨Nat.find hindered, failure, hinders, fun earlier before other alsoHinders => ?_⟩
  exact Nat.find_min hindered before ⟨other, alsoHinders⟩

theorem hyperPeriod_eq_error :
    hyperPeriod periods = .error failure ↔ ∃ index, FirstHinders periods index failure := by
  constructor
  · intro stopped
    have refused : ∀ common, hyperPeriod periods ≠ .ok common := by simp [stopped]
    obtain ⟨index, cause, first⟩ := exists_first refused
    have same := (hyperPeriod_of_first first).symm.trans stopped
    exact ⟨index, Except.error.inj same ▸ first⟩
  · intro ⟨index, first⟩
    exact hyperPeriod_of_first first

theorem hyperPeriod_perm (perm : periods.Perm others) (common : Nat) :
    hyperPeriod periods = .ok common ↔ hyperPeriod others = .ok common := by
  have same : (periods : Multiset Nat) = others := Multiset.coe_eq_coe.mpr perm
  simp only [hyperPeriod_eq_ok, same, perm.mem_iff]

/-- The hyperperiod is the least common multiple whenever that exists and is short enough, in any
order of the periods, and otherwise the first hindrance is told. Computed on words it is the same,
so that no product on the way is cut off. -/
theorem hyperPeriod_outcome (periods : List Nat) :
    (∀ common, hyperPeriod periods = .ok common ↔ (∀ period ∈ periods, period ≠ 0) ∧
      (periods : Multiset Nat).lcm ≤ longest ∧ common = (periods : Multiset Nat).lcm) ∧
    (∀ common, hyperPeriod periods = .ok common → 0 < common ∧
      (∀ period ∈ periods, period ∣ common) ∧
      ∀ multiple, (∀ period ∈ periods, period ∣ multiple) → common ∣ multiple) ∧
    (∀ failure, hyperPeriod periods = .error failure ↔
      ∃ index, FirstHinders periods index failure) ∧
    (∀ others, periods.Perm others → ∀ common,
      hyperPeriod periods = .ok common ↔ hyperPeriod others = .ok common) ∧
    Checked.hyperPeriod periods = .ofLogged (.ofExcept (hyperPeriod periods)) := by
  refine ⟨?_, ?_, fun failure => hyperPeriod_eq_error, fun others => hyperPeriod_perm,
    Checked.extend_eq Nat.one_pos⟩
  · intro common
    rw [hyperPeriod_eq_ok]
    constructor
    · intro ⟨nonzero, same, fits⟩
      exact ⟨nonzero, same ▸ fits, same⟩
    · intro ⟨nonzero, fits, same⟩
      exact ⟨nonzero, same, same ▸ fits⟩
  · intro common reduced
    obtain ⟨nonzero, rfl, -⟩ := hyperPeriod_eq_ok.mp reduced
    refine ⟨lcm_pos nonzero, fun period member => ?_, fun multiple divides => ?_⟩
    · exact Multiset.dvd_lcm (by simpa using member)
    · exact Multiset.lcm_dvd.mpr fun period member => divides period (by simpa using member)

/-- At the limit: twice the second period is too long, and so is three times the first. -/
theorem hyperPeriod_outcome_limits :
    hyperPeriod [Nat.pow 2 61, Nat.pow 2 62, 4] = .ok (Nat.pow 2 62) ∧
    (∀ period ∈ [Nat.pow 2 61, Nat.pow 2 62, 4], period ∣ Nat.pow 2 62) ∧
    hyperPeriod [Nat.pow 2 61, Nat.pow 2 62, 3, 0] = .error (.hyperPeriodOverflow 2) ∧
    ∃ index, FirstHinders [Nat.pow 2 61, Nat.pow 2 62, 3, 0] index (.hyperPeriodOverflow 2) := by
  have reduced : hyperPeriod [Nat.pow 2 61, Nat.pow 2 62, 4] = .ok (Nat.pow 2 62) := rfl
  have stopped :
      hyperPeriod [Nat.pow 2 61, Nat.pow 2 62, 3, 0] = .error (.hyperPeriodOverflow 2) := rfl
  obtain ⟨-, common, -⟩ := hyperPeriod_outcome [Nat.pow 2 61, Nat.pow 2 62, 4]
  obtain ⟨-, -, first, -⟩ := hyperPeriod_outcome [Nat.pow 2 61, Nat.pow 2 62, 3, 0]
  exact ⟨reduced, (common _ reduced).2.1, stopped, (first _).mp stopped⟩

end DagDeploy.Period
