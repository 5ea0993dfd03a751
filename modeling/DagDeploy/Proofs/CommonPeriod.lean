import DagDeploy.Proofs.Acceptance
import Mathlib.Tactic.Ring

/-! The hyperperiod in microseconds. It is computed in nanoseconds and each duration is cut down on
its own, so that it stays the common period of the descriptors when nothing is cut off: when all
periods are whole microseconds. It covers a period in any case. -/

namespace DagDeploy

/-- The least common multiple is known by what it divides. -/
theorem eq_lcm_of_dvd_iff {values : List Int} {common : Int} (nonneg : 0 ≤ common)
    (least : ∀ multiple, common ∣ multiple ↔ ∀ value ∈ values, value ∣ multiple) :
    common = (values : Multiset Int).lcm := by
  have normal : 0 ≤ (values : Multiset Int).lcm :=
    Int.nonneg_of_normalize_eq_self (Multiset.normalize_lcm _)
  apply Int.dvd_antisymm nonneg normal
  · exact (least _).mpr fun value member => Multiset.dvd_lcm (by simpa using member)
  · refine Multiset.lcm_dvd.mpr fun value member => ?_
    exact (least common).mp (dvd_refl common) value (by simpa using member)

namespace Period

variable {periods : List Nat}

/-- Periods of whole microseconds, and at least one of them. -/
structure Whole (periods : List Nat) : Prop where
  nonempty : periods ≠ []
  micros : ∀ period ∈ periods, 1000 ∣ period

theorem Whole.dvd_lcm (whole : Whole periods) : 1000 ∣ (periods : Multiset Nat).lcm := by
  obtain ⟨period, member⟩ := List.exists_mem_of_ne_nil periods whole.nonempty
  exact Nat.dvd_trans (whole.micros period member) (Multiset.dvd_lcm (by simpa using member))

/-- In microseconds the common multiples are the same, a thousandth of what they were. -/
theorem Whole.dvd_iff (whole : Whole periods) (multiple : Int) :
    (((periods : Multiset Nat).lcm / 1000 : Nat) : Int) ∣ multiple ↔
      ∀ micros ∈ periods.map fun period => ((period / 1000 : Nat) : Int), micros ∣ multiple := by
  have scaled : ∀ ns : Nat, 1000 ∣ ns →
      (((ns / 1000 : Nat) : Int) ∣ multiple ↔ ns ∣ 1000 * multiple.natAbs) := by
    intro ns divides
    obtain ⟨micros, rfl⟩ := divides
    rw [Nat.mul_div_cancel_left micros (by decide), Int.natCast_dvd]
    exact (Nat.mul_dvd_mul_iff_left (by decide)).symm
  rw [scaled _ whole.dvd_lcm, Multiset.lcm_dvd, List.forall_mem_map]
  constructor
  · intro all period member
    exact (scaled period (whole.micros period member)).mpr (all period (by simpa using member))
  · intro all period member
    have present : period ∈ periods := by simpa using member
    exact (scaled period (whole.micros period present)).mp (all period present)

end Period

variable {set : DagSet} {solution : Solution} {catalogue : Catalogue}
  {iterations minSeconds : Nat} {descriptors : List Descriptor}

/-- The run length and the periods reach the descriptors in microseconds. -/
theorem lengths_of_convert
    (converted : (convert set solution catalogue iterations minSeconds).outcome
      = .ok descriptors) :
    ∃ run, (RunLength.of set.periods iterations minSeconds).outcome = .ok run ∧
      (descriptors.map Descriptor.period
        = set.periods.map fun period => ((period / 1000 : Nat) : Int)) ∧
      ∀ descriptor ∈ descriptors, descriptor.hyperPeriod = ((run.hyperPeriod / 1000 : Nat) : Int) ∧
        descriptor.repetitions = run.repetitions := by
  obtain ⟨run, computed, described⟩ := Logged.outcome_bind_eq_ok.mp converted
  obtain ⟨board, -, count, each⟩ := Deployment.describeAll_eq_ok.mp described
  have at_index : ∀ index (inside : index < descriptors.length), ∃ dag,
      set.dags[index]? = some dag ∧
        descriptors[index].period = ((dag.period / 1000 : Nat) : Int) ∧
        descriptors[index].hyperPeriod = ((run.hyperPeriod / 1000 : Nat) : Int) ∧
        descriptors[index].repetitions = run.repetitions := by
    intro index inside
    have found := List.getElem?_eq_getElem (count ▸ inside)
    obtain ⟨-, -, -, settled, -, same⟩ := Deployment.describe_eq_ok.mp
      (each index _ _ found (List.getElem?_eq_getElem inside))
    refine ⟨_, found, ?_⟩
    rw [same]
    exact ⟨rfl, rfl, rfl⟩
  refine ⟨run, computed, ?_, ?_⟩
  · apply List.ext_getElem (by simp [DagSet.periods, count])
    intro index inside _
    obtain ⟨dag, found, period, -⟩ := at_index index (by simpa using inside)
    simp [DagSet.periods, period, (List.getElem?_eq_some_iff.mp found).2]
  · intro descriptor member
    obtain ⟨index, inside, rfl⟩ := List.mem_iff_getElem.mp member
    obtain ⟨-, -, -, lengths⟩ := at_index index inside
    exact lengths

/-- No descriptor's period is above its hyperperiod. When all periods are whole microseconds, the
hyperperiod is the least common multiple of the periods that the descriptors state, and repeated as
stated it covers the time asked for. -/
theorem convert_common_period (set : DagSet) (solution : Solution) (catalogue : Catalogue)
    (iterations minSeconds : Nat) (descriptors : List Descriptor)
    (converted : (convert set solution catalogue iterations minSeconds).outcome
      = .ok descriptors) :
    (∀ descriptor ∈ descriptors, descriptor.period ≤ descriptor.hyperPeriod) ∧
      ((∀ dag ∈ set.dags, 1000 ∣ dag.period) → ∀ descriptor ∈ descriptors,
        (∀ other ∈ descriptors, other.period ∣ descriptor.hyperPeriod) ∧
        descriptor.hyperPeriod
          = ((descriptors.map Descriptor.period : List Int) : Multiset Int).lcm ∧
        (minSeconds : Int) * 1000000 ≤ descriptor.repetitions * descriptor.hyperPeriod) := by
  obtain ⟨run, computed, periods, lengths⟩ := lengths_of_convert converted
  obtain ⟨reduced, counted⟩ := RunLength.of_eq_ok.mp computed
  obtain ⟨nonzero, common, -⟩ := Period.hyperPeriod_eq_ok.mp reduced
  constructor
  · intro descriptor member
    obtain ⟨period, present, same⟩ := List.mem_map.mp
      (periods ▸ List.mem_map_of_mem (f := Descriptor.period) member)
    rw [(lengths descriptor member).1, ← same]
    exact Int.ofNat_le.mpr (Nat.div_le_div_right (RunLength.period_le computed present))
  · intro micros descriptor member
    have whole : Period.Whole set.periods := by
      constructor
      · intro empty
        rw [empty, List.map_nil, List.map_eq_nil_iff] at periods
        simp [periods] at member
      · intro period present
        obtain ⟨dag, inside, rfl⟩ := List.mem_map.mp present
        exact micros dag inside
    obtain ⟨hyperPeriod, repetitions⟩ := lengths descriptor member
    have least : ∀ multiple, descriptor.hyperPeriod ∣ multiple ↔
        ∀ period ∈ descriptors.map Descriptor.period, period ∣ multiple := by
      intro multiple
      rw [hyperPeriod, common, periods]
      exact whole.dvd_iff multiple
    refine ⟨?_, ?_, ?_⟩
    · intro other present
      exact (least _).mp (dvd_refl _) _ (List.mem_map_of_mem present)
    · exact eq_lcm_of_dvd_iff (by rw [hyperPeriod]; exact Int.natCast_nonneg _) least
    · have covered := Period.span_le_of_repetitions (common ▸ Period.lcm_pos nonzero) counted
      obtain ⟨thousandth, scaled⟩ := common ▸ whole.dvd_lcm
      rw [hyperPeriod, repetitions, scaled, Nat.mul_div_cancel_left _ (by decide)]
      rw [scaled, Period.nsPerSecond] at covered
      have shorter : minSeconds * 1000000 ≤ run.repetitions * thousandth := by
        apply Nat.le_of_mul_le_mul_left (c := 1000) _ (by decide)
        calc 1000 * (minSeconds * 1000000) = minSeconds * 1000000000 := by ring
          _ ≤ run.repetitions * (1000 * thousandth) := covered
          _ = 1000 * (run.repetitions * thousandth) := by ring
      exact_mod_cast shorter

/-- Periods of 100 and 30 milliseconds, of which seven common ones cover two seconds. -/
def periodicSample : DagSet where
  dags := [Deployment.sampleDag, ⟨[⟨0⟩], [], 30000000, 29999999⟩]

theorem convert_common_period_sample : ∃ descriptors,
    (convert periodicSample Deployment.sampleSolution .standard 1 2).outcome = .ok descriptors ∧
      (∀ dag ∈ periodicSample.dags, 1000 ∣ dag.period) ∧
      ∀ descriptor ∈ descriptors, descriptor.period ≤ descriptor.hyperPeriod ∧
        (∀ other ∈ descriptors, other.period ∣ descriptor.hyperPeriod) ∧
        descriptor.hyperPeriod
          = ((descriptors.map Descriptor.period : List Int) : Multiset Int).lcm ∧
        (2 : Int) * 1000000 ≤ descriptor.repetitions * descriptor.hyperPeriod := by
  obtain ⟨descriptors, converted⟩ : ∃ descriptors,
      (convert periodicSample Deployment.sampleSolution .standard 1 2).outcome = .ok descriptors :=
    ⟨_, rfl⟩
  have micros : ∀ dag ∈ periodicSample.dags, 1000 ∣ dag.period := by decide
  obtain ⟨within, shared⟩ := convert_common_period periodicSample Deployment.sampleSolution
    .standard 1 2 descriptors converted
  exact ⟨descriptors, converted, micros, fun descriptor member =>
    ⟨within descriptor member, shared micros descriptor member⟩⟩

end DagDeploy
