import DagDeploy.Document.Catalogue
import Mathlib.Data.List.Nodup

/-! Kernel ids are known by what is found in them, and of a list of entries the last one of a time
is found. So the order of the entries counts only where a time is repeated. -/

namespace DagDeploy.KernelIds

section lookup

variable {entries : List (Int × Int)} {time kernel : Int}

theorem lookup_eq_some_iff (distinct : (entries.map Prod.fst).Nodup) :
    entries.lookup time = some kernel ↔ (time, kernel) ∈ entries := by
  induction entries with
  | nil => simp
  | cons first rest ih =>
    obtain ⟨absent, further⟩ := List.nodup_cons.mp distinct
    rw [lookup_entry first.1 first.2, List.mem_cons]
    split
    next same =>
      subst same
      have elsewhere : (first.1, kernel) ∉ rest := fun later =>
        absent (List.mem_map.mpr ⟨_, later, rfl⟩)
      simp [Prod.ext_iff, elsewhere, eq_comm]
    next different => simp [Prod.ext_iff, different, ih further]

end lookup

variable {ids others : KernelIds} {time kernel : Int}

theorem nodup_times (ids : KernelIds) : (ids.entries.map Prod.fst).Nodup :=
  List.pairwise_map.mpr (ids.ascending.imp Int.ne_of_lt)

theorem mem_entries : (time, kernel) ∈ ids.entries ↔ ids.find? time = some kernel :=
  (lookup_eq_some_iff ids.nodup_times).symm

/-- In ascending order there is one list of each set of entries. -/
theorem eq_of_find? (same : ∀ time, ids.find? time = others.find? time) : ids = others := by
  have members : ∀ entry, entry ∈ ids.entries ↔ entry ∈ others.entries := by
    intro entry
    calc entry ∈ ids.entries ↔ ids.find? entry.1 = some entry.2 := mem_entries
      _ ↔ others.find? entry.1 = some entry.2 := by rw [same]
      _ ↔ entry ∈ others.entries := mem_entries.symm
  have perm : ids.entries.Perm others.entries :=
    (List.perm_ext_iff_of_nodup ids.nodup_times.of_map others.nodup_times.of_map).mpr members
  have equal := perm.eq_of_pairwise
    (fun _ _ _ _ less more => absurd less (Int.lt_asymm more)) ids.ascending others.ascending
  cases ids
  cases others
  simpa only [KernelIds.mk.injEq] using equal

/-- Of the entries of one time the last counts, and before all of them what was there already. -/
theorem find?_foldl_insert (entries : List (Int × Int)) (ids : KernelIds) (time : Int) :
    (entries.foldl (fun ids entry => ids.insert entry.1 entry.2) ids).find? time
      = (entries.reverse.lookup time).or (ids.find? time) := by
  induction entries generalizing ids with
  | nil => rfl
  | cons first rest ih =>
    rw [List.foldl_cons, ih, find?_insert, List.reverse_cons, List.lookup_append, Option.or_assoc,
      lookup_entry]
    split <;> rfl

theorem find?_ofList (entries : List (Int × Int)) (time : Int) :
    (ofList entries).find? time = entries.reverse.lookup time := by
  rw [ofList, find?_foldl_insert, find?_empty, Option.or_none]

theorem ofList_entries (ids : KernelIds) : ofList ids.entries = ids := by
  apply eq_of_find?
  intro time
  have backwards : (ids.entries.reverse.map Prod.fst).Nodup := by
    rw [List.map_reverse, List.nodup_reverse]
    exact ids.nodup_times
  rw [find?_ofList]
  apply Option.ext
  intro kernel
  rw [lookup_eq_some_iff backwards, List.mem_reverse, mem_entries]

end DagDeploy.KernelIds
