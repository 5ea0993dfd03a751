import DagDeploy.Binary64
import DagDeploy.Logged

/-! The catalogue of supported task kinds and known accelerated kernels. A kernel is recognised by
the solved worst case execution time of its task, to the nanosecond. -/

namespace DagDeploy

/-- A finite map from execution times to kernel ids, in ascending order of the times. -/
structure KernelIds where
  entries : List (Int × Int)
  ascending : entries.Pairwise fun earlier later => earlier.1 < later.1
  deriving DecidableEq

namespace KernelIds

def place (time kernel : Int) : List (Int × Int) → List (Int × Int)
  | [] => [(time, kernel)]
  | entry :: rest =>
    if time < entry.1 then (time, kernel) :: entry :: rest
    else if time = entry.1 then (time, kernel) :: rest
    else entry :: place time kernel rest

theorem mem_place {time kernel : Int} {entry : Int × Int} {entries : List (Int × Int)}
    (member : entry ∈ place time kernel entries) : entry = (time, kernel) ∨ entry ∈ entries := by
  induction entries with
  | nil => simpa [place] using member
  | cons first rest ih =>
    simp only [place] at member
    split at member
    · simpa using member
    split at member
    · rcases List.mem_cons.mp member with same | inside
      · exact .inl same
      · exact .inr (List.mem_cons_of_mem _ inside)
    · rcases List.mem_cons.mp member with same | inside
      · exact .inr (same ▸ List.mem_cons_self)
      · exact (ih inside).imp_right (List.mem_cons_of_mem _)

theorem place_ascending {time kernel : Int} {entries : List (Int × Int)}
    (ascending : entries.Pairwise fun earlier later => earlier.1 < later.1) :
    (place time kernel entries).Pairwise fun earlier later => earlier.1 < later.1 := by
  induction entries with
  | nil => simp [place]
  | cons first rest ih =>
    obtain ⟨below, sorted⟩ := List.pairwise_cons.mp ascending
    simp only [place]
    split
    · rename_i less
      refine List.pairwise_cons.mpr ⟨fun entry member => ?_, ascending⟩
      rcases List.mem_cons.mp member with rfl | inside
      · exact less
      · exact Int.lt_trans less (below entry inside)
    split
    · rename_i same
      exact List.pairwise_cons.mpr ⟨fun entry member => same ▸ below entry member, sorted⟩
    · rename_i notLess notSame
      refine List.pairwise_cons.mpr ⟨fun entry member => ?_, ih sorted⟩
      rcases mem_place member with rfl | inside
      · simp only; omega
      · exact below entry inside

theorem lookup_entry (time kernel other : Int) (entries : List (Int × Int)) :
    ((time, kernel) :: entries).lookup other
      = if other = time then some kernel else entries.lookup other := by
  by_cases same : other = time
  · simp [same]
  · have different : (other == time) = false := by simpa using same
    simp [List.lookup_cons, different, same]

theorem lookup_place (time kernel other : Int) (entries : List (Int × Int)) :
    (place time kernel entries).lookup other
      = if other = time then some kernel else entries.lookup other := by
  induction entries with
  | nil => exact lookup_entry time kernel other []
  | cons first rest ih =>
    obtain ⟨known, value⟩ := first
    simp only [place]
    split
    · exact lookup_entry time kernel other ((known, value) :: rest)
    split
    · rename_i same
      have same : time = known := same
      simp only [lookup_entry, same]
      split <;> rfl
    · rename_i different
      have different : time ≠ known := different
      simp only [lookup_entry, ih]
      by_cases found : other = known
      · have apart : known ≠ time := different.symm
        simp [found, apart]
      · simp [found]

def empty : KernelIds := ⟨[], .nil⟩

def insert (ids : KernelIds) (time kernel : Int) : KernelIds :=
  ⟨place time kernel ids.entries, place_ascending ids.ascending⟩

/-- A later entry replaces an earlier one of the same time. -/
def ofList (entries : List (Int × Int)) : KernelIds :=
  entries.foldl (fun ids entry => ids.insert entry.1 entry.2) empty

def find? (ids : KernelIds) (time : Int) : Option Int := ids.entries.lookup time

@[simp] theorem find?_empty (time : Int) : empty.find? time = none := rfl

@[simp] theorem find?_insert (ids : KernelIds) (time kernel other : Int) :
    (ids.insert time kernel).find? other
      = if other = time then some kernel else ids.find? other :=
  lookup_place time kernel other ids.entries

end KernelIds

structure Catalogue where
  supportedKinds : List TaskKind
  kernelIds : KernelIds
  /-- The slowest kernel, for execution times that match none. -/
  defaultKernel : Int
  /-- Written for tasks that are not accelerated. -/
  notAccelerated : Int
  expectedWcetRatio : Binary64
  deriving DecidableEq

namespace Catalogue

/-- The kernels are a vector sum, a vector exclusive or, and products of matrices of 64 and 128
rows. The ratio is 0.95. -/
def standard : Catalogue where
  supportedKinds := [.cpu, .fred, .omp]
  kernelIds := ⟨[(897615, 100), (899473, 101), (1276500, 103), (4381910, 102)], by decide⟩
  defaultKernel := 102
  notAccelerated := -1
  expectedWcetRatio := .ofRank false 0x3fee666666666666

def ensureSupported (catalogue : Catalogue) (kind : TaskKind) : Except Failure Unit :=
  if kind ∈ catalogue.supportedKinds then .ok () else .error (.unsupportedKind kind)

def kernelOf (catalogue : Catalogue) (wcet : Int) : Logged Int :=
  match catalogue.kernelIds.find? wcet with
  | some kernel => pure kernel
  | none => do
    Logged.say (.unknownKernel wcet catalogue.defaultKernel)
    return catalogue.defaultKernel

end Catalogue

end DagDeploy
