import DagDeploy.Proofs.Dumping

/-! The names of dags and tasks: a stem with a number behind it. Files that are named after dags
have names that are plain, and can stand in every folder. -/

namespace DagDeploy

/-- A stem with at least some digits behind it. -/
def IsNumbered (stem : String) (least : Nat) (name : String) : Prop :=
  ∃ digits, name.toList = stem.toList ++ digits ∧ least ≤ digits.length ∧
    ∀ c ∈ digits, c.isDigit = true

namespace Descriptor

variable {descriptor : Descriptor}

theorem toList_nameOf (dag : Nat) : (nameOf dag).toList = "dag".toList ++ Decimal.ofNat dag :=
  String.toList_ofList

theorem isNumbered_nameOf (dag : Nat) : IsNumbered "dag" 1 (nameOf dag) := by
  refine ⟨Decimal.ofNat dag, toList_nameOf dag, ?_, ?_⟩
  · exact List.length_pos_iff.mpr Nat.toDigits_ne_nil
  · exact fun _ => Nat.isDigit_of_mem_toDigits (by decide) (by decide)

theorem isNumbered_taskName (task : Nat) : IsNumbered "n" 3 (taskName task) := by
  refine ⟨List.replicate (3 - (Decimal.ofNat task).length) '0' ++ Decimal.ofNat task, ?_, ?_, ?_⟩
  · rw [taskName, String.toList_ofList]
    rfl
  · rw [List.length_append, List.length_replicate]
    omega
  · intro c member
    rcases List.mem_append.mp member with zero | digit
    · rw [List.eq_of_mem_replicate zero]
      rfl
    · exact Nat.isDigit_of_mem_toDigits (by decide) (by decide) digit

theorem notMem_fileName (numbered : IsNumbered "dag" 1 descriptor.name) {c : Char}
    (noDigit : c.isDigit = false) (noLetter : c ∉ "dag".toList ++ ".yaml".toList) :
    c ∉ descriptor.fileName.toList := by
  obtain ⟨digits, shape, -, isDigits⟩ := numbered
  rw [fileName, String.toList_append, shape]
  intro member
  rcases List.mem_append.mp member with front | back
  · rcases List.mem_append.mp front with letter | digit
    · exact noLetter (List.mem_append_left _ letter)
    · rw [isDigits c digit] at noDigit
      cases noDigit
  · exact noLetter (List.mem_append_right _ back)

theorem storable_of_isNumbered (numbered : IsNumbered "dag" 1 descriptor.name) :
    descriptor.Storable := by
  have single : '/' ∉ descriptor.fileName.toList :=
    notMem_fileName numbered (by decide) (by decide)
  have differs : ∀ other : String, other.toList.head? ≠ some 'd' → descriptor.fileName ≠ other := by
    rintro other different rfl
    obtain ⟨digits, shape, -⟩ := numbered
    have starts : descriptor.fileName.toList.head? = some 'd' := by simp [fileName, shape]
    exact different starts
  refine ⟨single, fun part member => ?_⟩
  rw [Path.parts_of_notMem single, List.mem_singleton] at member
  subst member
  refine ⟨?_, ?_, notMem_fileName numbered (by decide) (by decide)⟩
  · simp [Path.stays, differs "" (by decide), differs "." (by decide)]
  · simp [Path.rises, differs ".." (by decide)]

end Descriptor

end DagDeploy
