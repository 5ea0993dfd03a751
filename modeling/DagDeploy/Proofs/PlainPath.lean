import DagDeploy.Descriptor
import DagDeploy.Path

/-! Relative paths of plain names: no part of them stays where it is or rises. Dividing such a path
at its slashes and joining its parts again are inverse, and one more name is one more part. -/

namespace DagDeploy.Path

/-- A relative path that consists of plain names. -/
def IsPlain (path : String) : Prop :=
  ∀ part ∈ parts path, stays part = false ∧ rises part = false ∧ '\x00' ∉ part.toList

/-- The path and its names are not longer than the system allows. -/
structure Fits (path : String) : Prop where
  whole : path.utf8ByteSize ≤ longestPath
  names : ∀ part ∈ parts path, part.utf8ByteSize ≤ longestName

def within (folder file : String) : String := folder ++ "/" ++ file

theorem splitSlashes_ne_nil (text : List Char) : splitSlashes text ≠ [] := by
  cases text with
  | nil => simp [splitSlashes]
  | cons c rest =>
    simp only [splitSlashes]
    split
    · simp
    · split <;> simp

theorem splitSlashes_append (front back : List Char) :
    splitSlashes (front ++ '/' :: back) = splitSlashes front ++ splitSlashes back := by
  induction front with
  | nil => simp [splitSlashes]
  | cons c rest ih =>
    simp only [List.cons_append, splitSlashes, ih]
    split
    · rfl
    · cases split : splitSlashes rest with
      | nil => exact absurd split (splitSlashes_ne_nil rest)
      | cons name names => rfl

theorem splitSlashes_of_notMem {text : List Char} (noSlash : '/' ∉ text) :
    splitSlashes text = [text] := by
  induction text with
  | nil => rfl
  | cons c rest ih =>
    rw [List.mem_cons, not_or] at noSlash
    obtain ⟨different, others⟩ := noSlash
    simp only [splitSlashes, ih others, Ne.symm different, if_false]

theorem notMem_of_mem_splitSlashes {text part : List Char} (member : part ∈ splitSlashes text) :
    '/' ∉ part := by
  induction text generalizing part with
  | nil =>
    obtain rfl := List.mem_singleton.mp member
    exact List.not_mem_nil
  | cons c rest ih =>
    simp only [splitSlashes] at member
    split at member
    · rcases List.mem_cons.mp member with rfl | further
      · exact List.not_mem_nil
      · exact ih further
    next different =>
      cases division : splitSlashes rest with
      | nil => exact absurd division (splitSlashes_ne_nil rest)
      | cons name names =>
        simp only [division, List.mem_cons] at member ih
        rcases member with rfl | further
        · rw [List.mem_cons, not_or]
          exact ⟨Ne.symm different, ih (.inl rfl)⟩
        · exact ih (.inr further)

theorem intercalate_splitSlashes (text : List Char) :
    ['/'].intercalate (splitSlashes text) = text := by
  induction text with
  | nil => rfl
  | cons c rest ih =>
    cases division : splitSlashes rest with
    | nil => exact absurd division (splitSlashes_ne_nil rest)
    | cons name names =>
      rw [division] at ih
      simp only [splitSlashes, division]
      split
      next slash => rw [List.intercalate_cons_cons, ih, slash]; rfl
      next =>
        cases names with
        | nil => simpa using ih
        | cons second others =>
          rw [List.intercalate_cons_cons] at ih ⊢
          simp [← ih]

theorem parts_within (folder file : String) :
    parts (within folder file) = parts folder ++ parts file := by
  simp [parts, within, splitSlashes_append]

theorem parts_of_notMem {name : String} (noSlash : '/' ∉ name.toList) : parts name = [name] := by
  simp [parts, splitSlashes_of_notMem noSlash]

theorem notMem_of_mem_parts {path part : String} (member : part ∈ parts path) :
    '/' ∉ part.toList := by
  obtain ⟨text, divided, rfl⟩ := List.mem_map.mp member
  rw [String.toList_ofList]
  exact notMem_of_mem_splitSlashes divided

theorem parts_ne_nil (path : String) : parts path ≠ [] := by
  simp [parts, splitSlashes_ne_nil]

theorem ofParts_parts (path : String) : ofParts (parts path) = path := by
  apply String.toList_inj.mp
  rw [ofParts, String.toList_intercalate, parts, List.map_map]
  simpa [Function.comp_def] using intercalate_splitSlashes path.toList

theorem parts_ofParts {names : List String} (noSlash : ∀ name ∈ names, '/' ∉ name.toList)
    (nonempty : names ≠ []) : parts (ofParts names) = names := by
  induction names with
  | nil => exact absurd rfl nonempty
  | cons name rest ih =>
    obtain ⟨first, others⟩ := List.forall_mem_cons.mp noSlash
    cases rest with
    | nil => simpa [ofParts] using parts_of_notMem first
    | cons second further =>
      have joined : ofParts (name :: second :: further)
          = within name (ofParts (second :: further)) := by
        apply String.toList_inj.mp
        simp [ofParts, within, String.toList_intercalate]
      rw [joined, parts_within, parts_of_notMem first, ih others (List.cons_ne_nil _ _)]
      rfl

theorem ofParts_append {front : List String} (nonempty : front ≠ []) (name : String) :
    ofParts (front ++ [name]) = within (ofParts front) name := by
  induction front with
  | nil => exact absurd rfl nonempty
  | cons first rest ih =>
    apply String.toList_inj.mp
    cases rest with
    | nil => simp [ofParts, within]
    | cons second further =>
      have joined := congrArg String.toList (ih (List.cons_ne_nil _ _))
      simp [ofParts, within, String.toList_intercalate] at joined ⊢
      simp [joined]

variable {path folder file : String}

theorem isPlain_within (plain : IsPlain folder) (plainFile : IsPlain file) :
    IsPlain (within folder file) := by
  intro part member
  rw [parts_within, List.mem_append] at member
  exact member.elim (plain part) (plainFile part)

theorem IsPlain.notMem_empty (plain : IsPlain path) : "" ∉ parts path := fun member =>
  absurd (plain "" member).1 (by decide)

theorem IsPlain.isEmpty (plain : IsPlain path) : path.isEmpty = false := by
  rw [Bool.eq_false_iff, ne_eq, String.isEmpty_iff]
  rintro rfl
  exact plain.notMem_empty (by decide)

theorem IsPlain.isAbsolute (plain : IsPlain path) : isAbsolute path = false := by
  rw [Bool.eq_false_iff]
  intro absolute
  apply plain.notMem_empty
  cases text : path.toList with
  | nil => simp [Path.isAbsolute, text] at absolute
  | cons c rest =>
    obtain rfl : c = '/' := by simpa [Path.isAbsolute, text] using absolute
    simp [parts, text, splitSlashes]

theorem IsPlain.getLast_ne (plain : IsPlain path) : path.toList.getLast? ≠ some '/' := by
  intro slash
  obtain ⟨front, text⟩ := List.getLast?_eq_some_iff.mp slash
  apply plain.notMem_empty
  simp [parts, text, splitSlashes_append, splitSlashes]

theorem join_of_isPlain (plain : IsPlain folder) (plainFile : IsPlain file) :
    join folder file = within folder file := by
  simp only [join, within, plainFile.isAbsolute, plain.isEmpty, Bool.or_self, Bool.false_eq_true,
    if_false, beq_iff_eq, plain.getLast_ne]

theorem mem_splitSlashes_of_mem {text : List Char} {c : Char} (member : c ∈ text)
    (different : c ≠ '/') : ∃ part ∈ splitSlashes text, c ∈ part := by
  induction text with
  | nil => cases member
  | cons first rest ih =>
    simp only [splitSlashes]
    rcases List.mem_cons.mp member with rfl | further
    · rw [if_neg different]
      split
      · exact ⟨_, List.mem_singleton.mpr rfl, List.mem_singleton.mpr rfl⟩
      · exact ⟨_, List.mem_cons_self, List.mem_cons_self⟩
    · obtain ⟨part, inside, holds⟩ := ih further
      split
      · exact ⟨part, List.mem_cons_of_mem _ inside, holds⟩
      · cases division : splitSlashes rest with
        | nil => exact absurd division (splitSlashes_ne_nil rest)
        | cons name names =>
          rw [division] at inside
          rcases List.mem_cons.mp inside with rfl | later
          · exact ⟨_, List.mem_cons_self, List.mem_cons_of_mem _ holds⟩
          · exact ⟨part, List.mem_cons_of_mem _ later, holds⟩

/-- Only its length can make a path of plain names invalid. -/
theorem IsPlain.isValid_iff (plain : IsPlain path) :
    isValid path = true ↔ path.utf8ByteSize ≤ longestPath := by
  have noZero : '\x00' ∉ path.toList := by
    intro member
    obtain ⟨part, divided, holds⟩ := mem_splitSlashes_of_mem member (by decide)
    have absent := (plain (String.ofList part) (List.mem_map_of_mem divided)).2.2
    exact absent (by rwa [String.toList_ofList])
  simp [isValid, noZero]

theorem isName_iff {part : String} : isName part = true ↔
    stays part = false ∧ rises part = false ∧ part.utf8ByteSize ≤ longestName := by
  simp [isName, and_assoc]

theorem IsPlain.isName (plain : IsPlain path) (fits : Fits path) :
    ∀ part ∈ parts path, isName part = true := fun part member =>
  isName_iff.mpr ⟨(plain part member).1, (plain part member).2.1, fits.names part member⟩

theorem IsPlain.isValid (plain : IsPlain path) (fits : Fits path) : isValid path = true :=
  plain.isValid_iff.mpr fits.whole

/-- The folders around a path of plain names are the paths of its first parts. -/
theorem ascending_of_isPlain {reversed : List String}
    (plain : ∀ part ∈ reversed, stays part = false) (nonempty : reversed ≠ []) :
    ascending reversed = reversed :: ascending reversed.tail := by
  cases reversed with
  | nil => exact absurd rfl nonempty
  | cons part rest =>
    have moves : stays part = false := plain part List.mem_cons_self
    simp [ascending, moves]

theorem IsPlain.around {front : List String} {name : String} (plain : IsPlain path)
    (divided : parts path = front ++ [name]) (nonempty : front ≠ []) :
    parts (ofParts front) = front ∧ IsPlain (ofParts front) ∧
      (Fits path → Fits (ofParts front)) := by
  have inside : ∀ part ∈ front, part ∈ parts path := fun part member =>
    divided ▸ List.mem_append_left _ member
  have same : parts (ofParts front) = front :=
    parts_ofParts (fun part member => notMem_of_mem_parts (inside part member)) nonempty
  refine ⟨same, ?_, fun fits => ⟨?_, ?_⟩⟩
  · intro part member
    rw [same] at member
    exact plain part (inside part member)
  · have whole : path = within (ofParts front) name := by
      rw [← ofParts_append nonempty, ← divided, ofParts_parts]
    have longer := fits.whole
    rw [whole, within, String.utf8ByteSize_append, String.utf8ByteSize_append] at longer
    omega
  · intro part member
    rw [same] at member
    exact fits.names part (inside part member)

end DagDeploy.Path
