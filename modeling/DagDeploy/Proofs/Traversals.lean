import Mathlib.Data.List.Forall2

/-! Traversals of lists, item after item. One that may fail either succeeds at each item or stops at
the first one where it fails. -/

namespace DagDeploy

/-- A traversal without effects is a map. -/
theorem mapM_eq_map {m : Type → Type} [Monad m] [LawfulMonad m] {α β : Type} {step : α → m β}
    {plain : α → β} {items : List α} (each : ∀ item ∈ items, step item = pure (plain item)) :
    items.mapM step = pure (items.map plain) := by
  induction items with
  | nil => rfl
  | cons item rest ih =>
    obtain ⟨first, others⟩ := List.forall_mem_cons.mp each
    rw [List.mapM_cons, first, pure_bind, ih others, pure_bind, List.map_cons]

variable {α β ε : Type} {step : α → Except ε β} {items : List α} {results : List β} {fault : ε}

/-- The results of a traversal that succeeds. -/
def Yields (step : α → Except ε β) (items : List α) (results : List β) : Prop :=
  List.Forall₂ (fun item result => step item = .ok result) items results

/-- The first item where a traversal fails. -/
def StopsAt (step : α → Except ε β) (items : List α) (fault : ε) : Prop :=
  ∃ before item after, items = before ++ item :: after ∧
    (∀ earlier ∈ before, ∃ result, step earlier = .ok result) ∧ step item = .error fault

theorem mapM_of_yields (yields : Yields step items results) : items.mapM step = .ok results := by
  induction yields with
  | nil => rfl
  | cons here _ ih =>
    rw [List.mapM_cons, here, ih]
    rfl

theorem mapM_of_stopsAt (stops : StopsAt step items fault) : items.mapM step = .error fault := by
  obtain ⟨before, item, after, rfl, earlier, here⟩ := stops
  induction before with
  | nil =>
    rw [List.nil_append, List.mapM_cons, here]
    rfl
  | cons first rest ih =>
    obtain ⟨⟨result, fine⟩, others⟩ := List.forall_mem_cons.mp earlier
    rw [List.cons_append, List.mapM_cons, fine, ih others]
    rfl

theorem yields_or_stopsAt (step : α → Except ε β) (items : List α) :
    (∃ results, Yields step items results) ∨ ∃ fault, StopsAt step items fault := by
  induction items with
  | nil => exact .inl ⟨[], .nil⟩
  | cons item rest ih =>
    cases here : step item with
    | error fault => exact .inr ⟨fault, [], item, rest, rfl, by simp, here⟩
    | ok result =>
      rcases ih with ⟨results, yields⟩ | ⟨fault, before, other, after, rfl, earlier, stops⟩
      · exact .inl ⟨result :: results, .cons here yields⟩
      · refine .inr ⟨fault, item :: before, other, after, rfl, ?_, stops⟩
        exact List.forall_mem_cons.mpr ⟨⟨result, here⟩, earlier⟩

theorem mapM_eq_ok : items.mapM step = .ok results ↔ Yields step items results := by
  refine ⟨fun succeeded => ?_, mapM_of_yields⟩
  rcases yields_or_stopsAt step items with ⟨others, yields⟩ | ⟨fault, stops⟩
  · have same := (mapM_of_yields yields).symm.trans succeeded
    exact Except.ok.inj same ▸ yields
  · rw [mapM_of_stopsAt stops] at succeeded
    cases succeeded

theorem mapM_eq_error : items.mapM step = .error fault ↔ StopsAt step items fault := by
  refine ⟨fun failed => ?_, mapM_of_stopsAt⟩
  rcases yields_or_stopsAt step items with ⟨results, yields⟩ | ⟨other, stops⟩
  · rw [mapM_of_yields yields] at failed
    cases failed
  · have same := (mapM_of_stopsAt stops).symm.trans failed
    exact Except.error.inj same ▸ stops

theorem Yields.mem_iff (yields : Yields step items results) {result : β} :
    result ∈ results ↔ ∃ item ∈ items, step item = .ok result := by
  induction yields with
  | nil => simp
  | cons here _ ih => simp [ih, here, eq_comm]

/-- A traversal has results when each item has one. -/
theorem exists_yields_iff : (∃ results, Yields step items results) ↔
    ∀ item ∈ items, ∃ result, step item = .ok result := by
  constructor
  · intro ⟨results, yields⟩ item member
    obtain ⟨position, inside, rfl⟩ := List.getElem_of_mem member
    exact ⟨_, yields.get inside (yields.length_eq ▸ inside)⟩
  · intro each
    rcases yields_or_stopsAt step items with yields | ⟨fault, before, item, after, rfl, -, stops⟩
    · exact yields
    · obtain ⟨result, fine⟩ := each item (by simp)
      rw [stops] at fine
      cases fine

end DagDeploy
