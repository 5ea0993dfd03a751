import DagDeploy.Proofs.FloatText
import DagDeploy.Proofs.PlainWords

/-! Lists and records are read back from the nodes that are made of them, if their parts are. The
fields of a record are found by their keys as long as no key repeats. -/

namespace DagDeploy.Yaml.Node

variable {α : Type} {fields : List (String × Node)}

theorem float?_ofFloat (value : Binary64) : (ofFloat value).float? = some value := by
  simp [float?, ofFloat, numeral?, untagged, plain, float?_writeFloat]

theorem mapM_map_of_reads {β : Type} {write : α → β} {read : β → Option α} {values : List α}
    (reads : ∀ value ∈ values, read (write value) = some value) :
    (values.map write).mapM read = some values := by
  induction values with
  | nil => rfl
  | cons value rest ih =>
    have first := reads value List.mem_cons_self
    have others := ih fun other member => reads other (List.mem_cons_of_mem value member)
    simp [first, others]

theorem list?_ofList {item : α → Node} {item? : Node → Option α} {values : List α}
    (reads : ∀ value ∈ values, item? (item value) = some value) :
    (ofList item values).list? item? = some values :=
  mapM_map_of_reads reads

theorem fields?_ofRecord (fields : List (String × Node)) :
    (ofRecord fields).fields? = some fields :=
  mapM_map_of_reads fun _ _ => rfl

theorem under_of_notMem {key : String} (absent : key ∉ fields.map Prod.fst) :
    under key fields = [] := by
  have none : fields.filter (·.1 == key) = [] := by
    rw [List.filter_eq_nil_iff]
    intro field member same
    exact absent (List.mem_map.mpr ⟨field, member, beq_iff_eq.mp same⟩)
  rw [under, none, List.map_nil]

theorem under_of_mem (distinct : (fields.map Prod.fst).Nodup) {key : String} {node : Node}
    (member : (key, node) ∈ fields) : under key fields = [node] := by
  induction fields with
  | nil => cases member
  | cons field rest ih =>
    rw [List.map_cons, List.nodup_cons] at distinct
    obtain ⟨absent, further⟩ := distinct
    rcases List.mem_cons.mp member with rfl | later
    · have none := under_of_notMem absent
      simp only [under, List.filter_cons, beq_self_eq_true, if_true, List.map_cons] at none ⊢
      rw [none]
    · have different : (field.1 == key) = false := by
        rw [beq_eq_false_iff_ne]
        rintro rfl
        exact absent (List.mem_map.mpr ⟨(field.1, node), later, rfl⟩)
      have found := ih further later
      simp only [under, List.filter_cons, different, Bool.false_eq_true, if_false] at found ⊢
      exact found

/-- A record has its fields, and no key leads to another one. -/
theorem reads_ofRecord (distinct : (fields.map Prod.fst).Nodup) :
    ∃ found, (ofRecord fields).fields? = some found ∧
      ∀ field ∈ fields, ∀ (β : Type) (value? : Node → Option β),
        field? found field.1 value? = value? field.2 := by
  refine ⟨fields, fields?_ofRecord fields, fun field member β value? => ?_⟩
  rw [field?, under_of_mem distinct member]

theorem readsOr_ofRecord (distinct : (fields.map Prod.fst).Nodup) :
    ∃ found, (ofRecord fields).fields? = some found ∧
      ∀ field ∈ fields, ∀ (β : Type) (fallback : β) (value? : Node → Option β),
        fieldOr? fallback found field.1 value? = value? field.2 := by
  refine ⟨fields, fields?_ofRecord fields, fun field member β fallback value? => ?_⟩
  rw [fieldOr?, under_of_mem distinct member]

section bare

theorem isBare_plain {text : String} (word : isWord text.toList = true) :
    (plain text).isBare = true := by
  simp [plain, isBare, Style.isPlain, word]

theorem isBare_ofNat (value : Nat) : (ofNat value).isBare = true :=
  isBare_plain (by rw [String.toList_ofList]; exact isWord_ofNat value)

theorem isBare_ofInt (value : Int) : (ofInt value).isBare = true :=
  isBare_plain (by rw [String.toList_ofList]; exact isWord_ofInt value)

theorem isBare_ofFloat (value : Binary64) : (ofFloat value).isBare = true :=
  isBare_plain (by rw [String.toList_ofList]; exact isWord_writeFloat value)

theorem isBare_ofText {text : String} (word : isWord text.toList = true)
    (unquoted : needsQuotes text = false) : (ofText text).isBare = true := by
  rw [ofText, unquoted]
  exact isBare_plain word

theorem isBare_ofList {item : α → Node} {values : List α}
    (bare : ∀ value ∈ values, (item value).isBare = true) : (ofList item values).isBare = true := by
  have each : areBare (values.map item) = true := by
    induction values with
    | nil => rfl
    | cons value rest ih =>
      have others := ih fun other member => bare other (List.mem_cons_of_mem value member)
      rw [List.map_cons, areBare, bare value List.mem_cons_self, others]
      rfl
  exact each

/-- Whether a text can be a key of a bare mapping. -/
def isBareKey (key : String) : Bool := isWord key.toList && key.toList.length ≤ 1024

theorem isBare_ofRecord (keys : (fields.map Prod.fst).all isBareKey = true)
    (values : ∀ node ∈ fields.map Prod.snd, node.isBare = true) :
    (ofRecord fields).isBare = true := by
  have each : areBareEntries (fields.map fun field => (plain field.1, field.2)) = true := by
    induction fields with
    | nil => rfl
    | cons field rest ih =>
      rw [List.map_cons, List.all_cons, Bool.and_eq_true] at keys
      have others := ih keys.2 fun node member => values node (List.mem_cons_of_mem _ member)
      have value := values field.2 List.mem_cons_self
      have key := keys.1
      rw [isBareKey] at key
      have entry : isBareEntry (plain field.1, field.2) = true := by
        simp only [plain, isBareEntry, Style.isPlain, Bool.true_and, key, value]
      rw [List.map_cons, areBareEntries, entry, others]
      rfl
  exact each

end bare

end DagDeploy.Yaml.Node
