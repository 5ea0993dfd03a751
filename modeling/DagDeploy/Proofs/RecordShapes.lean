import DagDeploy.Proofs.Copies
import Mathlib.Data.List.Nodup
import Mathlib.Logic.Relation

/-! What readers of documents do not tell apart. A record is known by what is written under its
known keys: its entries may be in any order, and entries with other keys may be added. A reader
respects the shape of its documents if it treats documents alike that differ only in this way, and
refuses those in which a key is missing or repeated at any depth. Readers of records and of lists
respect their shapes when the readers of their parts do. -/

namespace DagDeploy.Yaml

namespace Node

/-- All that is written under a key, of whatever kind of scalar. -/
def valuesOf (key : String) (entries : List (Node × Node)) : List Node :=
  (entries.filter (·.1.text? == some key)).map Prod.snd

/-- The entries whose keys are one number, however it is written. -/
def numbered (number : Int) (entries : List (Node × Node)) : List (Node × Node) :=
  entries.filter (·.1.int? 63 == some number)

/-- The text of a scalar that is no copy. -/
def ownText? : Node → Option String
  | .scalar text _ => some text
  | .tagged _ node => node.ownText?
  | _ => none

end Node

open Node

/-- One change that leaves a document what it was, somewhere in it. In a node that is copied it is
a change in the copy. -/
inductive Rearranges : Shape → Node → Node → Prop where
  | reorder {mandatory known} {entries others : List (Node × Node)}
      (permuted : entries.Perm others) :
      Rearranges (.record mandatory known) (.mapping entries) (.mapping others)
  | insert {mandatory known key text value} {before after : List (Node × Node)}
      (named : key.ownText? = some text) (unknown : known.lookup text = none) :
      Rearranges (.record mandatory known) (.mapping (before ++ after))
        (.mapping (before ++ (key, value) :: after))
  /-- The entries of each number stay in order. -/
  | renumber {entries others : List (Node × Node)} (permuted : entries.Perm others)
      (inOrder : ∀ number, numbered number entries = numbered number others) :
      Rearranges .numbered (.mapping entries) (.mapping others)
  | field {mandatory known key text shape value other} {before after : List (Node × Node)}
      (named : key.text? = some text) (isKnown : known.lookup text = some shape)
      (inside : Rearranges shape value other) :
      Rearranges (.record mandatory known) (.mapping (before ++ (key, value) :: after))
        (.mapping (before ++ (key, other) :: after))
  | item {shape item other} {before after : List Node} (inside : Rearranges shape item other) :
      Rearranges (.list shape) (.sequence (before ++ item :: after))
        (.sequence (before ++ other :: after))
  | tagged {shape tag node other} (inside : Rearranges shape node other) :
      Rearranges shape (.tagged tag node) (.tagged tag other)
  | copied {shape} {node other : Unit → Node} (inside : Rearranges shape (node ()) (other ())) :
      Rearranges shape (.copied node) (.copied other)

/-- Somewhere in a document, a known key of a record is repeated, or missing where it must not. -/
inductive Spoilt : Shape → Node → Prop where
  | repeated {mandatory known key shape node entries} (isRecord : node.entries? = some entries)
      (isKnown : (key, shape) ∈ known) (several : 1 < (valuesOf key entries).length) :
      Spoilt (.record mandatory known) node
  | missing {known key shape node entries} (isRecord : node.entries? = some entries)
      (isKnown : (key, shape) ∈ known) (absent : valuesOf key entries = []) :
      Spoilt (.record true known) node
  | field {mandatory known key shape value node entries} (isRecord : node.entries? = some entries)
      (isKnown : (key, shape) ∈ known) (member : value ∈ valuesOf key entries)
      (inside : Spoilt shape value) : Spoilt (.record mandatory known) node
  | item {shape item node items} (isList : node.items? = some items) (member : item ∈ items)
      (inside : Spoilt shape item) : Spoilt (.list shape) node

/-- A reader takes no notice of such changes, and refuses what is spoilt. -/
structure Respects {α : Type} (shape : Shape) (value? : Node → Option α) : Prop where
  same : ∀ {node other}, Rearranges shape node other → value? node = value? other
  spoilt : ∀ {node}, Spoilt shape node → value? node = none

theorem Rearranges.not_whole {node other : Node} : ¬ Rearranges .whole node other := by
  intro rearranged
  generalize whole : Shape.whole = shape at rearranged
  induction rearranged with
  | tagged _ ih => exact ih whole
  | copied _ ih => exact ih whole
  | _ => cases whole

section cost

theorem Node.text?_of_ownText? {node : Node} {text : String} (named : node.ownText? = some text) :
    node.text? = some text := by
  induction node using Node.ownText?.induct with
  | case1 content style => exact named
  | case2 tag node ih => exact ih named
  | case3 node noScalar noTag => cases node <;> simp_all [ownText?]

end cost

theorem bind_eq_of_isSome {α β : Type} {left right : Option α} {next : α → Option β}
    (both : left.isSome = right.isSome)
    (same : ∀ value other, left = some value → right = some other → next value = next other) :
    left.bind next = right.bind next := by
  match left, right, both with
  | none, none, _ => rfl
  | some value, some other, _ => exact same value other rfl rfl

theorem eq_of_isSome {α : Type} {left right : Option α} (both : left.isSome = right.isSome)
    (same : ∀ value other, left = some value → right = some other → value = other) :
    left = right := by
  have bound := bind_eq_of_isSome both fun value other l r => congrArg some (same value other l r)
  simpa only [Option.bind_fun_some] using bound

section values

variable {key : String} {fields : List (String × Node)} {entries others : List (Node × Node)}

theorem Node.valuesOf_append (before after : List (Node × Node)) :
    valuesOf key (before ++ after) = valuesOf key before ++ valuesOf key after := by
  rw [valuesOf, List.filter_append, List.map_append]
  rfl

theorem Node.valuesOf_named {keyNode : Node} {text : String} (named : keyNode.text? = some text)
    (value : Node) :
    valuesOf key ((keyNode, value) :: entries)
      = if text = key then value :: valuesOf key entries else valuesOf key entries := by
  by_cases same : text = key
  · simp [valuesOf, named, same]
  · simp [valuesOf, named, same]

theorem Node.valuesOf_perm (permuted : entries.Perm others) :
    (valuesOf key entries).Perm (valuesOf key others) :=
  (permuted.filter _).map _

theorem Node.fields?_of_entries {node : Node} (isRecord : node.entries? = some entries) :
    node.fields? = entries.mapM fun entry => do return (← entry.1.text?, entry.2) := by
  rw [fields?, isRecord]
  rfl

theorem Node.fields?_mapping (entries : List (Node × Node)) :
    (mapping entries).fields? = entries.mapM fun entry => do return (← entry.1.text?, entry.2) :=
  fields?_of_entries rfl

theorem Node.fields?_cons (entry : Node × Node) (rest : List (Node × Node)) :
    (mapping (entry :: rest)).fields? = entry.1.text?.bind fun text =>
      (mapping rest).fields?.map ((text, entry.2) :: ·) := by
  simp only [fields?_mapping, Option.bind_eq_bind, List.mapM_cons, Option.bind_assoc,
    Option.pure_def, Option.bind_some, Option.map_eq_bind, Function.comp_def]

/-- The keys of a record are scalars. -/
theorem Node.isSome_fields? :
    (mapping entries).fields?.isSome = entries.all (·.1.text?.isSome) := by
  induction entries with
  | nil => rfl
  | cons entry rest ih =>
    rw [fields?_cons, List.all_cons, ← ih]
    cases entry.1.text? with
    | none => rfl
    | some text => simp

theorem Node.under_fields? (found : (mapping entries).fields? = some fields) :
    under key fields = valuesOf key entries := by
  induction entries generalizing fields with
  | nil =>
    obtain rfl := Option.some.inj found
    rfl
  | cons entry rest ih =>
    rw [fields?_cons] at found
    obtain ⟨text, own, found⟩ := Option.bind_eq_some_iff.mp found
    obtain ⟨further, later, rfl⟩ := Option.map_eq_some_iff.mp found
    have same := ih later
    simp only [under, valuesOf, List.filter_cons, own, Option.some_beq_some] at same ⊢
    split
    · rw [List.map_cons, List.map_cons, same]
    · exact same

end values

/-! What is written under one key counts only if it stands there once. -/

section once

variable {α : Type} {shape : Shape} {value? : Node → Option α} {missing : Option α}
  {nodes others : List Node}

def Node.once? (missing : Option α) (value? : Node → Option α) : List Node → Option α
  | [] => missing
  | [node] => value? node
  | _ => none

theorem Node.once?_several (several : 1 < nodes.length) : once? missing value? nodes = none := by
  match nodes, several with
  | _ :: _ :: _, _ => rfl

theorem Node.field?_eq_once (fields : List (String × Node)) (key : String) :
    field? fields key value? = once? none value? (under key fields) := by
  rw [field?]
  match under key fields with
  | [] => rfl
  | [_] => rfl
  | _ :: _ :: _ => rfl

theorem Node.fieldOr?_eq_once (fallback : α) (fields : List (String × Node)) (key : String) :
    fieldOr? fallback fields key value? = once? (some fallback) value? (under key fields) := by
  rw [fieldOr?]
  match under key fields with
  | [] => rfl
  | [_] => rfl
  | _ :: _ :: _ => rfl

/-- Two lists of nodes that differ by a change of the nodes' order or inside one of them. -/
inductive Alike (shape : Shape) : List Node → List Node → Prop where
  | perm {nodes others : List Node} (permuted : nodes.Perm others) : Alike shape nodes others
  | inside {node other : Node} {before after : List Node}
      (rearranged : Rearranges shape node other) :
      Alike shape (before ++ node :: after) (before ++ other :: after)

theorem Alike.once? (alike : Alike shape nodes others) (respects : Respects shape value?) :
    once? missing value? nodes = once? missing value? others := by
  -- Neither kind of change turns one node into several.
  have size : nodes.length = others.length := by
    cases alike with
    | perm permuted => exact permuted.length_eq
    | inside _ => simp only [List.length_append, List.length_cons]
  by_cases several : 1 < nodes.length
  · rw [once?_several several, once?_several (size ▸ several)]
  · cases alike with
    | perm permuted =>
      rcases nodes with _ | ⟨node, _ | _⟩
      · rw [permuted.nil_eq]
      · rw [List.singleton_perm.mp permuted]
      · exact absurd (by simp) several
    | @inside node other before after rearranged =>
      have alone : before = [] ∧ after = [] := by
        rw [List.length_append, List.length_cons] at several
        exact ⟨List.length_eq_zero_iff.mp (by omega), List.length_eq_zero_iff.mp (by omega)⟩
      obtain ⟨rfl, rfl⟩ := alone
      exact respects.same rearranged

/-- Whether what is written under a known key rules out that a record is read. -/
inductive Unfit (mandatory : Bool) (shape : Shape) : List Node → Prop where
  | several {nodes : List Node} (several : 1 < nodes.length) : Unfit mandatory shape nodes
  | absent (demanded : mandatory = true) : Unfit mandatory shape []
  | inside {node : Node} {nodes : List Node} (member : node ∈ nodes) (spoilt : Spoilt shape node) :
      Unfit mandatory shape nodes

theorem Unfit.once? {mandatory : Bool} (unfit : Unfit mandatory shape nodes)
    (respects : Respects shape value?) (demanded : mandatory = true → missing = none) :
    once? missing value? nodes = none := by
  by_cases several : 1 < nodes.length
  · exact once?_several several
  · cases unfit with
    | several more => exact absurd more several
    | absent mandatory => exact demanded mandatory
    | @inside node nodes member spoilt =>
      rcases nodes with _ | ⟨only, _ | _⟩
      · cases member
      · obtain rfl := List.mem_singleton.mp member
        exact respects.spoilt spoilt
      · exact absurd (by simp) several

end once

/-- Readers of records: they read the known keys in turn, each with a reader that respects its
shape. -/
inductive ReadsKnown {α : Type} :
    Bool → List (String × Shape) → (List (String × Node) → Option α) → Prop where
  | done {mandatory} (value : α) : ReadsKnown mandatory [] fun _ => some value
  | next {β : Type} {mandatory key shape known} {reader : List (String × Node) → Option β}
      {rest : β → List (String × Node) → Option α} {missing : Option β} {value? : Node → Option β}
      (once : ∀ fields, reader fields = once? missing value? (under key fields))
      (demanded : mandatory = true → missing = none) (respects : Respects shape value?)
      (others : ∀ value, ReadsKnown mandatory known (rest value)) :
      ReadsKnown mandatory ((key, shape) :: known) fun fields =>
        (reader fields).bind (rest · fields)

namespace ReadsKnown

variable {α β : Type} {mandatory : Bool} {key : String} {shape : Shape}
  {known : List (String × Shape)} {value? : Node → Option β}
  {rest : β → List (String × Node) → Option α} {reader : List (String × Node) → Option α}
  {fields changed : List (String × Node)}

theorem field (respects : Respects shape value?)
    (others : ∀ value, ReadsKnown true known (rest value)) :
    ReadsKnown true ((key, shape) :: known) fun fields =>
      (field? fields key value?).bind (rest · fields) :=
  .next (fun fields => field?_eq_once fields key) (fun _ => rfl) respects others

theorem fieldOr {fallback : β} (respects : Respects shape value?)
    (others : ∀ value, ReadsKnown false known (rest value)) :
    ReadsKnown false ((key, shape) :: known) fun fields =>
      (fieldOr? fallback fields key value?).bind (rest · fields) :=
  .next (fun fields => fieldOr?_eq_once fallback fields key) Bool.noConfusion respects others

theorem same (reads : ReadsKnown mandatory known reader)
    (alike : ∀ field ∈ known, Alike field.2 (under field.1 fields) (under field.1 changed)) :
    reader fields = reader changed := by
  induction reads with
  | done value => rfl
  | @next _ _ key shape known _ _ missing _ once _ respects _ ih =>
    have first : once? missing _ _ = once? missing _ _ :=
      (alike (key, shape) List.mem_cons_self).once? respects
    simp only [once, first]
    congr 1
    funext value
    exact ih value fun field member => alike field (List.mem_cons_of_mem _ member)

theorem none_of_unfit (reads : ReadsKnown mandatory known reader) (isKnown : (key, shape) ∈ known)
    (unfit : Unfit mandatory shape (under key fields)) : reader fields = none := by
  induction reads with
  | done value => cases isKnown
  | @next _ _ own _ _ _ _ missing value? once demanded respects _ ih =>
    simp only [once]
    rcases List.mem_cons.mp isKnown with first | later
    · obtain ⟨rfl, rfl⟩ := Prod.mk.inj first
      rw [unfit.once? respects demanded, Option.bind_none]
    · cases once? missing value? (under own fields) with
      | none => rfl
      | some value => exact ih value later unfit

end ReadsKnown

namespace Respects

variable {α : Type} {shape : Shape} {value? : Node → Option α}

theorem whole (value? : Node → Option α) : Respects .whole value? where
  same rearranged := absurd rearranged Rearranges.not_whole
  spoilt spoilt := nomatch spoilt

theorem list?_of_items {item? : Node → Option α} {node : Node} {items : List Node}
    (isList : node.items? = some items) : list? item? node = items.mapM item? := by
  rw [list?, isList]
  rfl

theorem list {item? : Node → Option α} (respects : Respects shape item?) :
    Respects (.list shape) (list? item?) where
  same {node other} rearranged := by
    generalize whole : Shape.list shape = outer at rearranged
    -- Under tags and in copies there is the same list.
    induction rearranged with
    | item inside =>
      obtain rfl := Shape.list.inj whole
      rw [list?_of_items rfl, list?_of_items rfl]
      simp only [List.mapM_append, List.mapM_cons, respects.same inside]
    | tagged _ ih => exact ih whole
    | copied _ ih => exact ih whole
    | _ => cases whole
  spoilt spoilt := by
    cases spoilt with
    | @item _ item _ items isList member inside =>
      obtain ⟨before, after, rfl⟩ := List.append_of_mem member
      rw [list?_of_items isList]
      simp [respects.spoilt inside]

section record

variable {mandatory : Bool} {known : List (String × Shape)}
  {reader : List (String × Node) → Option α} {entries others : List (Node × Node)}

theorem read_alike (reads : ReadsKnown mandatory known reader)
    (keys : entries.all (·.1.text?.isSome) = others.all (·.1.text?.isSome))
    (alike : ∀ field ∈ known, Alike field.2 (valuesOf field.1 entries) (valuesOf field.1 others)) :
    (mapping entries).fields?.bind reader = (mapping others).fields?.bind reader := by
  rw [← isSome_fields?, ← isSome_fields?] at keys
  refine bind_eq_of_isSome keys fun fields changed left right => reads.same fun field member => ?_
  rw [under_fields? left, under_fields? right]
  exact alike field member

theorem read_unfit {key : String} {node : Node} (isRecord : node.entries? = some entries)
    (reads : ReadsKnown mandatory known reader) (isKnown : (key, shape) ∈ known)
    (unfit : Unfit mandatory shape (valuesOf key entries)) : node.fields?.bind reader = none := by
  rw [Option.bind_eq_none_iff]
  intro fields found
  rw [fields?_of_entries isRecord] at found
  refine reads.none_of_unfit isKnown ?_
  rw [under_fields? found]
  exact unfit

/-- A reader of the known keys respects the shape of its records. -/
theorem record (read : ∀ node, value? node = node.fields?.bind reader)
    (reads : ReadsKnown mandatory known reader) (distinct : (known.map Prod.fst).Nodup) :
    Respects (.record mandatory known) value? where
  same {node other} rearranged := by
    rw [read, read]
    generalize whole : Shape.record mandatory known = outer at rearranged
    induction rearranged with
    | reorder permuted =>
      exact read_alike reads permuted.all_eq fun _ _ => .perm (valuesOf_perm permuted)
    | @insert _ _ key text _ _ _ named unknown =>
      obtain ⟨rfl, rfl⟩ := Shape.record.inj whole
      have named := text?_of_ownText? named
      refine read_alike reads (by simp [named]) fun field member => .perm ?_
      have different : text ≠ field.1 := by
        have apart := List.lookup_eq_none_iff.mp unknown field member
        simpa using apart
      rw [valuesOf_append, valuesOf_append, valuesOf_named named, if_neg different]
    | @field _ _ key text shape _ _ _ _ named isKnown inside =>
      obtain ⟨rfl, rfl⟩ := Shape.record.inj whole
      refine read_alike reads (by simp) fun field member => ?_
      rw [valuesOf_append, valuesOf_append, valuesOf_named named, valuesOf_named named]
      by_cases same : text = field.1
      · obtain ⟨front, back, split, -⟩ := List.lookup_eq_some_iff.mp isKnown
        have isMember : (text, shape) ∈ known := by simp [split]
        obtain rfl := List.inj_on_of_nodup_map distinct isMember member same
        rw [if_pos rfl, if_pos rfl]
        exact .inside inside
      · rw [if_neg same, if_neg same]
        exact .perm (.refl _)
    | tagged _ ih => exact ih whole
    | copied _ ih => exact ih whole
    | _ => cases whole
  spoilt spoilt := by
    rw [read]
    cases spoilt with
    | repeated isRecord isKnown several =>
      exact read_unfit isRecord reads isKnown (.several several)
    | missing isRecord isKnown absent =>
      exact read_unfit isRecord reads isKnown (absent ▸ .absent rfl)
    | field isRecord isKnown member inside =>
      exact read_unfit isRecord reads isKnown (.inside member inside)

end record

end Respects

end DagDeploy.Yaml
