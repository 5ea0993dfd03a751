import DagDeploy.Proofs.BlockReading
import DagDeploy.Yaml.Shape

/-! A document that was written is read as the node that it was written from. Its text has printable
characters and line feeds only, so none of it is refused and no spelling of a line break is
changed. There are no directives before it, and no anchors or tags in it, so the tree is the draft, and
readers of the tree come to no copies. -/

namespace DagDeploy.Yaml

open Cursor

/-- The line feed, and the printable characters of one byte. -/
def isBasic (c : Char) : Bool := c == '\n' || (' ' ≤ c && c ≤ '~')

section basic

variable {c : Char} {text : List Char}

theorem isText_of_isBasic (basic : isBasic c = true) : isText c = true := by
  simp only [isBasic, Bool.or_eq_true] at basic
  rcases basic with feed | printable
  · simp [isText, feed]
  · simp only [isText, printable, Bool.or_true, Bool.true_or]

theorem isBasic_of_isWordChar (isChar : isWordChar c = true) : isBasic c = true := by
  obtain ⟨above, below⟩ := printable_of_isWordChar isChar
  simp [isBasic, above, below]

theorem unifyBreaks_basic (basic : text.all isBasic = true) : unifyBreaks text = text := by
  induction text with
  | nil => rfl
  | cons c rest ih =>
    rw [List.all_cons, Bool.and_eq_true] at basic
    obtain ⟨isBasicChar, isBasicRest⟩ := basic
    have noReturn := ne_of_test isBasicChar '\r' rfl
    have noNextLine := ne_of_test isBasicChar '\u0085' rfl
    have step : unifyBreaks (c :: rest) = c :: unifyBreaks rest := by
      rw [unifyBreaks.eq_def]
      grind
    rw [step, ih isBasicRest]

theorem pad_basic (count : Nat) : (pad count).all isBasic = true := by
  rw [pad, List.all_eq_true]
  intro c member
  rw [List.eq_of_mem_replicate member]
  rfl

theorem word_basic (word : isWord text = true) : text.all isBasic = true := by
  have isChars := (Bool.and_eq_true_iff.mp word).2
  rw [List.all_eq_true] at isChars ⊢
  exact fun c member => isBasic_of_isWordChar (isChars c member)

theorem scalarLine_basic {content : String} (word : isWord content.toList = true) (indent : Nat) :
    (scalarLine indent content true).all isBasic = true := by
  simp only [scalarLine, if_true, List.all_append, word_basic word]
  rfl

end basic

mutual
theorem writeItem_basic (node : Node) (bare : node.isBare = true) (indent : Nat) :
    (writeItem indent node).all isBasic = true := by
  cases node with
  | scalar text style =>
    obtain ⟨rfl, word⟩ := isBare_scalar bare
    exact scalarLine_basic word (indent - 2)
  | sequence items =>
    cases items with
    | nil => rfl
    | cons item items => exact writeItems_basic (item :: items) bare indent
  | mapping entries =>
    cases entries with
    | nil => rfl
    | cons entry entries => exact writeEntries_basic (entry :: entries) bare indent
  | tagged | copied => cases bare
termination_by sizeOf node

theorem writeValue_basic (node : Node) (bare : node.isBare = true) (indent : Nat) :
    (writeValue indent node).all isBasic = true := by
  cases node with
  | scalar text style =>
    obtain ⟨rfl, word⟩ := isBare_scalar bare
    rw [writeValue, Style.isPlain, List.all_cons, scalarLine_basic word]
    rfl
  | sequence items =>
    cases items with
    | nil => rfl
    | cons item items =>
      simp only [writeValue, List.cons_append, List.all_cons, List.all_append, pad_basic,
        writeItems_basic (item :: items) bare]
      rfl
  | mapping entries =>
    cases entries with
    | nil => rfl
    | cons entry entries =>
      simp only [writeValue, List.cons_append, List.all_cons, List.all_append, pad_basic,
        writeEntries_basic (entry :: entries) bare]
      rfl
  | tagged | copied => cases bare
termination_by sizeOf node

theorem writeItems_basic (items : List Node) (bare : areBare items = true) (indent : Nat) :
    (writeItems indent items).all isBasic = true := by
  cases items with
  | nil => rfl
  | cons item items =>
    obtain ⟨bareItem, bareItems⟩ := Bool.and_eq_true_iff.mp bare
    have first := writeItem_basic item bareItem (indent + 2)
    cases items with
    | nil =>
      simp only [writeItems, List.all_cons, first]
      rfl
    | cons next others =>
      simp only [writeItems, List.cons_append, List.all_cons, List.all_append, first, pad_basic,
        writeItems_basic (next :: others) bareItems]
      rfl
termination_by sizeOf items

theorem writeEntries_basic (entries : List (Node × Node)) (bare : areBareEntries entries = true)
    (indent : Nat) : (writeEntries indent entries).all isBasic = true := by
  cases entries with
  | nil => rfl
  | cons entry entries =>
    obtain ⟨bareEntry, bareEntries⟩ := Bool.and_eq_true_iff.mp bare
    obtain ⟨key, value, rfl, word, -, bareValue⟩ := isBareEntry_cases bareEntry
    have first : (writeEntry indent (.plain key, value)).all isBasic = true := by
      rw [writeEntry_plain, List.all_append, List.all_cons, word_basic word,
        writeValue_basic value bareValue]
      rfl
    cases entries with
    | nil => exact first
    | cons next others =>
      simp only [writeEntries, List.all_append, first, pad_basic,
        writeEntries_basic (next :: others) bareEntries]
      rfl
termination_by sizeOf entries
end

section drafts

variable {handles : Handles} {follow : Nat → Node}

mutual
theorem link_draft (anchors : Anchors) (node : Node) :
    node.draft.link handles anchors = some (node.draft, anchors) := by
  cases node with
  | scalar text style => rfl
  | sequence items => simp [Node.draft, Draft.link, linkItems_draft anchors items]
  | mapping entries => simp [Node.draft, Draft.link, linkEntries_draft anchors entries]
  | tagged tag node => exact link_draft anchors node
  | copied node => exact link_draft anchors (node ())
termination_by structural node

theorem linkItems_draft (anchors : Anchors) (items : List Node) :
    Draft.linkItems handles anchors (draftItems items) = some (draftItems items, anchors) := by
  cases items with
  | nil => rfl
  | cons item rest =>
    simp [draftItems, Draft.linkItems, link_draft anchors item, linkItems_draft anchors rest]
termination_by structural items

theorem linkEntries_draft (anchors : Anchors) (entries : List (Node × Node)) :
    Draft.linkEntries handles anchors (draftEntries entries)
      = some (draftEntries entries, anchors) := by
  match entries with
  | [] => rfl
  | (key, value) :: rest =>
    simp [draftEntries, draftEntry, Draft.linkEntries, Draft.linkEntry, link_draft anchors key,
      link_draft anchors value, linkEntries_draft anchors rest]
termination_by structural entries
end

mutual
theorem expand_draft (node : Node) (bare : node.isBare = true) :
    node.draft.expand follow = node := by
  cases node with
  | scalar text style => rfl
  | sequence items => exact congrArg Node.sequence (expandItems_draft items bare)
  | mapping entries => exact congrArg Node.mapping (expandEntries_draft entries bare)
  | tagged | copied => cases bare
termination_by sizeOf node

theorem expandItems_draft (items : List Node) (bare : areBare items = true) :
    Draft.expandItems follow (draftItems items) = items := by
  cases items with
  | nil => rfl
  | cons item rest =>
    obtain ⟨bareItem, bareRest⟩ := Bool.and_eq_true_iff.mp bare
    rw [draftItems, Draft.expandItems, expand_draft item bareItem, expandItems_draft rest bareRest]
termination_by sizeOf items

theorem expandEntries_draft (entries : List (Node × Node))
    (bare : areBareEntries entries = true) :
    Draft.expandEntries follow (draftEntries entries) = entries := by
  cases entries with
  | nil => rfl
  | cons entry rest =>
    obtain ⟨bareEntry, bareRest⟩ := Bool.and_eq_true_iff.mp bare
    obtain ⟨key, value, rfl, -, -, bareValue⟩ := isBareEntry_cases bareEntry
    have own : Draft.expandEntry follow (draftEntry (.plain key, value)) = (.plain key, value) :=
      congrArg (Prod.mk _) (expand_draft value bareValue)
    rw [draftEntries, Draft.expandEntries, own, expandEntries_draft rest bareRest]
termination_by sizeOf entries
end

/-- The document of a tree without copies. -/
def Node.document (node : Node) : Document where
  node := node
  copies := Draft.copiesPerMark * (node.draft : Linked).size

theorem resolve_draft {node : Node} (bare : node.isBare = true) :
    node.draft.resolve handles = some node.document := by
  rw [Draft.resolve, link_draft]
  simp only [Option.bind_eq_bind, Option.bind_some, expand_draft node bare]
  rfl

end drafts

section copies

mutual
theorem Node.spend_bare (shape : Shape) (left : Nat) (node : Node) (bare : node.isBare = true) :
    node.spend shape left = some left := by
  cases node with
  | scalar text style => rfl
  | sequence items => exact spendItems_bare shape.item left items bare
  | mapping entries => exact spendEntries_bare shape left entries bare
  | tagged | copied => cases bare
termination_by sizeOf node

theorem Node.spendItems_bare (shape : Shape) (left : Nat) (items : List Node)
    (bare : areBare items = true) : spendItems shape left items = some left := by
  cases items with
  | nil => rfl
  | cons item rest =>
    obtain ⟨bareItem, bareRest⟩ := Bool.and_eq_true_iff.mp bare
    simp [spendItems, spend_bare shape left item bareItem, spendItems_bare shape left rest bareRest]
termination_by sizeOf items

theorem Node.spendEntries_bare (shape : Shape) (left : Nat) (entries : List (Node × Node))
    (bare : areBareEntries entries = true) : spendEntries shape left entries = some left := by
  cases entries with
  | nil => rfl
  | cons entry rest =>
    obtain ⟨bareEntry, bareRest⟩ := Bool.and_eq_true_iff.mp bare
    obtain ⟨key, value, rfl, -, -, bareValue⟩ := isBareEntry_cases bareEntry
    have own : spendEntry shape left (.plain key, value) = some left := by
      rw [spendEntry, show (plain key).spend .whole left = some left from rfl]
      simp only [Option.bind_eq_bind, Option.bind_some]
      cases shape.under? (.plain key) with
      | none => rfl
      | some inside => exact spend_bare inside left value bareValue
    simp [spendEntries, own, spendEntries_bare shape left rest bareRest]
termination_by sizeOf entries
end

end copies

section start

variable {node : Node} {line column : Nat} {fresh : Bool}

/-- A document never starts with the bound of one. -/
theorem atMark_writeItem (bare : node.isBare = true) {mark : Char}
    (isMark : mark = '-' ∨ mark = '.') (indent : Nat) :
    (outside line column fresh (writeItem indent node)).atMark mark = false := by
  cases node with
  | scalar text style =>
    obtain ⟨rfl, word⟩ := isBare_scalar bare
    exact atMark_word isMark (Bool.and_eq_true_iff.mp word).1 rfl
  | sequence items =>
    rw [Bool.eq_false_iff]
    intro isBound
    obtain ⟨more, bound⟩ := rest_of_atMark isBound
    cases items with
    | nil => rcases isMark with rfl | rfl <;> cases bound
    | cons item items =>
      obtain ⟨others, shape⟩ := writeItems_head item items indent
      rw [rest_outside, writeItem, shape] at bound
      rcases isMark with rfl | rfl <;> cases bound
  | mapping entries =>
    cases entries with
    | nil =>
      rw [Bool.eq_false_iff]
      intro isBound
      obtain ⟨more, bound⟩ := rest_of_atMark isBound
      rcases isMark with rfl | rfl <;> cases bound
    | cons entry entries =>
      obtain ⟨bareEntry, -⟩ := Bool.and_eq_true_iff.mp bare
      obtain ⟨key, value, rfl, word, -, -⟩ := isBareEntry_cases bareEntry
      obtain ⟨more, shape⟩ := writeEntries_head key value entries indent
      exact atMark_word isMark (Bool.and_eq_true_iff.mp word).1 shape
  | tagged | copied => cases bare

/-- Nor with a directive. -/
theorem atDirective_writeItem (bare : node.isBare = true) (indent : Nat) :
    (outside line column fresh (writeItem indent node)).atDirective = false := by
  have noPercent : ∀ {text rest : List Char}, isWord text = true →
      (text ++ rest).head? ≠ some '%' := by
    intro text rest word
    obtain ⟨starts, isChars⟩ := Bool.and_eq_true_iff.mp word
    cases text with
    | nil => cases starts
    | cons c others =>
      rw [List.all_cons, Bool.and_eq_true] at isChars
      simpa using ne_of_test isChars.1 '%' (by decide)
  have other : (writeItem indent node).head? ≠ some '%' := by
    cases node with
    | scalar text style =>
      obtain ⟨rfl, word⟩ := isBare_scalar bare
      exact noPercent word
    | sequence items =>
      cases items with
      | nil => simp [writeItem]
      | cons item items =>
        obtain ⟨others, shape⟩ := writeItems_head item items indent
        simp [writeItem, shape]
    | mapping entries =>
      cases entries with
      | nil => simp [writeItem]
      | cons entry entries =>
        obtain ⟨bareEntry, -⟩ := Bool.and_eq_true_iff.mp bare
        obtain ⟨key, value, rfl, word, -, -⟩ := isBareEntry_cases bareEntry
        obtain ⟨more, shape⟩ := writeEntries_head key value entries indent
        rw [writeItem, shape]
        exact noPercent word
    | tagged | copied => cases bare
  simp [atDirective, other]

end start

theorem Document.read_write {node : Node} (bare : node.isBare = true) :
    Document.read node.write = some node.document := by
  have basic := writeItem_basic node bare 0
  have isTexts : (writeItem 0 node).all isText = true := by
    rw [List.all_eq_true] at basic ⊢
    exact fun c member => isText_of_isBasic (basic c member)
  have opening : opens (writeItem 0 node ++ []) = true := opens_writeItem bare 0
  rw [List.append_nil] at opening
  have start : (Cursor.start (writeItem 0 node)).settle = outside 0 0 true (writeItem 0 node) :=
    settle_opens (.inr opening)
  have positive := writeItem_length_pos bare 0
  have present : (writeItem 0 node).isEmpty = false :=
    List.isEmpty_eq_false_iff.mpr (List.ne_nil_of_length_pos positive)
  have enough : 2 * (writeItem 0 node).length + 2 ≤ stepsFor (writeItem 0 node) := by
    unfold stepsFor
    omega
  have resumes : Resumes 0 0 [] := ⟨.inl rfl, .inl rfl⟩
  obtain ⟨last, read⟩ : ∃ last, readNode 0 false (stepsFor (writeItem 0 node))
      (outside 0 0 true (writeItem 0 node ++ (pad 0 ++ [])))
        = some (node.draft, outside last 0 true []) :=
    readNode_item node bare (Nat.le_refl 0) resumes enough
  rw [show pad 0 ++ [] = [] from rfl, List.append_nil] at read
  have closed : closes (stepsFor (writeItem 0 node)) (outside last 0 true []) = true := rfl
  simp [Document.read, Node.write, isTexts, unifyBreaks_basic basic, start, present, openDocument,
    atMark_writeItem bare, atDirective_writeItem bare, read, closed, resolve_draft bare]

theorem Document.suffices_bare {node : Node} (bare : node.isBare = true) (shape : Shape) :
    node.document.suffices shape = true := by
  rw [Document.suffices, Node.document, Node.spend_bare shape _ node bare]
  rfl

/-- A written document is read as what its node stands for. -/
theorem Format.read_write {α : Type} (format : Format α) {node : Node}
    (bare : node.isBare = true) :
    (Document.read node.write).bind format.value? = format.ofNode? node := by
  rw [Document.read_write bare, Option.bind_some, value?,
    if_pos (Document.suffices_bare bare format.shape)]
  rfl

end DagDeploy.Yaml
