import DagDeploy.Proofs.Words

/-! Reading undoes writing for documents whose scalars are words. A written node is read from the
place where it starts up to the text that follows it, on a line that is indented less. It is read as
a draft without properties. -/

namespace DagDeploy.Yaml

open Cursor

mutual
/-- All scalars are words, and those that are keys are short enough to be read as keys. -/
def Node.isBare : Node → Bool
  | .scalar text style => style.isPlain && isWord text.toList
  | .sequence items => areBare items
  | .mapping entries => areBareEntries entries
  | .tagged _ _ | .copied _ => false
termination_by structural node => node

def areBare : List Node → Bool
  | [] => true
  | item :: rest => item.isBare && areBare rest
termination_by structural items => items

def isBareEntry : Node × Node → Bool
  | (.scalar text style, value) =>
    (style.isPlain && isWord text.toList && text.toList.length ≤ 1024) && value.isBare
  | _ => false
termination_by structural entry => entry

def areBareEntries : List (Node × Node) → Bool
  | [] => true
  | entry :: rest => isBareEntry entry && areBareEntries rest
termination_by structural entries => entries
end

section drafts

variable {ν τ : Type}

mutual
/-- The draft of a tree, without its tags, and with its copies in full. -/
def Node.draft : Node → Draft ν τ
  | .scalar text style => .scalar text style
  | .sequence items => .sequence (draftItems items)
  | .mapping entries => .mapping (draftEntries entries)
  | .tagged _ node => node.draft
  | .copied node => (node ()).draft
termination_by structural node => node

def draftItems : List Node → List (Draft ν τ)
  | [] => []
  | item :: rest => item.draft :: draftItems rest
termination_by structural items => items

def draftEntry : Node × Node → Draft ν τ × Draft ν τ
  | (key, value) => (key.draft, value.draft)
termination_by structural entry => entry

def draftEntries : List (Node × Node) → List (Draft ν τ × Draft ν τ)
  | [] => []
  | entry :: rest => draftEntry entry :: draftEntries rest
termination_by structural entries => entries
end

end drafts

section steps

variable {line column margin fuel : Nat} {fresh inline : Bool} {rest : List Char} {cursor : Cursor}

theorem passBlock_blank (opening : rest = [] ∨ opens rest = true) {c : Char}
    (ascii : c.utf8Size = 1) (noBreak : isLineBreak c = false) (again : Bool) :
    (outside line column fresh (c :: ' ' :: rest)).passBlock again
      = outside line (column + 2) again rest := by
  rw [passBlock, pass_char ascii noBreak]
  exact settle_pad opening 1

theorem passBlock_line (opening : rest = [] ∨ opens rest = true) {c : Char}
    (ascii : c.utf8Size = 1) (noBreak : isLineBreak c = false) (count : Nat) (again : Bool) :
    (outside line column fresh (c :: '\n' :: (pad count ++ rest))).passBlock again
      = outside (line + 1) count true rest := by
  rw [passBlock, pass_char ascii noBreak]
  exact settle_line opening count

theorem readLeaf_brackets (opening : rest = [] ∨ opens rest = true) (count : Nat) :
    readLeaf margin (fuel + 2)
        (outside line column fresh ('[' :: ']' :: '\n' :: (pad count ++ rest)))
      = some (.sequence [], outside (line + 1) count true rest) := by
  have items : readItems margin true (fuel + 1)
      (outside line column fresh ('[' :: ']' :: '\n' :: (pad count ++ rest))).passOpening.settle
        = some ([], outside line (column + 2) false ('\n' :: (pad count ++ rest))) := rfl
  simp [readLeaf, items, settle_line opening]

theorem readLeaf_braces (opening : rest = [] ∨ opens rest = true) (count : Nat) :
    readLeaf margin (fuel + 2)
        (outside line column fresh ('\x7b' :: '\x7d' :: '\n' :: (pad count ++ rest)))
      = some (.mapping [], outside (line + 1) count true rest) := by
  have entries : readPairs margin true (fuel + 1) (outside line column fresh
      ('\x7b' :: '\x7d' :: '\n' :: (pad count ++ rest))).passOpening.settle
        = some ([], outside line (column + 2) false ('\n' :: (pad count ++ rest))) := rfl
  simp [readLeaf, entries, settle_line opening]

/-- A leaf that is no key stands for itself. -/
theorem readNode_leaf {leaf : Source} {after : Cursor} (present : cursor.atEnd = false)
    (inside : margin ≤ cursor.column) (noItem : cursor.atIndicator '-' = false)
    (noMark : cursor.atIndicator '?' = false) (noProperty : cursor.atProperty = false)
    (read : readLeaf margin fuel cursor = some (leaf, after))
    (noKey : ¬ (cursor.fresh = true ∧ endsBlockKey cursor after = true)) :
    readNode margin inline (fuel + 1) cursor = some (leaf, after) := by
  have right : ¬ cursor.column < margin := Nat.not_lt.mpr inside
  simp [readNode, present, right, noItem, noMark, noProperty, read, noKey]

theorem readNode_entries {key : Source} {after last : Cursor} {entries : List (Source × Source)}
    (present : cursor.atEnd = false) (inside : margin ≤ cursor.column)
    (noItem : cursor.atIndicator '-' = false) (noMark : cursor.atIndicator '?' = false)
    (noProperty : cursor.atProperty = false)
    (read : readLeaf margin fuel cursor = some (key, after)) (isFresh : cursor.fresh = true)
    (isKey : endsBlockKey cursor after = true)
    (rest : readBlockEntries cursor.column fuel cursor = some (entries, last)) :
    readNode margin inline (fuel + 1) cursor = some (.mapping entries, last) := by
  have right : ¬ cursor.column < margin := Nat.not_lt.mpr inside
  simp [readNode, present, right, noItem, noMark, noProperty, read, isFresh, isKey, rest]

/-- A sequence may stand one column to the left where it is the value of a key. -/
theorem readNode_items {items : List Source} {last : Cursor} (present : cursor.atEnd = false)
    (inside : margin ≤ cursor.column ∨ inline = true ∧ cursor.column + 1 = margin)
    (isItem : cursor.atIndicator '-' = true) (isFresh : cursor.fresh = true)
    (rest : readBlockItems cursor.column fuel cursor = some (items, last)) :
    readNode margin inline (fuel + 1) cursor = some (.sequence items, last) := by
  by_cases right : margin ≤ cursor.column
  · have notLeft : ¬ cursor.column < margin := Nat.not_lt.mpr right
    simp [readNode, present, notLeft, isItem, isFresh, rest]
  · obtain ⟨isInline, beside⟩ := inside.resolve_left right
    have left : cursor.column < margin := Nat.not_le.mp right
    simp [readNode, present, left, isInline, beside, isItem, rest]

theorem readBlockItems_cons {item : Source} {items : List Source} {after last : Cursor}
    (isItem : cursor.atIndicator '-' = true) (isFresh : cursor.fresh = true)
    (read : readNode (cursor.column + 1) false fuel (cursor.passBlock true) = some (item, after))
    (others : readBlockItems cursor.column fuel after = some (items, last)) :
    readBlockItems cursor.column (fuel + 1) cursor = some (item :: items, last) := by
  simp [readBlockItems, isItem, isFresh, read, others]

theorem readBlockItems_nil (stops : cursor.column ≠ column ∨ cursor.atIndicator '-' = false) :
    readBlockItems column (fuel + 1) cursor = some ([], cursor) := by
  rcases stops with elsewhere | noItem
  · simp [readBlockItems, elsewhere]
  · simp [readBlockItems, noItem]

theorem readBlockEntries_cons {key value : Source} {entries : List (Source × Source)}
    {after next last : Cursor} (present : cursor.atEnd = false) (isFresh : cursor.fresh = true)
    (noMark : cursor.atIndicator '?' = false)
    (read : readLeaf (cursor.column + 1) fuel cursor = some (key, after))
    (isKey : endsBlockKey cursor after = true)
    (readValue : readNode (cursor.column + 1) true fuel (after.passBlock false)
      = some (value, next))
    (others : readBlockEntries cursor.column fuel next = some (entries, last)) :
    readBlockEntries cursor.column (fuel + 1) cursor = some ((key, value) :: entries, last) := by
  simp [readBlockEntries, present, isFresh, noMark, read, isKey, readValue, others]

theorem readBlockEntries_nil (stops : cursor.atEnd = true ∨ cursor.column ≠ column) :
    readBlockEntries column (fuel + 1) cursor = some ([], cursor) := by
  rcases stops with ended | elsewhere
  · simp [readBlockEntries, ended]
  · simp [readBlockEntries, elsewhere]

end steps

/-- The text behind a node, on a line that is indented less. -/
structure Resumes (margin count : Nat) (rest : List Char) : Prop where
  opening : rest = [] ∨ opens rest = true
  left : rest = [] ∨ count < margin

section heads

variable {line column margin count fuel indent : Nat} {fresh inline : Bool}
  {text rest : List Char}

theorem opens_word (word : isWord text = true) : opens (text ++ rest) = true := by
  obtain ⟨starts, isChars⟩ := Bool.and_eq_true_iff.mp word
  cases text with
  | nil => cases starts
  | cons c others =>
    rw [List.all_cons, Bool.and_eq_true] at isChars
    have differs := ne_of_test isChars.1
    simp [opens, isBlank_of_isWordChar isChars.1, isLineBreak_of_isWordChar isChars.1,
      differs '#' (by decide), differs byteOrderMark (by decide)]

theorem opens_writeItems {item : Node} {items : List Node} (indent : Nat) :
    opens (writeItems indent (item :: items) ++ rest) = true := by
  cases items with
  | nil => rfl
  | cons next others => rfl

theorem eq_plain {style : Style} (isPlain : style.isPlain = true) : style = .plain := by
  cases style with
  | plain => rfl
  | _ => cases isPlain

/-- A bare scalar is a plain word. -/
theorem isBare_scalar {content : String} {style : Style}
    (bare : (Node.scalar content style).isBare = true) :
    style = .plain ∧ isWord content.toList = true := by
  obtain ⟨isPlain, word⟩ := Bool.and_eq_true_iff.mp bare
  exact ⟨eq_plain isPlain, word⟩

/-- A bare entry starts with the word that is its key. -/
theorem isBareEntry_cases {entry : Node × Node} (bare : isBareEntry entry = true) :
    ∃ text value, entry = (.plain text, value) ∧ isWord text.toList = true ∧
      text.toList.length ≤ 1024 ∧ value.isBare = true := by
  obtain ⟨key, value⟩ := entry
  cases key with
  | sequence items => cases bare
  | mapping entries => cases bare
  | tagged | copied => cases bare
  | scalar text style =>
    simp only [isBareEntry, Bool.and_eq_true, decide_eq_true_eq] at bare
    obtain ⟨⟨⟨isPlain, word⟩, short⟩, bareValue⟩ := bare
    obtain rfl := eq_plain isPlain
    exact ⟨text, value, rfl, word, short, bareValue⟩

theorem writeEntry_plain (indent : Nat) (key : String) (value : Node) :
    writeEntry indent (.plain key, value) = key.toList ++ ':' :: writeValue indent value := by
  simp [writeEntry, Node.plain, inlineScalar, Style.isPlain]

theorem opens_writeEntries {entry : Node × Node} {entries : List (Node × Node)}
    (bare : isBareEntry entry = true) (indent : Nat) :
    opens (writeEntries indent (entry :: entries) ++ rest) = true := by
  obtain ⟨key, value, rfl, word, -, -⟩ := isBareEntry_cases bare
  cases entries with
  | nil =>
    rw [writeEntries, writeEntry_plain, List.append_assoc]
    exact opens_word word
  | cons next others =>
    simp only [writeEntries, writeEntry_plain, List.append_assoc]
    exact opens_word word

theorem opens_writeItem {node : Node} (bare : node.isBare = true) (indent : Nat) :
    opens (writeItem indent node ++ rest) = true := by
  cases node with
  | scalar text style =>
    obtain ⟨rfl, word⟩ := isBare_scalar bare
    simp only [writeItem, scalarLine, Style.isPlain, if_true, List.append_assoc]
    exact opens_word word
  | sequence items =>
    cases items with
    | nil => rfl
    | cons item others => exact opens_writeItems indent
  | mapping entries =>
    cases entries with
    | nil => rfl
    | cons entry others =>
      rw [Node.isBare, areBareEntries, Bool.and_eq_true] at bare
      exact opens_writeEntries bare.1 indent
  | tagged | copied => cases bare

/-- What starts with a mark other than that of a bound is no bound, nor is the end. -/
theorem atEnd_of_ne {c : Char}
    (differs : ∀ mark more, mark = '-' ∨ mark = '.' → c :: rest ≠ mark :: mark :: more) :
    (outside line column fresh (c :: rest)).atEnd = false := by
  have noBound : ∀ mark, mark = '-' ∨ mark = '.' →
      (outside line column fresh (c :: rest)).atMark mark = false := by
    intro mark isMark
    rw [Bool.eq_false_iff]
    intro isBound
    obtain ⟨more, shape⟩ := rest_of_atMark isBound
    exact differs mark (mark :: more) isMark shape
  simp [atEnd, atBound, noBound '-' (.inl rfl), noBound '.' (.inr rfl)]

theorem atIndicator_word (word : isWord text = true) {mark : Char}
    (isMark : mark = '-' ∨ mark = '?') :
    (outside line column fresh (text ++ rest)).atIndicator mark = false := by
  obtain ⟨starts, isChars⟩ := Bool.and_eq_true_iff.mp word
  cases text with
  | nil => cases starts
  | cons c others =>
    rw [List.all_cons, Bool.and_eq_true] at isChars
    obtain ⟨isChar, isOthers⟩ := isChars
    by_cases hyphen : c = '-'
    · rcases startsWord_cases starts with ⟨noHyphen, -⟩ | ⟨next, more, rfl, -⟩
      · exact absurd hyphen noHyphen
      · rw [List.all_cons, Bool.and_eq_true] at isOthers
        simp [atIndicator, endsWord, isBlank_of_isWordChar isOthers.1,
          isLineBreak_of_isWordChar isOthers.1]
    · have differs : c ≠ mark := by
        rcases isMark with rfl | rfl
        · exact hyphen
        · exact ne_of_test isChar '?' (by decide)
      simp [atIndicator, differs]

theorem atProperty_word (word : isWord text = true) :
    (outside line column fresh (text ++ rest)).atProperty = false := by
  obtain ⟨starts, isChars⟩ := Bool.and_eq_true_iff.mp word
  cases text with
  | nil => cases starts
  | cons c others =>
    rw [List.all_cons, Bool.and_eq_true] at isChars
    have differs := ne_of_test isChars.1
    simp [atProperty, differs '&' (by decide), differs '!' (by decide)]

theorem atEnd_word (word : isWord text = true) :
    (outside line column fresh (text ++ rest)).atEnd = false := by
  have starts := (Bool.and_eq_true_iff.mp word).1
  have isBound : (outside line column fresh (text ++ rest)).atBound = false :=
    atBound_word starts rfl
  have nonempty : text ≠ [] := by
    rintro rfl
    cases starts
  simp [atEnd, isBound, nonempty]

theorem readNode_word {content : String} (word : isWord content.toList = true)
    (inside : margin ≤ column) (resumes : Resumes margin count rest) :
    readNode margin inline (fuel + 2)
        (outside line column fresh (content.toList ++ '\n' :: (pad count ++ rest)))
      = some (.plain content, outside (line + 1) count true rest) := by
  have read : readLeaf margin (fuel + 1)
      (outside line column fresh (content.toList ++ '\n' :: (pad count ++ rest)))
        = some (.plain (String.ofList content.toList), outside (line + 1) count true rest) :=
    readLeaf_line word resumes.opening resumes.left fuel
  rw [String.ofList_toList] at read
  refine readNode_leaf (atEnd_word word) inside (atIndicator_word word (.inl rfl))
    (atIndicator_word word (.inr rfl)) (atProperty_word word) read ?_
  simp [endsBlockKey, endsKey]

theorem readNode_brackets (inside : margin ≤ column) (resumes : Resumes margin count rest) :
    readNode margin inline (fuel + 3)
        (outside line column fresh ('[' :: ']' :: '\n' :: (pad count ++ rest)))
      = some (.sequence [], outside (line + 1) count true rest) := by
  refine readNode_leaf (atEnd_of_ne ?_) inside rfl rfl rfl
    (readLeaf_brackets resumes.opening count) ?_
  · rintro mark more (rfl | rfl) same <;> cases same
  · simp [endsBlockKey, endsKey]

theorem readNode_braces (inside : margin ≤ column) (resumes : Resumes margin count rest) :
    readNode margin inline (fuel + 3)
        (outside line column fresh ('\x7b' :: '\x7d' :: '\n' :: (pad count ++ rest)))
      = some (.mapping [], outside (line + 1) count true rest) := by
  refine readNode_leaf (atEnd_of_ne ?_) inside rfl rfl rfl
    (readLeaf_braces resumes.opening count) ?_
  · rintro mark more (rfl | rfl) same <;> cases same
  · simp [endsBlockKey, endsKey]

theorem endsBlockKey_word (short : text.length ≤ 1024) (apart : endsWord rest = true) :
    endsBlockKey (outside line column fresh (text ++ ':' :: rest))
      (outside line (column + text.length) false (':' :: rest)) = true := by
  simp [endsBlockKey, endsKey, outside, atIndicator, apart, short]

theorem endsWord_writeValue (indent : Nat) (node : Node) :
    endsWord (writeValue indent node ++ rest) = true := by
  cases node with
  | scalar text style => rfl
  | sequence items => cases items <;> rfl
  | mapping entries => cases entries <;> rfl
  | tagged tag node => exact endsWord_writeValue indent node
  | copied node => exact endsWord_writeValue indent (node ())

theorem writeItems_head (item : Node) (items : List Node) (indent : Nat) :
    ∃ more, writeItems indent (item :: items) = '-' :: ' ' :: more := by
  cases items with
  | nil => exact ⟨_, rfl⟩
  | cons next others => exact ⟨_, rfl⟩

theorem readNode_of_items {item : Node} {items : List Node} {sources : List Source} {last : Cursor}
    (inside : margin ≤ indent ∨ inline = true ∧ indent + 1 = margin)
    (read : readBlockItems indent fuel
      (outside line indent true (writeItems indent (item :: items) ++ rest)) = some (sources, last)) :
    readNode margin inline (fuel + 1)
        (outside line indent true (writeItems indent (item :: items) ++ rest))
      = some (.sequence sources, last) := by
  obtain ⟨more, shape⟩ := writeItems_head item items indent
  rw [shape] at read ⊢
  refine readNode_items (atEnd_of_ne ?_) inside rfl rfl read
  rintro mark further (rfl | rfl) same <;> cases same

theorem writeEntries_head (key : String) (value : Node) (entries : List (Node × Node))
    (indent : Nat) : ∃ more, writeEntries indent ((.plain key, value) :: entries)
      = key.toList ++ ':' :: (writeValue indent value ++ more) := by
  cases entries with
  | nil => exact ⟨[], by rw [writeEntries, writeEntry_plain, List.append_nil]⟩
  | cons next others =>
    refine ⟨pad indent ++ writeEntries indent (next :: others), ?_⟩
    simp [writeEntries, writeEntry_plain]

theorem readNode_of_entries {entry : Node × Node} {entries : List (Node × Node)}
    {sources : List (Source × Source)} {last : Cursor}
    (bare : isBareEntry entry = true) (inside : margin ≤ indent)
    (read : readBlockEntries indent (fuel + 1)
      (outside line indent true (writeEntries indent (entry :: entries) ++ rest))
        = some (sources, last)) :
    readNode margin inline (fuel + 2)
        (outside line indent true (writeEntries indent (entry :: entries) ++ rest))
      = some (.mapping sources, last) := by
  obtain ⟨key, value, rfl, word, short, -⟩ := isBareEntry_cases bare
  obtain ⟨more, shape⟩ := writeEntries_head key value entries indent
  rw [shape, List.append_assoc, List.cons_append, List.append_assoc] at read ⊢
  have apart : endsWord (writeValue indent value ++ (more ++ rest)) = true :=
    endsWord_writeValue indent value
  exact readNode_entries (atEnd_word word) inside (atIndicator_word word (.inl rfl))
    (atIndicator_word word (.inr rfl)) (atProperty_word word) (readLeaf_key word apart fuel) rfl
    (endsBlockKey_word short apart) read

/-- The items of a value stand below its key, in the same column. -/
theorem passBlock_items (item : Node) (items : List Node) :
    (outside line column fresh
        (':' :: (writeValue indent (.sequence (item :: items)) ++ rest))).passBlock false
      = outside (line + 1) indent true (writeItems indent (item :: items) ++ rest) := by
  rw [writeValue, List.cons_append, List.cons_append, List.append_assoc]
  exact passBlock_line (.inr (opens_writeItems indent)) rfl rfl indent false

/-- The entries of a value stand below its key, two columns to the right. -/
theorem passBlock_entries {entry : Node × Node} (bare : isBareEntry entry = true)
    (entries : List (Node × Node)) :
    (outside line column fresh
        (':' :: (writeValue indent (.mapping (entry :: entries)) ++ rest))).passBlock false
      = outside (line + 1) (indent + 2) true
        (writeEntries (indent + 2) (entry :: entries) ++ rest) := by
  rw [writeValue, List.cons_append, List.cons_append, List.append_assoc]
  exact passBlock_line (.inr (opens_writeEntries bare (indent + 2))) rfl rfl (indent + 2) false

/-- One entry of a mapping, whose value is read from behind its key. -/
theorem readBlockEntries_plain {key : String} {value : Source} {entries : List (Source × Source)}
    {next last : Cursor} (word : isWord key.toList = true) (short : key.toList.length ≤ 1024)
    (apart : endsWord rest = true)
    (read : readNode (indent + 1) true (fuel + 1)
      ((outside line (indent + key.toList.length) false (':' :: rest)).passBlock false)
        = some (value, next))
    (others : readBlockEntries indent (fuel + 1) next = some (entries, last)) :
    readBlockEntries indent (fuel + 2) (outside line indent true (key.toList ++ ':' :: rest))
      = some ((.plain key, value) :: entries, last) := by
  have readKey : readLeaf (indent + 1) (fuel + 1)
      (outside line indent true (key.toList ++ ':' :: rest))
        = some (.plain (String.ofList key.toList),
          outside line (indent + key.toList.length) false (':' :: rest)) :=
    readLeaf_key word apart fuel
  rw [String.ofList_toList] at readKey
  exact readBlockEntries_cons (atEnd_word word) rfl (atIndicator_word word (.inr rfl)) readKey
    (endsBlockKey_word short apart) read others

end heads

/-- Whether an item of a sequence comes next. -/
def isItem (rest : List Char) : Bool := (outside 0 0 true rest).atIndicator '-'

theorem resumes_items (item : Node) (items : List Node) (indent : Nat) (rest : List Char) :
    Resumes (indent + 1) indent (writeItems indent (item :: items) ++ rest) :=
  ⟨.inr (opens_writeItems indent), .inr (Nat.lt_succ_self indent)⟩

theorem writeItem_length_pos {node : Node} (bare : node.isBare = true) (indent : Nat) :
    0 < (writeItem indent node).length := by
  have isText : opens (writeItem indent node ++ []) = true := opens_writeItem bare indent
  cases shape : writeItem indent node with
  | nil =>
    rw [shape] at isText
    cases isText
  | cons c others => exact Nat.succ_pos _

/-- The text behind a sequence: its line is indented less, or it is no further item. -/
structure PastItems (indent count : Nat) (rest : List Char) : Prop
    extends Resumes (indent + 1) count rest where
  noItem : rest = [] ∨ count ≠ indent ∨ isItem rest = false

theorem Resumes.pastItems {indent count : Nat} {rest : List Char}
    (resumes : Resumes indent count rest) : PastItems indent count rest where
  opening := resumes.opening
  left := resumes.left.imp_right fun less => Nat.lt_succ_of_lt less
  noItem := resumes.left.imp_right fun less => .inl (Nat.ne_of_lt less)

theorem Resumes.mono {margin wider count : Nat} {rest : List Char}
    (resumes : Resumes margin count rest) (less : margin ≤ wider) : Resumes wider count rest :=
  ⟨resumes.opening, resumes.left.imp_right fun left => Nat.lt_of_lt_of_le left less⟩

theorem writeValue_length_pos (indent : Nat) (node : Node) :
    0 < (writeValue indent node).length := by
  cases node with
  | scalar text style => exact Nat.succ_pos _
  | sequence items => cases items <;> exact Nat.succ_pos _
  | mapping entries => cases entries <;> exact Nat.succ_pos _
  | tagged tag node => exact writeValue_length_pos indent node
  | copied node => exact writeValue_length_pos indent (node ())

theorem writeItems_length_pos (indent : Nat) (item : Node) (items : List Node) :
    0 < (writeItems indent (item :: items)).length := by
  obtain ⟨more, shape⟩ := writeItems_head item items indent
  rw [shape]
  exact Nat.succ_pos _

/-- The next entry of a mapping ends a sequence that stands in the same column. -/
theorem pastItems_entries {entry : Node × Node} (bare : isBareEntry entry = true)
    (entries : List (Node × Node)) (indent : Nat) (rest : List Char) :
    PastItems indent indent (writeEntries indent (entry :: entries) ++ rest) where
  opening := .inr (opens_writeEntries bare indent)
  left := .inr (Nat.lt_succ_self indent)
  noItem := by
    obtain ⟨key, value, rfl, word, -, -⟩ := isBareEntry_cases bare
    obtain ⟨more, shape⟩ := writeEntries_head key value entries indent
    rw [shape, List.append_assoc]
    exact .inr (.inr (atIndicator_word word (.inl rfl)))

mutual
theorem readNode_item (node : Node) (bare : node.isBare = true)
    {margin indent count fuel line : Nat} {rest : List Char} (inside : margin ≤ indent)
    (resumes : Resumes margin count rest)
    (enough : 2 * (writeItem indent node).length + 2 ≤ fuel) :
    ∃ last, readNode margin false fuel
        (outside line indent true (writeItem indent node ++ (pad count ++ rest)))
      = some (node.draft, outside last count true rest) := by
  have positive := writeItem_length_pos bare indent
  obtain ⟨spare, rfl⟩ : ∃ spare, fuel = spare + 3 := ⟨fuel - 3, by omega⟩
  cases node with
  | scalar text style =>
    obtain ⟨rfl, word⟩ := isBare_scalar bare
    refine ⟨line + 1, ?_⟩
    rw [writeItem, scalarLine]
    simp only [Style.isPlain, if_true, List.append_assoc]
    exact readNode_word word inside resumes
  | sequence items =>
    cases items with
    | nil => exact ⟨_, readNode_brackets inside resumes⟩
    | cons item items =>
      have spared : 2 * (writeItems indent (item :: items)).length + 1 ≤ spare + 2 := by
        rw [writeItem] at enough
        omega
      obtain ⟨last, read⟩ := readBlockItems_write item items bare
        (resumes.mono inside).pastItems spared
      exact ⟨last, readNode_of_items (.inl inside) read⟩
  | mapping entries =>
    cases entries with
    | nil => exact ⟨_, readNode_braces inside resumes⟩
    | cons entry entries =>
      have spared : 2 * (writeEntries indent (entry :: entries)).length + 1 ≤ spare + 2 := by
        rw [writeItem] at enough
        omega
      obtain ⟨last, read⟩ := readBlockEntries_write entry entries bare (resumes.mono inside) spared
      rw [Node.isBare, areBareEntries, Bool.and_eq_true] at bare
      exact ⟨last, readNode_of_entries bare.1 inside read⟩
  | tagged | copied => cases bare
termination_by sizeOf node

theorem readNode_value (node : Node) (bare : node.isBare = true)
    {indent count fuel line column : Nat} {fresh : Bool} {rest : List Char}
    (inside : indent ≤ column) (past : PastItems indent count rest)
    (enough : 2 * (writeValue indent node).length + 2 ≤ fuel) :
    ∃ last, readNode (indent + 1) true fuel ((outside line column fresh
        (':' :: (writeValue indent node ++ (pad count ++ rest)))).passBlock false)
      = some (node.draft, outside last count true rest) := by
  have positive := writeValue_length_pos indent node
  obtain ⟨spare, rfl⟩ : ∃ spare, fuel = spare + 3 := ⟨fuel - 3, by omega⟩
  cases node with
  | scalar text style =>
    obtain ⟨rfl, word⟩ := isBare_scalar bare
    refine ⟨line + 1, ?_⟩
    rw [writeValue, scalarLine]
    simp only [Style.isPlain, if_true, List.append_assoc, List.cons_append]
    rw [passBlock_blank (.inr (opens_word word)) rfl rfl]
    exact readNode_word word (by omega) past.toResumes
  | sequence items =>
    cases items with
    | nil =>
      refine ⟨line + 1, ?_⟩
      have passed : (outside line column fresh
          (':' :: (writeValue indent (.sequence []) ++ (pad count ++ rest)))).passBlock false
            = outside line (column + 2) false ('[' :: ']' :: '\n' :: (pad count ++ rest)) :=
        passBlock_blank (.inr rfl) rfl rfl false
      rw [passed]
      exact readNode_brackets (by omega) past.toResumes
    | cons item items =>
      have spared : 2 * (writeItems indent (item :: items)).length + 1 ≤ spare + 2 := by
        simp only [writeValue, List.cons_append, List.length_cons, List.length_append] at enough
        omega
      obtain ⟨last, read⟩ := readBlockItems_write item items bare past spared
      rw [passBlock_items]
      exact ⟨last, readNode_of_items (.inr ⟨rfl, rfl⟩) read⟩
  | mapping entries =>
    cases entries with
    | nil =>
      refine ⟨line + 1, ?_⟩
      have passed : (outside line column fresh
          (':' :: (writeValue indent (.mapping []) ++ (pad count ++ rest)))).passBlock false
            = outside line (column + 2) false ('\x7b' :: '\x7d' :: '\n' :: (pad count ++ rest)) :=
        passBlock_blank (.inr rfl) rfl rfl false
      rw [passed]
      exact readNode_braces (by omega) past.toResumes
    | cons entry entries =>
      obtain ⟨bareEntry, bareOthers⟩ := Bool.and_eq_true_iff.mp bare
      have spared : 2 * (writeEntries (indent + 2) (entry :: entries)).length + 1 ≤ spare + 2 := by
        simp only [writeValue, List.cons_append, List.length_cons, List.length_append] at enough
        omega
      obtain ⟨last, read⟩ := readBlockEntries_write entry entries bare
        (past.toResumes.mono (Nat.le_succ _)) spared
      rw [passBlock_entries bareEntry]
      exact ⟨last, readNode_of_entries bareEntry (by omega) read⟩
  | tagged | copied => cases bare
termination_by sizeOf node

theorem readBlockItems_write (item : Node) (items : List Node)
    (bare : areBare (item :: items) = true) {indent count fuel line : Nat} {rest : List Char}
    (past : PastItems indent count rest)
    (enough : 2 * (writeItems indent (item :: items)).length + 1 ≤ fuel) :
    ∃ last, readBlockItems indent fuel
        (outside line indent true (writeItems indent (item :: items) ++ (pad count ++ rest)))
      = some (draftItems (item :: items), outside last count true rest) := by
  obtain ⟨bareItem, bareItems⟩ := Bool.and_eq_true_iff.mp bare
  have positive := writeItems_length_pos indent item items
  obtain ⟨spare, rfl⟩ : ∃ spare, fuel = spare + 2 := ⟨fuel - 2, by omega⟩
  cases items with
  | nil =>
    have spared : 2 * (writeItem (indent + 2) item).length + 2 ≤ spare + 1 := by
      simp only [writeItems, List.length_cons] at enough
      omega
    obtain ⟨last, read⟩ := readNode_item item bareItem (Nat.le_succ (indent + 1))
      past.toResumes spared
    refine ⟨last, readBlockItems_cons rfl rfl ?_ (readBlockItems_nil ?_)⟩
    · rw [writeItems]
      simp only [List.cons_append]
      rw [passBlock_blank (.inr (opens_writeItem bareItem _)) rfl rfl]
      exact read
    · rcases past.noItem with rfl | elsewhere | noItem
      · exact .inr rfl
      · exact .inl elsewhere
      · exact .inr noItem
  | cons next others =>
    have sparedItem : 2 * (writeItem (indent + 2) item).length + 2 ≤ spare + 1 := by
      simp only [writeItems, List.length_cons, List.length_append] at enough
      omega
    have sparedItems : 2 * (writeItems indent (next :: others)).length + 1 ≤ spare + 1 := by
      simp only [writeItems, List.length_cons, List.length_append] at enough
      omega
    obtain ⟨middle, read⟩ := readNode_item item bareItem (Nat.le_succ (indent + 1))
      (resumes_items next others indent (pad count ++ rest)) sparedItem
    obtain ⟨last, readOthers⟩ := readBlockItems_write next others bareItems past sparedItems
    refine ⟨last, readBlockItems_cons rfl rfl ?_ readOthers⟩
    rw [writeItems]
    · simp only [List.cons_append, List.append_assoc]
      rw [passBlock_blank (.inr (opens_writeItem bareItem _)) rfl rfl]
      exact read
    · exact List.cons_ne_nil next others
termination_by sizeOf (item :: items)

theorem readBlockEntries_write (entry : Node × Node) (entries : List (Node × Node))
    (bare : areBareEntries (entry :: entries) = true) {indent count fuel line : Nat}
    {rest : List Char} (resumes : Resumes indent count rest)
    (enough : 2 * (writeEntries indent (entry :: entries)).length + 1 ≤ fuel) :
    ∃ last, readBlockEntries indent fuel
        (outside line indent true (writeEntries indent (entry :: entries) ++ (pad count ++ rest)))
      = some (draftEntries (entry :: entries), outside last count true rest) := by
  obtain ⟨bareEntry, bareEntries⟩ := Bool.and_eq_true_iff.mp bare
  obtain ⟨key, value, rfl, word, short, bareValue⟩ := isBareEntry_cases bareEntry
  cases entries with
  | nil =>
    rw [writeEntries, writeEntry_plain] at enough ⊢
    rw [List.length_append, List.length_cons] at enough
    obtain ⟨spare, rfl⟩ : ∃ spare, fuel = spare + 2 := ⟨fuel - 2, by omega⟩
    obtain ⟨last, read⟩ := readNode_value value bareValue
      (Nat.le_add_right indent key.toList.length) resumes.pastItems
      (show 2 * (writeValue indent value).length + 2 ≤ spare + 1 by omega)
    refine ⟨last, ?_⟩
    rw [List.append_assoc, List.cons_append]
    refine readBlockEntries_plain word short (endsWord_writeValue indent value) read
      (readBlockEntries_nil ?_)
    rcases resumes.left with rfl | left
    · exact .inl rfl
    · exact .inr (Nat.ne_of_lt left)
  | cons next others =>
    obtain ⟨bareNext, -⟩ := Bool.and_eq_true_iff.mp bareEntries
    have written : writeEntries indent ((.plain key, value) :: next :: others)
        = key.toList ++ ':' :: (writeValue indent value ++
          (pad indent ++ writeEntries indent (next :: others))) := by
      simp [writeEntries, writeEntry_plain]
    rw [written] at enough ⊢
    simp only [List.length_append, List.length_cons] at enough
    obtain ⟨spare, rfl⟩ : ∃ spare, fuel = spare + 2 := ⟨fuel - 2, by omega⟩
    obtain ⟨middle, read⟩ := readNode_value value bareValue
      (Nat.le_add_right indent key.toList.length)
      (pastItems_entries bareNext others indent (pad count ++ rest))
      (show 2 * (writeValue indent value).length + 2 ≤ spare + 1 by omega)
    obtain ⟨last, readOthers⟩ := readBlockEntries_write next others bareEntries resumes
      (show 2 * (writeEntries indent (next :: others)).length + 1 ≤ spare + 1 by omega)
    refine ⟨last, ?_⟩
    simp only [List.append_assoc, List.cons_append]
    exact readBlockEntries_plain word short (endsWord_writeValue indent value) read readOthers
termination_by sizeOf (entry :: entries)
end

end DagDeploy.Yaml
