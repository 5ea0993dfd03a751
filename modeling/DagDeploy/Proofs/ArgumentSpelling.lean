import DagDeploy.CommandLine
import Mathlib.Data.List.Basic

/-! Arguments that say the same. Whatever the order of the options and paths, and however each
option is spelled, the program gets the same paths and values. After each item that is complete, a
scan is ready to settle, and what it settles to is what the items so far say. -/

namespace DagDeploy.CommandLine

def Key.letter : Key → String
  | .iterations => "n"
  | .minSeconds => "S"
  | .catalogue => "t"

def Key.word : Key → String
  | .iterations => "num-iters"
  | .minSeconds => "min-seconds"
  | .catalogue => "tables"

/-- How an option is told from others, and how its value stands to it. -/
inductive Spelling where
  | letterApart
  | letterAttached
  | letterEquals
  | wordApart
  | wordEquals

def Key.spell (key : Key) (value : String) : Spelling → List String
  | .letterApart => ["-" ++ key.letter, value]
  | .letterAttached => ["-" ++ key.letter ++ value]
  | .letterEquals => ["-" ++ key.letter ++ "=" ++ value]
  | .wordApart => ["--" ++ key.word, value]
  | .wordEquals => ["--" ++ key.word ++ "=" ++ value]

inductive Item where
  | path (value : String)
  | option (key : Key) (spelling : Spelling) (value : String)

def Item.render : Item → List String
  | .path value => [value]
  | .option key spelling value => key.spell value spelling

/-- The first character of the text, if it has one, is another. -/
def Avoids (first : Char) (text : String) : Prop := text.toList.head? ≠ some first

/-- The number in decimal, with zeros in front of it or not. -/
def Numeral (n : Nat) (text : String) : Prop :=
  ∃ zeros, text.toList = List.replicate zeros '0' ++ Decimal.ofNat n

/-- The items give these paths in their order, and among them each of these values once. -/
inductive Arranges : List Item → List String → Option Nat → Option Nat → Option String → Prop where
  | nothing : Arranges [] [] none none none
  | path {items paths n s t} (before : Arranges items paths n s t) {value : String}
    (nonempty : value ≠ "") (dash : Avoids '-' value) :
    Arranges (items ++ [.path value]) (paths ++ [value]) n s t
  | iterations {items paths s t} (before : Arranges items paths none s t) {n : Nat} {value : String}
    (spelling : Spelling) (small : n < Nat.pow 2 64) (written : Numeral n value) :
    Arranges (items ++ [.option .iterations spelling value]) paths (some n) s t
  | minSeconds {items paths n t} (before : Arranges items paths n none t) {s : Nat} {value : String}
    (spelling : Spelling) (small : s < Nat.pow 2 64) (written : Numeral s value) :
    Arranges (items ++ [.option .minSeconds spelling value]) paths n (some s) t
  | catalogue {items paths n s} (before : Arranges items paths n s none) {value : String}
    (spelling : Spelling) (nonempty : value ≠ "") (dash : Avoids '-' value)
    (equals : Avoids '=' value) :
    Arranges (items ++ [.option .catalogue spelling value]) paths n s (some value)

section values

variable {n : Nat} {digits : List Char} {text : String}

theorem nat?_zero_cons (known : Decimal.nat? digits = some n) :
    Decimal.nat? ('0' :: digits) = some n := by
  unfold Decimal.nat? at known ⊢
  split at known
  next run =>
    rw [Bool.and_eq_true] at run
    rw [← known]
    simp [run.2, Nat.ofDigitChars_cons]
  next => cases known

theorem Numeral.nat?_eq (written : Numeral n text) : Decimal.nat? text.toList = some n := by
  obtain ⟨zeros, shape⟩ := written
  rw [shape]
  clear shape
  induction zeros with
  | zero => exact Decimal.nat?_ofNat n
  | succ zeros ih => exact nat?_zero_cons ih

/-- A value that can be attached to an option, or follow it. -/
def Attachable (value : String) : Prop :=
  ∃ first rest, value.toList = first :: rest ∧ first ≠ '-' ∧ first ≠ '='

theorem attachable_of_avoids (nonempty : text ≠ "") (dash : Avoids '-' text)
    (equals : Avoids '=' text) : Attachable text := by
  unfold Avoids at dash equals
  cases shape : text.toList with
  | nil => exact absurd (String.toList_eq_nil_iff.mp shape) nonempty
  | cons first rest =>
    rw [shape] at dash equals
    exact ⟨first, rest, shape, by simpa using dash, by simpa using equals⟩

theorem Numeral.digit (written : Numeral n text) :
    ∃ first rest, text.toList = first :: rest ∧ first.isDigit = true := by
  have known := written.nat?_eq
  unfold Decimal.nat? at known
  split at known
  next run =>
    cases shape : text.toList with
    | nil => simp [shape] at run
    | cons first rest =>
      rw [shape] at run
      simp only [Bool.and_eq_true, List.all_cons] at run
      exact ⟨first, rest, rfl, run.2.1⟩
  next => cases known

theorem Numeral.attachable (written : Numeral n text) : Attachable text := by
  obtain ⟨first, rest, shape, digit⟩ := written.digit
  refine ⟨first, rest, shape, ?_, ?_⟩
  · rintro rfl
    cases digit
  · rintro rfl
    cases digit

theorem Numeral.count?_eq (written : Numeral n text) (small : n < Nat.pow 2 64) :
    Scan.count? text = some n := by
  obtain ⟨first, rest, shape, digit⟩ := written.digit
  have plus : first ≠ '+' := by
    rintro rfl
    cases digit
  have known := written.nat?_eq
  rw [shape] at known
  simp [Scan.count?, shape, plus, known, small]

end values

section spellings

variable {scan : Scan} {value : String} {first : Char} {rest : List Char}

theorem take_letter (isOpen : scan.pathsOnly = false) (key : Key) :
    scan.take ("-" ++ key.letter) = scan.takeOption (.key key) none := by
  simp only [Scan.take, isOpen]
  cases key <;> rfl

theorem take_letterAttached (isOpen : scan.pathsOnly = false) (key : Key)
    (shape : value.toList = first :: rest) (equals : first ≠ '=') :
    scan.take ("-" ++ key.letter ++ value) = scan.takeOption (.key key) (some value) := by
  have whole : String.ofList (first :: rest) = value := shape ▸ String.ofList_toList
  simp only [Scan.take, isOpen, String.toList_append, shape]
  cases key <;> simp [Key.letter, Scan.takeLetter, Name.ofLetter?, equals, whole]

theorem take_letterEquals (isOpen : scan.pathsOnly = false) (key : Key) (value : String) :
    scan.take ("-" ++ key.letter ++ "=" ++ value) = scan.takeOption (.key key) (some value) := by
  simp only [Scan.take, isOpen, String.toList_append]
  cases key <;> simp [Key.letter, Scan.takeLetter, Name.ofLetter?]

theorem take_word (isOpen : scan.pathsOnly = false) (key : Key) :
    scan.take ("--" ++ key.word) = scan.takeOption (.key key) none := by
  simp only [Scan.take, isOpen]
  cases key <;> rfl

theorem ofWord?_word (key : Key) : Name.ofWord? key.word = some (.key key) := by
  cases key <;> rfl

theorem takeWord_equals (scan : Scan) (key : Key) (value : String) :
    scan.takeWord (key.word.toList ++ '=' :: value.toList)
      = scan.takeOption (.key key) (some value) := by
  have plain : ∀ c ∈ key.word.toList, decide (c ≠ '=') = true := by
    apply List.all_eq_true.mp
    cases key <;> rfl
  have word : (key.word.toList ++ '=' :: value.toList).takeWhile (· ≠ '=') = key.word.toList := by
    rw [List.takeWhile_append_of_pos plain, List.takeWhile_cons_of_neg (by decide),
      List.append_nil]
  have attached : (key.word.toList ++ '=' :: value.toList).dropWhile (· ≠ '=')
      = '=' :: value.toList := by
    rw [List.dropWhile_append_of_pos plain, List.dropWhile_cons_of_neg (by decide)]
  simp only [Scan.takeWord, word, attached, String.ofList_toList, ofWord?_word]

theorem take_wordEquals (isOpen : scan.pathsOnly = false) (key : Key) (value : String) :
    scan.take ("--" ++ key.word ++ "=" ++ value) = scan.takeOption (.key key) (some value) := by
  rw [← takeWord_equals]
  simp only [Scan.take, isOpen, String.toList_append, Bool.false_eq_true, if_false]
  cases key <;> rfl

theorem take_plain (isOpen : scan.pathsOnly = false) (shape : value.toList = first :: rest)
    (dash : first ≠ '-') : scan.take value = scan.takeValue value := by
  simp only [Scan.take, isOpen, shape]
  simp [dash]

end spellings

/-- What the scan settles to, which waits for no value. -/
structure Ready (scan settled : Scan) : Prop where
  settles : scan.settle = .ok settled
  clear : settled.pending = .nothing
  count : scan.pathCount = settled.paths.length
  complete : ∀ key, scan.pending ≠ .option key none
  only : scan.pathsOnly = settled.pathsOnly

namespace Ready

variable {scan settled larger : Scan} {key : Key} {value : String}

theorem self (clear : settled.pending = .nothing) : Ready settled settled where
  settles := by simp only [Scan.settle, clear]
  clear := clear
  count := by simp only [Scan.pathCount, clear, Nat.add_zero]
  complete key := by simp [clear]
  only := rfl

theorem takePath (ready : Ready scan settled) (room : settled.paths.length < 3)
    (nonempty : value ≠ "") : ∃ next, scan.takePath value = .ok next ∧
      Ready next { settled with paths := settled.paths ++ [value] } := by
  refine ⟨{ settled with pending := .path value }, ?_, ?_⟩
  · have fits : ¬ 3 ≤ scan.pathCount := by
      rw [ready.count]
      omega
    rw [Scan.takePath, if_neg fits, ready.settles]
    rfl
  · constructor
    · simp [Scan.settle, nonempty, ready.clear]
    · exact ready.clear
    · simp [Scan.pathCount]
    · simp
    · rfl

/-- An option changes nothing but its value. -/
theorem store_keeps (stored : settled.store key value = .ok larger) :
    larger.pending = settled.pending ∧ larger.paths = settled.paths ∧
      larger.pathsOnly = settled.pathsOnly := by
  unfold Scan.store at stored
  split at stored
  · cases stored
  split at stored
  · cases stored
    exact ⟨rfl, rfl, rfl⟩
  · cases stored
    exact ⟨rfl, rfl, rfl⟩
  · cases stored
  · cases stored
  · split at stored
    · cases stored
    · cases stored
      exact ⟨rfl, rfl, rfl⟩

/-- A value that follows its option is stored when the scan settles. -/
theorem takeApart (ready : Ready scan settled) (isOpen : settled.pathsOnly = false)
    (stored : settled.store key value = .ok larger) (attachable : Attachable value) :
    ∃ next, (do (← scan.takeOption (.key key) none).take value) = .ok next ∧
      Ready next larger := by
  obtain ⟨pending, paths, only⟩ := store_keeps stored
  obtain ⟨first, rest, shape, dash, -⟩ := attachable
  have waiting : scan.takeOption (.key key) none
      = .ok { settled with pending := .option key none } := by
    rw [Scan.takeOption, ready.settles]
    rfl
  have whole : { settled with pending := .nothing } = settled := by rw [← ready.clear]
  refine ⟨{ settled with pending := .option key (some value) }, ?_, ?_⟩
  · rw [waiting]
    exact take_plain isOpen shape dash
  · constructor
    · simp only [Scan.settle]
      rw [whole]
      exact stored
    · rw [pending, ready.clear]
    · rw [paths]
      rfl
    · simp
    · exact only.symm

theorem takeAttached (ready : Ready scan settled) (stored : settled.store key value = .ok larger) :
    scan.takeOption (.key key) (some value) = .ok larger ∧ Ready larger larger := by
  obtain ⟨pending, -, -⟩ := store_keeps stored
  refine ⟨?_, .self (pending.trans ready.clear)⟩
  rw [Scan.takeOption, ready.settles]
  exact stored

/-- Each spelling of an option gives it its value. -/
theorem spell (ready : Ready scan settled) (isOpen : settled.pathsOnly = false)
    (stored : settled.store key value = .ok larger) (attachable : Attachable value)
    (spelling : Spelling) : ∃ next, (key.spell value spelling).foldlM Scan.take scan = .ok next ∧
      Ready next larger := by
  have scanOpen := ready.only.trans isOpen
  have attached := ready.takeAttached stored
  cases spelling with
  | letterApart =>
    obtain ⟨next, taken, ready⟩ := ready.takeApart isOpen stored attachable
    refine ⟨next, ?_, ready⟩
    simp only [Key.spell, List.foldlM_cons, List.foldlM_nil, take_letter scanOpen, bind_pure]
    exact taken
  | wordApart =>
    obtain ⟨next, taken, ready⟩ := ready.takeApart isOpen stored attachable
    refine ⟨next, ?_, ready⟩
    simp only [Key.spell, List.foldlM_cons, List.foldlM_nil, take_word scanOpen, bind_pure]
    exact taken
  | letterAttached =>
    obtain ⟨first, rest, shape, -, equals⟩ := attachable
    refine ⟨larger, ?_, attached.2⟩
    simp only [Key.spell, List.foldlM_cons, List.foldlM_nil,
      take_letterAttached scanOpen key shape equals, attached.1]
    rfl
  | letterEquals =>
    refine ⟨larger, ?_, attached.2⟩
    simp only [Key.spell, List.foldlM_cons, List.foldlM_nil, take_letterEquals scanOpen,
      attached.1]
    rfl
  | wordEquals =>
    refine ⟨larger, ?_, attached.2⟩
    simp only [Key.spell, List.foldlM_cons, List.foldlM_nil, take_wordEquals scanOpen, attached.1]
    rfl

theorem takeValue_eq (ready : Ready scan settled) : scan.takeValue value = scan.takePath value := by
  unfold Scan.takeValue
  split
  next key pending => exact absurd pending (ready.complete key)
  next => rfl

theorem takePlain (ready : Ready scan settled) (isOpen : settled.pathsOnly = false)
    (room : settled.paths.length < 3) (nonempty : value ≠ "") (dash : Avoids '-' value) :
    ∃ next, scan.take value = .ok next ∧
      Ready next { settled with paths := settled.paths ++ [value] } := by
  obtain ⟨next, taken, nextReady⟩ := ready.takePath room nonempty
  refine ⟨next, ?_, nextReady⟩
  unfold Avoids at dash
  cases shape : value.toList with
  | nil => exact absurd (String.toList_eq_nil_iff.mp shape) nonempty
  | cons first rest =>
    rw [shape] at dash
    rw [take_plain (ready.only.trans isOpen) shape (by simpa using dash), ready.takeValue_eq, taken]

theorem store_escaped (stored : settled.store key value = .ok larger) :
    ({ settled with pathsOnly := true } : Scan).store key value
      = .ok { larger with pathsOnly := true } := by
  have holds : ({ settled with pathsOnly := true } : Scan).holds key = settled.holds key := by
    cases key <;> rfl
  unfold Scan.store at stored ⊢
  rw [holds]
  split at stored
  · cases stored
  next free =>
    rw [if_neg free]
    split at stored
    · cases stored
      simp [*]
    · cases stored
      simp [*]
    · cases stored
    · cases stored
    · split at stored
      · cases stored
      next filled =>
        cases stored
        simp [filled]

/-- The mark that ends the options settles nothing itself. -/
theorem escape (ready : Ready scan settled) :
    Ready { scan with pathsOnly := true } { settled with pathsOnly := true } where
  settles := by
    have settles := ready.settles
    unfold Scan.settle at settles ⊢
    cases pending : scan.pending with
    | nothing =>
      simp only [pending] at settles ⊢
      cases settles
      rw [pending]
    | path path =>
      simp only [pending] at settles ⊢
      split at settles
      · cases settles
      next filled =>
        cases settles
        exact if_neg filled
    | option key own =>
      cases own with
      | none => exact absurd pending (ready.complete key)
      | some own =>
        simp only [pending] at settles ⊢
        exact store_escaped settles
  clear := ready.clear
  count := ready.count
  complete := ready.complete
  only := rfl

/-- After the mark, everything is a path. -/
theorem takeRest {rest : List String} (ready : Ready scan settled)
    (escaped : settled.pathsOnly = true) (room : settled.paths.length + rest.length ≤ 3)
    (nonempty : ∀ path ∈ rest, path ≠ "") : ∃ next, rest.foldlM Scan.take scan = .ok next ∧
      Ready next { settled with paths := settled.paths ++ rest } := by
  induction rest generalizing scan settled with
  | nil => exact ⟨scan, rfl, by simpa using ready⟩
  | cons path others ih =>
    obtain ⟨here, later⟩ := List.forall_mem_cons.mp nonempty
    rw [List.length_cons] at room
    obtain ⟨next, taken, nextReady⟩ := ready.takePath (by omega) here
    have more : (settled.paths ++ [path]).length + others.length ≤ 3 := by simp; omega
    obtain ⟨last, rest, lastReady⟩ := ih nextReady escaped more later
    refine ⟨last, ?_, by simpa using lastReady⟩
    have only : scan.take path = scan.takePath path := by
      simp only [Scan.take, ready.only, escaped, if_true]
    rw [List.foldlM_cons, only, taken]
    exact rest

end Ready

section items

variable {items : List Item} {item : Item} {paths : List String} {n s : Option Nat}
  {t : Option String} {scan next : Scan}

theorem foldlM_concat (before : (items.flatMap Item.render).foldlM Scan.take Scan.start = .ok scan)
    (here : item.render.foldlM Scan.take scan = .ok next) :
    ((items ++ [item]).flatMap Item.render).foldlM Scan.take Scan.start = .ok next := by
  rw [List.flatMap_append, List.foldlM_append, before, List.flatMap_cons, List.flatMap_nil,
    List.append_nil]
  exact here

/-- A scan of the items is ready to settle to what they say. -/
theorem Arranges.ready (arranged : Arranges items paths n s t) (few : paths.length ≤ 3) :
    ∃ scan, (items.flatMap Item.render).foldlM Scan.take Scan.start = .ok scan ∧
      Ready scan ⟨paths, n, s, t, .nothing, false⟩ := by
  induction arranged with
  | nothing => exact ⟨Scan.start, rfl, .self rfl⟩
  | @path items paths n s t before value nonempty dash ih =>
    rw [List.length_append, List.length_singleton] at few
    obtain ⟨scan, run, ready⟩ := ih (by omega)
    obtain ⟨next, taken, nextReady⟩ := ready.takePlain rfl few nonempty dash
    refine ⟨next, foldlM_concat run ?_, nextReady⟩
    rw [Item.render, List.foldlM_cons, taken]
    rfl
  | @iterations items paths s t before n value spelling small written ih =>
    -- The option was not among the items before, so its place is free.
    obtain ⟨scan, run, ready⟩ := ih few
    have stored : (⟨paths, none, s, t, .nothing, false⟩ : Scan).store .iterations value
        = .ok ⟨paths, some n, s, t, .nothing, false⟩ := by
      unfold Scan.store
      rw [written.count?_eq small]
      rfl
    obtain ⟨next, taken, nextReady⟩ := ready.spell rfl stored written.attachable spelling
    exact ⟨next, foldlM_concat run taken, nextReady⟩
  | @minSeconds items paths n t before s value spelling small written ih =>
    obtain ⟨scan, run, ready⟩ := ih few
    have stored : (⟨paths, n, none, t, .nothing, false⟩ : Scan).store .minSeconds value
        = .ok ⟨paths, n, some s, t, .nothing, false⟩ := by
      unfold Scan.store
      rw [written.count?_eq small]
      rfl
    obtain ⟨next, taken, nextReady⟩ := ready.spell rfl stored written.attachable spelling
    exact ⟨next, foldlM_concat run taken, nextReady⟩
  | @catalogue items paths n s before value spelling nonempty dash equals ih =>
    obtain ⟨scan, run, ready⟩ := ih few
    have stored : (⟨paths, n, s, none, .nothing, false⟩ : Scan).store .catalogue value
        = .ok ⟨paths, n, s, some value, .nothing, false⟩ := by
      unfold Scan.store
      simp [Scan.holds, nonempty]
    obtain ⟨next, taken, nextReady⟩ :=
      ready.spell rfl stored (attachable_of_avoids nonempty dash equals) spelling
    exact ⟨next, foldlM_concat run taken, nextReady⟩

theorem parse_of_ready {texts : List String} {settled : Scan} {model solution folder : String}
    (run : texts.foldlM Scan.take Scan.start = .ok scan) (ready : Ready scan settled)
    (paths : settled.paths = [model, solution, folder]) :
    parse texts = .ok ⟨model, solution, folder, settled.iterations.getD 10,
      settled.minSeconds.getD 0, settled.catalogue⟩ := by
  rw [parse, run]
  simp only [bind, Except.bind, ready.settles, paths]
  rfl

/-- Arguments mean what their items say: three paths, and the options with their defaults. Nothing
changes when the options end before some of the paths, which can then start with a dash. -/
theorem parse_arrangement (n s : Option Nat) (t : Option String) (model solution folder : String) :
    (∀ items, Arranges items [model, solution, folder] n s t →
      parse (items.flatMap Item.render)
        = .ok ⟨model, solution, folder, n.getD 10, s.getD 0, t⟩) ∧
    ∀ items paths rest, Arranges items paths n s t → paths ++ rest = [model, solution, folder] →
      (∀ path ∈ rest, path ≠ "") →
      parse (items.flatMap Item.render ++ "--" :: rest)
        = .ok ⟨model, solution, folder, n.getD 10, s.getD 0, t⟩ := by
  constructor
  · intro items arranged
    obtain ⟨scan, run, ready⟩ := arranged.ready (Nat.le_refl 3)
    exact parse_of_ready run ready rfl
  · intro items paths rest arranged whole nonempty
    have count : paths.length + rest.length = 3 := by
      rw [← List.length_append, whole]
      rfl
    obtain ⟨scan, run, ready⟩ := arranged.ready (by omega)
    obtain ⟨last, further, lastReady⟩ := ready.escape.takeRest rfl (Nat.le_of_eq count) nonempty
    have escaped : scan.take "--" = .ok { scan with pathsOnly := true } := by
      simp only [Scan.take, ready.only]
      rfl
    refine parse_of_ready ?_ lastReady whole
    rw [List.foldlM_append, run]
    simp only [bind, Except.bind, List.foldlM_cons, escaped]
    exact further

/-- All options, each spelled in another way, and two of the three paths. -/
def sampleItems : List Item := [
  .option .iterations .letterApart "03", .path "in.yaml", .option .minSeconds .wordEquals "20",
  .path "out.yaml", .option .catalogue .letterAttached "t.yaml"]

theorem parse_arrangement_sample :
    Arranges sampleItems ["in.yaml", "out.yaml"] (some 3) (some 20) (some "t.yaml") ∧
    sampleItems.flatMap Item.render
      = ["-n", "03", "in.yaml", "--min-seconds=20", "out.yaml", "-tt.yaml"] ∧
    parse (sampleItems.flatMap Item.render ++ ["--", "-folder"])
      = .ok ⟨"in.yaml", "out.yaml", "-folder", 3, 20, some "t.yaml"⟩ := by
  have iterations := Arranges.nothing.iterations .letterApart (by decide)
    (⟨1, rfl⟩ : Numeral 3 "03")
  have model := iterations.path (by decide : "in.yaml" ≠ "") (by unfold Avoids; decide)
  have seconds := model.minSeconds .wordEquals (by decide) (⟨0, rfl⟩ : Numeral 20 "20")
  have solution := seconds.path (by decide : "out.yaml" ≠ "") (by unfold Avoids; decide)
  have arranged : Arranges sampleItems ["in.yaml", "out.yaml"] (some 3) (some 20)
      (some "t.yaml") := solution.catalogue .letterAttached (by decide : "t.yaml" ≠ "")
        (by unfold Avoids; decide) (by unfold Avoids; decide)
  refine ⟨arranged, rfl, ?_⟩
  exact (parse_arrangement (some 3) (some 20) (some "t.yaml") "in.yaml" "out.yaml" "-folder").2
    sampleItems ["in.yaml", "out.yaml"] ["-folder"] arranged rfl (by decide)

end items

end DagDeploy.CommandLine
