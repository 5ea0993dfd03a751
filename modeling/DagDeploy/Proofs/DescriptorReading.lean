import DagDeploy.Proofs.Naming
import DagDeploy.Proofs.Records

/-! The document of a descriptor is read as this descriptor, whatever numbers its fields hold, as
long as they are numbers of the widths that the fields have. The names of the dag and of its tasks
are plain words; they end in digits, so that they spell nothing else. -/

namespace DagDeploy

open Yaml

namespace Descriptor

/-- The names are of the forms that descriptors are given, and all numbers have their widths. -/
structure Regular (descriptor : Descriptor) : Prop where
  name : IsNumbered "dag" 1 descriptor.name
  taskNames : ∀ name ∈ descriptor.taskNames, IsNumbered "n" 3 name
  counts : ∀ count ∈ [descriptor.taskCount, descriptor.edgeCount, descriptor.cpuCount,
    descriptor.maxOutEdges, descriptor.maxInEdges, descriptor.maxMessageLength,
    descriptor.repetitions], count < Nat.pow 2 64
  cpus : ∀ cpu ∈ descriptor.taskCpus, cpu < Nat.pow 2 64
  frequencies : ∀ frequency ∈ descriptor.cpuFrequencies, frequency < Nat.pow 2 64
  times : ∀ time ∈ [descriptor.hyperPeriod, descriptor.period, descriptor.deadline],
    isWithin 63 63 time = true
  taskTimes : ∀ times ∈ [descriptor.taskWcets, descriptor.taskRuntimes, descriptor.taskDeadlines],
    ∀ time ∈ times, isWithin 63 63 time = true
  kernels : ∀ kernel ∈ descriptor.taskKernels, isWithin 31 31 kernel = true
  adjacency : ∀ row ∈ descriptor.adjacency, ∀ entry ∈ row, isWithin 31 31 entry = true

end Descriptor

/-- No word that spells something else ends in a digit. -/
theorem Yaml.unreserved_of_digit {text : String} {c : Char} (member : c ∈ text.toList)
    (digit : c.isDigit = true) : text ∉ Plain.nulls ∧ Plain.bools.lookup text = none := by
  have noDigits : (Plain.nulls ++ Plain.bools.map Prod.fst).all
      (fun other => other.toList.all fun c => !c.isDigit) = true := by decide
  have unreserved : text ∉ Plain.nulls ++ Plain.bools.map Prod.fst := by
    intro reserved
    have noDigit := List.all_eq_true.mp (List.all_eq_true.mp noDigits text reserved) c member
    rw [digit] at noDigit
    cases noDigit
  rw [List.mem_append, not_or] at unreserved
  refine ⟨unreserved.1, List.lookup_eq_none_iff.mpr fun entry inside => ?_⟩
  rw [bne_iff_ne]
  rintro rfl
  exact unreserved.2 (List.mem_map_of_mem inside)

/-- A stem that starts with a letter makes plain words. -/
theorem IsNumbered.isBare {stem name : String} {least : Nat} {c : Char} {rest : List Char}
    (numbered : IsNumbered stem least name) (several : 0 < least)
    (starts : stem.toList = c :: rest) (letter : c.isAlpha = true)
    (isRest : rest.all isWordChar = true) : (Node.ofText name).isBare = true := by
  obtain ⟨digits, shape, enough, isDigits⟩ := numbered
  rw [starts, List.cons_append] at shape
  have isChar : isWordChar c = true := by simp [isWordChar, Char.isAlphanum, letter]
  have isChars : (c :: (rest ++ digits)).all isWordChar = true := by
    have digitChars : digits.all isWordChar = true :=
      List.all_eq_true.mpr fun other member => isWordChar_of_isDigit (isDigits other member)
    rw [List.all_cons, List.all_append, isChar, isRest, digitChars]
    rfl
  have word : isWord name.toList = true := by
    rw [shape, isWord, isChars, startsWord, Char.isAlphanum, letter]
    rfl
  obtain ⟨last, member⟩ := List.exists_mem_of_length_pos (Nat.lt_of_lt_of_le several enough)
  have inside : last ∈ name.toList := by
    rw [shape]
    exact List.mem_cons_of_mem c (List.mem_append_right rest member)
  obtain ⟨noNull, noBool⟩ := unreserved_of_digit inside (isDigits last member)
  exact Node.isBare_ofText word (needsQuotes_letter shape letter isChars noNull noBool)

namespace Descriptor

theorem isBare_kind (kind : TaskKind) : kind.toNode.isBare = true := by
  cases kind <;> decide

theorem isBare_toNode {descriptor : Descriptor} (regular : descriptor.Regular) :
    descriptor.toNode.isBare = true := by
  have name : (Node.ofText descriptor.name).isBare = true :=
    regular.name.isBare (by decide) rfl (by decide) (by decide)
  have taskNames : (Node.ofList Node.ofText descriptor.taskNames).isBare = true :=
    Node.isBare_ofList fun name member =>
      (regular.taskNames name member).isBare (by decide) rfl (by decide) (by decide)
  have kinds : (Node.ofList TaskKind.toNode descriptor.taskKinds).isBare = true :=
    Node.isBare_ofList fun kind _ => isBare_kind kind
  have integers : ∀ values : List Int, (Node.ofList Node.ofInt values).isBare = true :=
    fun _ => Node.isBare_ofList fun value _ => Node.isBare_ofInt value
  have naturals : ∀ values : List Nat, (Node.ofList Node.ofNat values).isBare = true :=
    fun _ => Node.isBare_ofList fun value _ => Node.isBare_ofNat value
  have matrix : ∀ rows, (Node.ofList (Node.ofList Node.ofInt) rows).isBare = true :=
    fun _ => Node.isBare_ofList fun row _ => integers row
  refine Node.isBare_ofRecord ?_ ?_
  · simp only [List.map_cons, List.map_nil]
    decide
  · simp only [List.map_cons, List.map_nil, List.forall_mem_cons, name, taskNames, kinds, integers,
      naturals, matrix, Node.isBare_ofNat, Node.isBare_ofInt, Node.isBare_ofFloat, List.not_mem_nil,
      false_imp_iff, implies_true, and_self]

theorem ofNode?_kind (kind : TaskKind) : TaskKind.ofNode? kind.toNode = some kind := by
  cases kind <;> rfl

theorem list?_ofNats {values : List Nat} (small : ∀ value ∈ values, value < Nat.pow 2 64) :
    (Node.ofList Node.ofNat values).list? Node.nat? = some values :=
  Node.list?_ofList fun value member => Node.nat?_ofNat (small value member)

theorem list?_ofInts {bits : Nat} {values : List Int}
    (within : ∀ value ∈ values, isWithin bits bits value = true) :
    (Node.ofList Node.ofInt values).list? (Node.int? bits) = some values :=
  Node.list?_ofList fun value member => Node.int?_ofInt (within value member)

theorem ofNode?_toNode {descriptor : Descriptor} (regular : descriptor.Regular) :
    ofNode? descriptor.toNode = some descriptor := by
  obtain ⟨found, read, each⟩ : ∃ found, descriptor.toNode.fields? = some found ∧ _ :=
    Node.reads_ofRecord (by simp)
  obtain ⟨-, -, counts, cpus, frequencies, times, taskTimes, kernels, adjacency⟩ := regular
  simp only [List.forall_mem_cons, List.not_mem_nil, false_imp_iff, implies_true, and_true]
    at each counts times taskTimes
  obtain ⟨tasks, edges, cpuCount, outEdges, inEdges, message, repetitions⟩ := counts
  obtain ⟨hyperPeriod, period, deadline⟩ := times
  obtain ⟨wcets, runtimes, deadlines⟩ := taskTimes
  have kinds := Node.list?_ofList fun kind (_ : kind ∈ descriptor.taskKinds) => ofNode?_kind kind
  have names : (Node.ofList Node.ofText descriptor.taskNames).list? Node.text?
      = some descriptor.taskNames := Node.list?_ofList fun _ _ => rfl
  have name : (Node.ofText descriptor.name).text? = some descriptor.name := rfl
  have matrix := Node.list?_ofList fun row member => list?_ofInts (adjacency row member)
  -- Every field is found by its key, and then its node is read as its value.
  obtain ⟨nameAt, tasksAt, edgesAt, cpuCountAt, outEdgesAt, inEdgesAt, messageAt, repetitionsAt,
    hyperPeriodAt, periodAt, deadlineAt, namesAt, kindsAt, wcetsAt, runtimesAt, deadlinesAt, cpusAt,
    kernelsAt, frequenciesAt, ratioAt, matrixAt⟩ := each
  rw [ofNode?, read, Option.bind_eq_bind, Option.bind_some, nameAt, name,
    tasksAt, Node.nat?_ofNat tasks, edgesAt, Node.nat?_ofNat edges,
    cpuCountAt, Node.nat?_ofNat cpuCount, outEdgesAt, Node.nat?_ofNat outEdges,
    inEdgesAt, Node.nat?_ofNat inEdges, messageAt, Node.nat?_ofNat message,
    repetitionsAt, Node.nat?_ofNat repetitions, hyperPeriodAt, Node.int?_ofInt hyperPeriod,
    periodAt, Node.int?_ofInt period, deadlineAt, Node.int?_ofInt deadline, namesAt, names,
    kindsAt, kinds, wcetsAt, list?_ofInts wcets, runtimesAt, list?_ofInts runtimes,
    deadlinesAt, list?_ofInts deadlines, cpusAt, list?_ofNats cpus, kernelsAt,
    list?_ofInts kernels, frequenciesAt, list?_ofNats frequencies, ratioAt, Node.float?_ofFloat,
    matrixAt, matrix]
  rfl

/-- Reading undoes writing for descriptors. -/
theorem read_write {descriptor : Descriptor} (regular : descriptor.Regular) :
    (Document.read descriptor.write).bind format.value? = some descriptor := by
  rw [write, format.read_write (isBare_toNode regular)]
  exact ofNode?_toNode regular

end Descriptor

end DagDeploy
