import DagDeploy.Document.Model
import DagDeploy.Proofs.KernelEntries
import DagDeploy.Proofs.Reloading

/-! Model documents and catalogues are read as they were written, whatever numbers they hold, as
long as these have the widths of their fields. Lists may be empty at every level, and an edge has
its label again because it has one value more. -/

namespace DagDeploy

open Yaml

structure Dag.Regular (dag : Dag) : Prop where
  wcets : ∀ task ∈ dag.tasks, isWithin 63 63 task.wcetRef = true
  edges : ∀ edge ∈ dag.edges, ∀ value ∈ edge.values, value < Nat.pow 2 64
  period : dag.period < Nat.pow 2 64
  deadline : isWithin 63 63 dag.deadline = true

def DagSet.Regular (set : DagSet) : Prop := ∀ dag ∈ set.dags, dag.Regular

structure KernelIds.Regular (ids : KernelIds) : Prop where
  times : ∀ entry ∈ ids.entries, isWithin 63 63 entry.1 = true
  kernels : ∀ entry ∈ ids.entries, isWithin 31 31 entry.2 = true

structure Catalogue.Regular (catalogue : Catalogue) : Prop where
  kernelIds : catalogue.kernelIds.Regular
  defaultKernel : isWithin 31 31 catalogue.defaultKernel = true
  notAccelerated : isWithin 31 31 catalogue.notAccelerated = true

section model

theorem Task.isBare_toNode (task : Task) : task.toNode.isBare = true := by
  refine Node.isBare_ofRecord ?_ ?_
  · simp only [List.map_cons, List.map_nil]
    decide
  · simp only [List.map_cons, List.map_nil, List.forall_mem_cons, Node.isBare_ofInt,
      List.not_mem_nil, false_imp_iff, implies_true, and_self]

theorem Edge.isBare_toNode (edge : Edge) : edge.toNode.isBare = true :=
  Node.isBare_ofList fun value _ => Node.isBare_ofNat value

theorem Dag.isBare_toNode (dag : Dag) : dag.toNode.isBare = true := by
  have tasks : (Node.ofList Task.toNode dag.tasks).isBare = true :=
    Node.isBare_ofList fun task _ => task.isBare_toNode
  have edges : (Node.ofList Edge.toNode dag.edges).isBare = true :=
    Node.isBare_ofList fun edge _ => edge.isBare_toNode
  refine Node.isBare_ofRecord ?_ ?_
  · simp only [List.map_cons, List.map_nil]
    decide
  · simp only [List.map_cons, List.map_nil, List.forall_mem_cons, tasks, edges, Node.isBare_ofNat,
      Node.isBare_ofInt, List.not_mem_nil, false_imp_iff, implies_true, and_self]

theorem DagSet.isBare_toNode (set : DagSet) : set.toNode.isBare = true := by
  have dags : (Node.ofList Dag.toNode set.dags).isBare = true :=
    Node.isBare_ofList fun dag _ => dag.isBare_toNode
  refine Node.isBare_ofRecord ?_ ?_
  · simp only [List.map_cons, List.map_nil]
    decide
  · simp only [List.map_cons, List.map_nil, List.forall_mem_cons, dags, List.not_mem_nil,
      false_imp_iff, implies_true, and_self]

theorem Task.ofNode?_toNode {task : Task} (within : isWithin 63 63 task.wcetRef = true) :
    ofNode? task.toNode = some task := by
  obtain ⟨found, read, each⟩ : ∃ found, task.toNode.fields? = some found ∧ _ :=
    Node.reads_ofRecord (by simp)
  simp only [List.forall_mem_cons, List.not_mem_nil, false_imp_iff, implies_true, and_true] at each
  rw [ofNode?, read, Option.bind_eq_bind, Option.bind_some, each, Node.int?_ofInt within]
  rfl

/-- The number of values tells whether there is a label. -/
theorem Edge.ofNode?_toNode {edge : Edge} (small : ∀ value ∈ edge.values, value < Nat.pow 2 64) :
    ofNode? edge.toNode = some edge := by
  rw [ofNode?, toNode, Descriptor.list?_ofNats small, Option.bind_eq_bind, Option.bind_some,
    ofValues_values]
  rfl

theorem Dag.ofNode?_toNode {dag : Dag} (regular : dag.Regular) : ofNode? dag.toNode = some dag := by
  obtain ⟨found, read, each⟩ : ∃ found, dag.toNode.fields? = some found ∧ _ :=
    Node.reads_ofRecord (by simp)
  simp only [List.forall_mem_cons, List.not_mem_nil, false_imp_iff, implies_true, and_true] at each
  obtain ⟨tasksAt, edgesAt, periodAt, deadlineAt⟩ := each
  have tasks := Node.list?_ofList fun task member => Task.ofNode?_toNode (regular.wcets task member)
  have edges := Node.list?_ofList fun edge member => Edge.ofNode?_toNode (regular.edges edge member)
  rw [ofNode?, read, Option.bind_eq_bind, Option.bind_some, tasksAt, tasks, edgesAt, edges,
    periodAt, Node.nat?_ofNat regular.period, deadlineAt, Node.int?_ofInt regular.deadline]
  rfl

theorem DagSet.ofNode?_toNode {set : DagSet} (regular : set.Regular) :
    ofNode? set.toNode = some set := by
  obtain ⟨found, read, each⟩ : ∃ found, set.toNode.fields? = some found ∧ _ :=
    Node.reads_ofRecord (by simp)
  simp only [List.forall_mem_cons, List.not_mem_nil, false_imp_iff, implies_true, and_true] at each
  have dags := Node.list?_ofList fun dag member => Dag.ofNode?_toNode (regular dag member)
  rw [ofNode?, read, Option.bind_eq_bind, Option.bind_some, each, dags]
  rfl

end model

section catalogue

/-- Numerals of 64 bits are short enough to be keys. -/
theorem Decimal.length_ofInt_le {value : Int} (within : isWithin 63 63 value = true) :
    (ofInt value).length ≤ 21 := by
  have digits : ∀ n : Nat, n < 10 ^ 20 → (ofNat n).length ≤ 20 := fun n small =>
    (Nat.length_toDigits_le_iff (by decide) (by decide)).mpr small
  simp only [isWithin, Bool.and_eq_true, decide_eq_true_eq, Nat.pow_eq] at within
  have small : value.natAbs < 10 ^ 20 := by omega
  cases value with
  | ofNat n => exact Nat.le_succ_of_le (digits n small)
  | negSucc n => exact Nat.succ_le_succ (digits (n + 1) small)

theorem Yaml.Node.isBare_mapping {entries : List (Node × Node)}
    (bare : ∀ entry ∈ entries, isBareEntry entry = true) : (mapping entries).isBare = true := by
  have each : areBareEntries entries = true := by
    induction entries with
    | nil => rfl
    | cons entry rest ih =>
      rw [areBareEntries, bare entry List.mem_cons_self,
        ih fun other member => bare other (List.mem_cons_of_mem entry member)]
      rfl
  exact each

theorem KernelIds.isBare_toNode {ids : KernelIds} (regular : ids.Regular) :
    ids.toNode.isBare = true := by
  refine Node.isBare_mapping fun entry member => ?_
  obtain ⟨kernel, inside, rfl⟩ := List.mem_map.mp member
  have short := Decimal.length_ofInt_le (regular.times kernel inside)
  have key : (Decimal.ofInt kernel.1).length ≤ 1024 := by omega
  simp only [Node.ofInt, Node.plain, isBareEntry, String.toList_ofList, isWord_ofInt, key,
    Node.isBare, Style.isPlain, decide_true, Bool.and_self]

theorem Catalogue.isBare_toNode {catalogue : Catalogue} (regular : catalogue.Regular) :
    catalogue.toNode.isBare = true := by
  have kinds : (Node.ofList TaskKind.toNode catalogue.supportedKinds).isBare = true :=
    Node.isBare_ofList fun kind _ => Descriptor.isBare_kind kind
  have ids := KernelIds.isBare_toNode regular.kernelIds
  refine Node.isBare_ofRecord ?_ ?_
  · simp only [List.map_cons, List.map_nil]
    decide
  · simp only [List.map_cons, List.map_nil, List.forall_mem_cons, kinds, ids, Node.isBare_ofInt,
      Node.isBare_ofFloat, List.not_mem_nil, false_imp_iff, implies_true, and_self]

theorem KernelIds.ofNode?_toNode {ids : KernelIds} (regular : ids.Regular) :
    ofNode? ids.toNode = some ids := by
  have entries : (ids.entries.map fun entry => (Node.ofInt entry.1, Node.ofInt entry.2)).mapM
      (fun entry => do return (← entry.1.int? 63, ← entry.2.int? 31)) = some ids.entries := by
    refine Node.mapM_map_of_reads fun entry member => ?_
    rw [Node.int?_ofInt (regular.times entry member),
      Node.int?_ofInt (regular.kernels entry member)]
    rfl
  have mapping : ids.toNode.entries?
      = some (ids.entries.map fun entry => (Node.ofInt entry.1, Node.ofInt entry.2)) := rfl
  rw [ofNode?, mapping, Option.bind_eq_bind, Option.bind_some, entries]
  exact congrArg some (ofList_entries ids)

theorem Catalogue.ofNode?_toNode {catalogue : Catalogue} (regular : catalogue.Regular) :
    ofNode? catalogue.toNode = some catalogue := by
  obtain ⟨found, read, each⟩ : ∃ found, catalogue.toNode.fields? = some found ∧ _ :=
    Node.readsOr_ofRecord (by simp)
  simp only [List.forall_mem_cons, List.not_mem_nil, false_imp_iff, implies_true, and_true] at each
  obtain ⟨kindsAt, idsAt, defaultAt, noneAt, ratioAt⟩ := each
  have kinds := Node.list?_ofList fun kind (_ : kind ∈ catalogue.supportedKinds) =>
    Descriptor.ofNode?_kind kind
  rw [ofNode?, read, Option.bind_eq_bind, Option.bind_some]
  dsimp only
  rw [kindsAt, kinds, idsAt, KernelIds.ofNode?_toNode regular.kernelIds, defaultAt,
    Node.int?_ofInt regular.defaultKernel, noneAt, Node.int?_ofInt regular.notAccelerated, ratioAt,
    Node.float?_ofFloat]
  rfl

end catalogue

/-- Model documents and catalogues are loaded as they were written. -/
theorem documents_reload (disk : Disk) (path : String) :
    (∀ set : DagSet, set.Regular → disk.fileAt? path = some set.toNode.write.toUTF8 →
      (load DagSet.format path : Storing DagSet) disk = (disk, pure set)) ∧
    (∀ catalogue : Catalogue, catalogue.Regular →
      disk.fileAt? path = some catalogue.toNode.write.toUTF8 →
      (load Catalogue.format path : Storing Catalogue) disk = (disk, pure catalogue)) :=
  ⟨fun set regular => Storing.load_of_write set.isBare_toNode (DagSet.ofNode?_toNode regular),
    fun _ regular => Storing.load_of_write (Catalogue.isBare_toNode regular)
      (Catalogue.ofNode?_toNode regular)⟩

/-- Numbers at the ends of their ranges, a dag without anything, and edges of both kinds. -/
def DagSet.extremes : DagSet where
  dags := [
    ⟨[], [], 0, -Nat.pow 2 63⟩,
    ⟨[⟨-Nat.pow 2 63⟩, ⟨Nat.pow 2 63 - 1⟩], [⟨0, Nat.pow 2 64 - 1, some 0⟩, ⟨1, 0, none⟩],
      Nat.pow 2 64 - 1, 0⟩]

/-- No kinds, kernels at the ends of the range of times, and a ratio that is no number. -/
def Catalogue.extremes : Catalogue where
  supportedKinds := []
  kernelIds := .ofList [(Nat.pow 2 63 - 1, 0), (-Nat.pow 2 63, -Nat.pow 2 31)]
  defaultKernel := Nat.pow 2 31 - 1
  notAccelerated := -1
  expectedWcetRatio := .nan

/-- A folder with the documents of both. -/
def Disk.ofExtremes : Disk := .around [
  ("model.yaml", .file DagSet.extremes.toNode.write.toUTF8),
  ("tables.yaml", .file Catalogue.extremes.toNode.write.toUTF8)]

theorem documents_reload_extremes : DagSet.extremes.Regular ∧ Catalogue.extremes.Regular ∧
    (load DagSet.format "model.yaml" : Storing DagSet) Disk.ofExtremes
      = (Disk.ofExtremes, pure DagSet.extremes) ∧
    (load Catalogue.format "tables.yaml" : Storing Catalogue) Disk.ofExtremes
      = (Disk.ofExtremes, pure Catalogue.extremes) := by
  have model : DagSet.extremes.Regular := by
    refine List.forall_mem_cons.mpr ⟨?_, List.forall_mem_singleton.mpr ?_⟩ <;>
      exact ⟨by decide, by decide, by decide, by decide⟩
  have catalogue : Catalogue.extremes.Regular :=
    ⟨⟨by decide, by decide⟩, by decide, by decide⟩
  exact ⟨model, catalogue, (documents_reload Disk.ofExtremes "model.yaml").1 _ model rfl,
    (documents_reload Disk.ofExtremes "tables.yaml").2 _ catalogue rfl⟩

end DagDeploy
