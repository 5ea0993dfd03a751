import DagDeploy.Catalogue
import DagDeploy.Yaml.Plain
import DagDeploy.Yaml.Shape

/-! The document of a catalogue. Every field may be missing, so that an empty document stands for
the standard catalogue. Kernel ids are a mapping; of repeated times the last one counts. The name of a
kind is a text, or the local tag of a node without contents. -/

namespace DagDeploy

open Yaml

def TaskKind.toNode (kind : TaskKind) : Node := .ofText kind.name

def TaskKind.ofNode? (node : Node) : Option TaskKind := do
  match node.tag?.bind Tag.variant? with
  | none => ofName? (← node.text?)
  | some variant =>
    match node.untagged with
    | .scalar content .plain => if content ∈ Plain.nulls then ofName? variant else none
    | _ => none

def KernelIds.toNode (ids : KernelIds) : Node :=
  .mapping (ids.entries.map fun entry => (.ofInt entry.1, .ofInt entry.2))

def KernelIds.ofNode? (node : Node) : Option KernelIds := do
  let entries ← (← node.entries?).mapM fun entry => do
    return (← entry.1.int? 63, ← entry.2.int? 31)
  return .ofList entries

def Catalogue.toNode (catalogue : Catalogue) : Node := .ofRecord [
  ("supported_task_types", .ofList TaskKind.toNode catalogue.supportedKinds),
  ("fred_ids", catalogue.kernelIds.toNode),
  ("default_fred_id", .ofInt catalogue.defaultKernel),
  ("non_fred_id", .ofInt catalogue.notAccelerated),
  ("expected_wcet_ratio", .ofFloat catalogue.expectedWcetRatio)]

def Catalogue.ofNode? (node : Node) : Option Catalogue := do
  let fields ← node.fields?
  let base := Catalogue.standard
  return {
    supportedKinds := ← Node.fieldOr? base.supportedKinds fields "supported_task_types"
      (Node.list? TaskKind.ofNode?)
    kernelIds := ← Node.fieldOr? base.kernelIds fields "fred_ids" KernelIds.ofNode?
    defaultKernel := ← Node.fieldOr? base.defaultKernel fields "default_fred_id" (Node.int? 31)
    notAccelerated := ← Node.fieldOr? base.notAccelerated fields "non_fred_id" (Node.int? 31)
    expectedWcetRatio :=
      ← Node.fieldOr? base.expectedWcetRatio fields "expected_wcet_ratio" Node.float? }

def Catalogue.shape : Shape := .record false [
  ("supported_task_types", .whole), ("fred_ids", .numbered), ("default_fred_id", .whole),
  ("non_fred_id", .whole), ("expected_wcet_ratio", .whole)]

def Catalogue.format : Format Catalogue := ⟨shape, ofNode?⟩

end DagDeploy
