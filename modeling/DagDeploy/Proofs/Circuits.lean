import DagDeploy.Proofs.TaskGraph
import Mathlib.Logic.Relation
import Mathlib.Order.WellFounded
import Mathlib.Data.Set.Finite.List

/-! Peeling finds the cycles. One round keeps every walk that comes back, because each of its links
has one before it; and whatever ranks the links that are left can be extended to those peeled off.
When nothing more peels off, every link that is left has one before it, and so a walk among them
comes back after all. -/

namespace DagDeploy.Graph

def Joins (links : List (Nat × Nat)) (source target : Nat) : Prop := (source, target) ∈ links

/-- Some walk of one link or more ends where it began. -/
def HasCircuit (links : List (Nat × Nat)) : Prop :=
  ∃ node, Relation.TransGen (Joins links) node node

/-- Every link leads to a higher rank. -/
def Ranks (rank : Nat → Nat) (links : List (Nat × Nat)) : Prop :=
  ∀ link ∈ links, rank link.1 < rank link.2

variable {links : List (Nat × Nat)} {rounds : Nat}

theorem mem_peel {link : Nat × Nat} :
    link ∈ peel links ↔ link ∈ links ∧ link.1 ∈ links.map Prod.snd := by
  simp [peel, List.any_eq_true]

/-- Ranks of what a round leaves start over above the nodes that no link enters. -/
theorem exists_ranks_of_peel (ranked : ∃ rank, Ranks rank (peel links)) :
    ∃ rank, Ranks rank links := by
  obtain ⟨rank, ranks⟩ := ranked
  refine ⟨fun node => if node ∈ links.map Prod.snd then rank node + 1 else 0, ?_⟩
  intro link member
  have entered : link.2 ∈ links.map Prod.snd := List.mem_map_of_mem member
  simp only [entered, if_true]
  split
  next kept => exact Nat.succ_lt_succ (ranks link (mem_peel.mpr ⟨member, kept⟩))
  next => exact Nat.succ_pos _

theorem exists_ranks_of_core (ranked : ∃ rank, Ranks rank (core rounds links)) :
    ∃ rank, Ranks rank links := by
  induction rounds generalizing links with
  | zero => exact ranked
  | succ rounds ih =>
    simp only [core] at ranked
    split at ranked
    · exact ranked
    · exact exists_ranks_of_peel (ih ranked)

theorem core_sublist : (core rounds links).Sublist links := by
  induction rounds generalizing links with
  | zero => exact List.Sublist.refl _
  | succ rounds ih =>
    simp only [core]
    split
    · exact List.Sublist.refl _
    · exact ih.trans List.filter_sublist

/-- A round that peels nothing off ends the peeling, and each other round takes a link away. -/
theorem peel_core (enough : links.length ≤ rounds) :
    peel (core rounds links) = core rounds links := by
  induction rounds generalizing links with
  | zero =>
    obtain rfl := List.eq_nil_of_length_eq_zero (Nat.le_zero.mp enough)
    rfl
  | succ rounds ih =>
    have kept : (peel links).Sublist links := List.filter_sublist
    simp only [core]
    split
    next same => exact kept.eq_of_length same
    next fewer =>
      have shorter : (peel links).length < links.length :=
        Nat.lt_of_le_of_ne kept.length_le fewer
      exact ih (by omega)

/-- Going backwards from link to link never ends, and there are finitely many sources. -/
theorem hasCircuit_of_stable (stable : peel links = links) (left : links ≠ []) :
    HasCircuit links := by
  by_contra straight
  let Source := { node // node ∈ links.map Prod.fst }
  let reaches : Source → Source → Prop := fun first last =>
    Relation.TransGen (Joins links) first.val last.val
  have finite : Finite Source := (links.map Prod.fst).finite_toSet
  have transitive : IsTrans Source reaches := ⟨fun _ _ _ => Relation.TransGen.trans⟩
  have irreflexive : Std.Irrefl reaches := ⟨fun node walk => straight ⟨node.val, walk⟩⟩
  have wellFounded := Finite.wellFounded_of_trans_of_irrefl reaches
  obtain ⟨link, member⟩ := List.exists_mem_of_ne_nil links left
  obtain ⟨⟨node, isSource⟩, -, first⟩ := wellFounded.has_min Set.univ
    ⟨⟨link.1, List.mem_map_of_mem member⟩, trivial⟩
  obtain ⟨leaving, present, rfl⟩ := List.mem_map.mp isSource
  rw [← stable] at present
  obtain ⟨-, entered⟩ := mem_peel.mp present
  obtain ⟨before, earlier, meets⟩ := List.mem_map.mp entered
  have joined : Joins links before.1 leaving.1 := by rwa [Joins, ← meets]
  exact first ⟨before.1, List.mem_map_of_mem earlier⟩ trivial (Relation.TransGen.single joined)

theorem not_ranks_of_hasCircuit (circuit : HasCircuit links) (rank : Nat → Nat) :
    ¬ Ranks rank links := by
  intro ranks
  obtain ⟨node, walk⟩ := circuit
  have climbs : ∀ last, Relation.TransGen (Joins links) node last → rank node < rank last := by
    intro last walk
    induction walk with
    | single step => exact ranks _ step
    | tail _ step ih => exact Nat.lt_trans ih (ranks _ step)
  exact Nat.lt_irrefl _ (climbs node walk)

/-- The rounds allowed are enough for what is left of the links to tell. -/
theorem core_eq_nil_iff : core links.length links = [] ↔ ¬ HasCircuit links := by
  constructor
  · intro empty circuit
    have trivially : Ranks (fun _ => 0) (core links.length links) := by simp [empty, Ranks]
    obtain ⟨rank, ranks⟩ := exists_ranks_of_core ⟨_, trivially⟩
    exact not_ranks_of_hasCircuit circuit rank ranks
  · intro straight
    by_contra left
    obtain ⟨node, walk⟩ := hasCircuit_of_stable (peel_core (Nat.le_refl _)) left
    have among : Joins (core links.length links) ≤ Joins links :=
      fun _ _ joined => core_sublist.mem joined
    exact straight ⟨node, Relation.TransGen.mono among _ _ walk⟩

theorem exists_ranks_iff : (∃ rank, Ranks rank links) ↔ ¬ HasCircuit links := by
  constructor
  · intro ⟨rank, ranks⟩ circuit
    exact not_ranks_of_hasCircuit circuit rank ranks
  · intro straight
    have empty := core_eq_nil_iff.mpr straight
    have trivially : Ranks (fun _ => 0) (core links.length links) := by simp [empty, Ranks]
    exact exists_ranks_of_core ⟨_, trivially⟩

theorem isCyclic_iff (graph : Graph) :
    graph.isCyclic ↔ HasCircuit (graph.links.map fun link => (link.source, link.target)) := by
  simp only [isCyclic, Bool.not_eq_true', List.isEmpty_eq_false_iff, ne_eq, core_eq_nil_iff,
    not_not]

end DagDeploy.Graph

namespace DagDeploy.Dag

def Precedes (dag : Dag) (first second : Nat) : Prop :=
  ∃ edge ∈ dag.edges, edge.source = first ∧ edge.target = second

/-- A walk of one edge or more that comes back to its first task. -/
def HasCircuit (dag : Dag) : Prop := ∃ task, Relation.TransGen dag.Precedes task task

/-- Every edge leads to a task of a higher rank. -/
def Ranked (dag : Dag) : Prop :=
  ∃ rank : Nat → Nat, ∀ edge ∈ dag.edges, rank edge.source < rank edge.target

variable {dag : Dag}

theorem ends_graph : (dag.graph.links.map fun link => (link.source, link.target))
    = dag.edges.map fun edge => (edge.source, edge.target) := by
  simp [graph, Edge.toLink, Function.comp_def]

theorem precedes_iff {first second : Nat} : dag.Precedes first second ↔
    Graph.Joins (dag.edges.map fun edge => (edge.source, edge.target)) first second := by
  simp [Precedes, Graph.Joins]

theorem isCyclic_graph : dag.graph.isCyclic ↔ dag.HasCircuit := by
  have same : dag.Precedes
      = Graph.Joins (dag.edges.map fun edge => (edge.source, edge.target)) := by
    funext first second
    exact propext precedes_iff
  rw [Graph.isCyclic_iff, ends_graph, HasCircuit, same]
  rfl

theorem ranked_iff : dag.Ranked ↔ ¬ dag.HasCircuit := by
  rw [← isCyclic_graph, Graph.isCyclic_iff, ends_graph, ← Graph.exists_ranks_iff]
  simp [Ranked, Graph.Ranks]

/-- The warning of a cycle is given exactly when some walk along the edges comes back, so exactly
when the tasks cannot be ranked. The graph is the same with and without it. -/
theorem toGraph_warns_iff (dag : Dag) (index : Nat) (inside : dag.Inside) :
    (s!"The edge list of dag {index} contains a cycle."
        ∈ (dag.toGraph index).lines.map LogLine.text ↔ dag.HasCircuit) ∧
      (s!"The edge list of dag {index} contains a cycle."
        ∈ (dag.toGraph index).lines.map LogLine.text ↔ ¬ dag.Ranked) ∧
      (dag.toGraph index).outcome = .ok ⟨dag.taskNodes, dag.edges.map Edge.toLink⟩ := by
  have warned : (LogLine.cycle index).text ∈ (dag.toGraph index).lines.map LogLine.text
      ↔ dag.HasCircuit := by
    rw [toGraph_of_inside inside, ← isCyclic_graph]
    by_cases cyclic : dag.graph.isCyclic
    · simp only [cyclic, if_true, List.map_cons, List.mem_cons, true_or]
    · simp only [cyclic, Bool.false_eq_true, if_false, List.map_nil, List.not_mem_nil]
  refine ⟨warned, ?_, ?_⟩
  · rw [ranked_iff, not_not]
    exact warned
  · rw [toGraph_of_inside inside]
    rfl

/-- Parallel edges, and two more tasks with an edge between them. -/
def parallelSample : Dag where
  tasks := [⟨4⟩, ⟨4⟩, ⟨3⟩, ⟨3⟩]
  edges := [⟨0, 1, none⟩, ⟨0, 1, some 8⟩, ⟨3, 2, none⟩]
  period := 1000
  deadline := 1000

/-- The same with an edge back, away from the first edges. -/
def circularSample : Dag :=
  { parallelSample with edges := parallelSample.edges ++ [⟨2, 3, none⟩] }

theorem toGraph_warns_iff_sample :
    (circularSample.Inside ∧ s!"The edge list of dag {5} contains a cycle."
      ∈ (circularSample.toGraph 5).lines.map LogLine.text) ∧
    (parallelSample.Inside ∧ s!"The edge list of dag {5} contains a cycle."
      ∉ (parallelSample.toGraph 5).lines.map LogLine.text) := by
  have circularInside : circularSample.Inside := by unfold Inside; decide
  have parallelInside : parallelSample.Inside := by unfold Inside; decide
  refine ⟨⟨circularInside, ?_⟩, parallelInside, ?_⟩
  · have forward : circularSample.Precedes 3 2 := ⟨⟨3, 2, none⟩, by decide, rfl, rfl⟩
    have back : circularSample.Precedes 2 3 := ⟨⟨2, 3, none⟩, by decide, rfl, rfl⟩
    exact (toGraph_warns_iff circularSample 5 circularInside).1.mpr
      ⟨3, (Relation.TransGen.single forward).tail back⟩
  · have ranked : parallelSample.Ranked := ⟨fun task => if task = 3 then 0 else task, by decide⟩
    exact fun warned =>
      (toGraph_warns_iff parallelSample 5 parallelInside).2.1.mp warned ranked

end DagDeploy.Dag
