import DagDeploy.Proofs.EdgeCounts
import DagDeploy.Proofs.Traversals

/-! Graphs that grow from nothing by requests, some of which are refused. Their links join nodes
that exist, and the degrees need no more than that. The matrix does: it is indexed by the ids stored
in the nodes, which may repeat, differ from the positions of the nodes, or have no row at all. -/

namespace DagDeploy.Graph

inductive Addition where
  | node (node : Node)
  | link (link : Link)

def add (graph : Graph) : Addition → Except Fault Graph
  | .node node => .ok (graph.addNode node)
  | .link link => graph.addLink link

/-- A request that is refused leaves the graph as it is. -/
def grow (graph : Graph) (addition : Addition) : Graph :=
  match graph.add addition with
  | .ok larger => larger
  | .error _ => graph

def grown (additions : List Addition) : Graph := additions.foldl grow empty

def requested : List Addition → List Node
  | [] => []
  | .node node :: rest => node :: requested rest
  | .link _ :: rest => requested rest

/-- The links between nodes that exist when they are asked for, from `nodes` nodes on. -/
def accepted (nodes : Nat) : List Addition → List Link
  | [] => []
  | .node _ :: rest => accepted (nodes + 1) rest
  | .link link :: rest =>
    if link.source < nodes ∧ link.target < nodes then link :: accepted nodes rest
    else accepted nodes rest

def Fits (graph : Graph) (link : Link) : Prop :=
  link.source < graph.size ∧ link.target < graph.size

def idAt? (graph : Graph) (node : Nat) : Option Nat := graph.nodes[node]?.map Node.id

/-- The node stores an id that is a row of the matrix. -/
def HasRow (graph : Graph) (node : Nat) : Prop :=
  ∃ id < graph.size, graph.idAt? node = some id

/-- The ends of the links in the order of their addition, each source before its target. -/
def linkEnds (links : List Link) : List Nat := links.flatMap fun link => [link.source, link.target]

/-- A link goes from a node with the one id to a node with the other. -/
def JoinsIds (graph : Graph) (row column : Nat) : Prop :=
  ∃ link ∈ graph.links, graph.idAt? link.source = some row ∧ graph.idAt? link.target = some column

/-- The degrees count each link once at its source and once at its target. -/
structure Balanced (graph : Graph) : Prop where
  leaving : graph.outDegrees.sum = graph.links.length
  entering : graph.inDegrees.sum = graph.links.length
  mostLeaving : Greatest graph.size graph.outDegree graph.maxOutDegree
  mostEntering : Greatest graph.size graph.inDegree graph.maxInDegree

structure Raised (graph : Graph) (link : Link) (larger : Graph) : Prop where
  nodes : larger.nodes = graph.nodes
  links : larger.links = graph.links ++ [link]
  leaving : ∀ node, larger.outDegree node
    = graph.outDegree node + if link.source = node then 1 else 0
  entering : ∀ node, larger.inDegree node
    = graph.inDegree node + if link.target = node then 1 else 0

/-- The matrix by the ids of the nodes. It exists when both ends of each link have a row, and else
the first end that has none is told. -/
structure Tabulated (graph : Graph) : Prop where
  defined : (∃ entries, graph.adjacency = .ok entries) ↔
    ∀ link ∈ graph.links, graph.HasRow link.source ∧ graph.HasRow link.target
  square : ∀ entries, graph.adjacency = .ok entries → entries.length = graph.size ∧
    ∀ row ∈ entries, row.length = graph.size
  joined : ∀ entries, graph.adjacency = .ok entries → ∀ row < graph.size, ∀ column < graph.size,
    graph.JoinsIds row column → (entries[row]?.bind fun columns => columns[column]?) = some 1
  apart : ∀ entries, graph.adjacency = .ok entries → ∀ row < graph.size, ∀ column < graph.size,
    ¬ graph.JoinsIds row column → (entries[row]?.bind fun columns => columns[column]?) = some 0
  refused : ∀ fault, graph.adjacency = .error fault ↔ ∃ before node after id,
    linkEnds graph.links = before ++ node :: after ∧ (∀ earlier ∈ before, graph.HasRow earlier) ∧
    graph.idAt? node = some id ∧ graph.size ≤ id ∧ fault = .idOutside graph.size id

def Closed (graph : Graph) : Prop := ∀ link ∈ graph.links, graph.Fits link

variable {graph : Graph} {link : Link} {node : Nat}

section steps

theorem addLink_of_fits (fits : graph.Fits link) :
    graph.addLink link = .ok { graph with links := graph.links ++ [link] } := if_pos fits

theorem addLink_of_not_fits (outside : ¬ graph.Fits link) :
    graph.addLink link = .error .missingNode := if_neg outside

theorem grow_node (graph : Graph) (node : Node) :
    graph.grow (.node node) = graph.addNode node := rfl

theorem grow_of_fits (fits : graph.Fits link) :
    graph.grow (.link link) = { graph with links := graph.links ++ [link] } := by
  simp only [grow, add, addLink_of_fits fits]

theorem grow_of_not_fits (outside : ¬ graph.Fits link) : graph.grow (.link link) = graph := by
  simp only [grow, add, addLink_of_not_fits outside]

/-- A link raises one degree at each of its ends. -/
theorem raised_concat (graph : Graph) (link : Link) :
    graph.Raised link { graph with links := graph.links ++ [link] } where
  nodes := rfl
  links := rfl
  leaving node := by
    simp [outDegree, List.countP_append, List.countP_cons]
  entering node := by
    simp [inDegree, List.countP_append, List.countP_cons]

theorem Closed.grow (closed : graph.Closed) (addition : Addition) :
    (graph.grow addition).Closed := by
  cases addition with
  | node node =>
    -- Nodes keep their positions, so a link that fits goes on fitting.
    intro link member
    obtain ⟨source, target⟩ := closed link member
    have larger : (graph.grow (.node node)).size = graph.size + 1 := by
      simp [grow_node, addNode, size]
    exact ⟨by omega, by omega⟩
  | link link =>
    by_cases fits : graph.Fits link
    · rw [grow_of_fits fits]
      intro other member
      rcases List.mem_append.mp member with before | last
      · exact closed other before
      · rw [List.mem_singleton.mp last]
        exact fits
    · rwa [grow_of_not_fits fits]

end steps

section runs

theorem grown_concat (additions : List Addition) (addition : Addition) :
    grown (additions ++ [addition]) = (grown additions).grow addition := by
  rw [grown, List.foldl_append]
  rfl

theorem closed_grown (additions : List Addition) : (grown additions).Closed := by
  induction additions using List.reverseRecOn with
  | nil => simp [grown, empty, Closed]
  | append_singleton before last ih =>
    rw [grown_concat]
    exact ih.grow last

theorem foldl_grow (graph : Graph) (additions : List Addition) : additions.foldl grow graph
    = ⟨graph.nodes ++ requested additions, graph.links ++ accepted graph.size additions⟩ := by
  induction additions generalizing graph with
  | nil => simp [requested, accepted]
  | cons addition rest ih =>
    rw [List.foldl_cons, ih]
    cases addition with
    | node node => simp [grow_node, addNode, requested, accepted, size]
    | link link =>
      by_cases fits : graph.Fits link
      · have taken : accepted graph.size (.link link :: rest)
            = link :: accepted graph.size rest := if_pos fits
        rw [grow_of_fits fits, taken]
        simp [requested, size]
      · have left : accepted graph.size (.link link :: rest) = accepted graph.size rest :=
          if_neg fits
        rw [grow_of_not_fits fits, left, requested]

theorem grown_eq (additions : List Addition) :
    grown additions = ⟨requested additions, accepted 0 additions⟩ := by
  simp [grown, foldl_grow, empty, size]

end runs

section degrees

theorem sum_degrees {key : Link → Nat} (inside : ∀ link ∈ graph.links, key link < graph.size) :
    ((List.range graph.size).map fun node => graph.links.countP (key · == node)).sum
      = graph.links.length := by
  rw [sum_map_range]
  simpa using sum_countP (fun _ => true) inside

theorem Closed.balanced (closed : graph.Closed) : graph.Balanced where
  leaving := sum_degrees fun link member => (closed link member).1
  entering := sum_degrees fun link member => (closed link member).2
  mostLeaving := greatest_outDegree graph
  mostEntering := greatest_inDegree graph

end degrees

section rows

theorem rowOf_eq_ok {id : Nat} :
    graph.rowOf node = .ok id ↔ id < graph.size ∧ graph.idAt? node = some id := by
  unfold rowOf idAt?
  cases graph.nodes[node]? with
  | none => simp
  | some stored =>
    by_cases inside : stored.id < graph.size
    · simp only [inside, if_true, Except.ok.injEq, Option.map_some, Option.some.injEq]
      constructor
      · rintro rfl
        exact ⟨inside, rfl⟩
      · exact And.right
    · simp only [inside, if_false, reduceCtorEq, Option.map_some, Option.some.injEq, false_iff]
      rintro ⟨less, rfl⟩
      exact inside less

theorem rowOf_eq_error {fault : Fault} (present : node < graph.size) :
    graph.rowOf node = .error fault ↔ ∃ id, graph.idAt? node = some id ∧ graph.size ≤ id ∧
      fault = .idOutside graph.size id := by
  have found := List.getElem?_eq_getElem present
  simp only [rowOf, idAt?, found, Option.map_some, Option.some.injEq]
  by_cases inside : graph.nodes[node].id < graph.size
  · simp only [inside, if_true, reduceCtorEq, false_iff]
    rintro ⟨id, rfl, beyond, -⟩
    exact Nat.not_le.mpr inside beyond
  · simp only [inside, if_false, Except.error.injEq]
    constructor
    · rintro rfl
      exact ⟨_, rfl, Nat.not_lt.mp inside, rfl⟩
    · rintro ⟨id, rfl, -, rfl⟩
      rfl

theorem hasRow_iff : graph.HasRow node ↔ ∃ id, graph.rowOf node = .ok id := by
  simp only [HasRow, rowOf_eq_ok]

theorem rowsOf_eq_ok {row column : Nat} : graph.rowsOf link = .ok (row, column) ↔
    graph.rowOf link.source = .ok row ∧ graph.rowOf link.target = .ok column := by
  unfold rowsOf
  cases graph.rowOf link.source <;> cases graph.rowOf link.target <;>
    simp [bind, Except.bind, pure, Except.pure]

/-- Rows are looked up end by end. -/
theorem mapM_rowsOf (graph : Graph) (links : List Link) :
    (linkEnds links).mapM graph.rowOf
      = (fun cells => cells.flatMap fun cell => [cell.1, cell.2]) <$>
        links.mapM graph.rowsOf := by
  induction links with
  | nil => rfl
  | cons link rest ih =>
    have split : linkEnds (link :: rest) = link.source :: link.target :: linkEnds rest := rfl
    simp only [split, List.mapM_cons, ih, rowsOf, bind_assoc, pure_bind, map_bind, bind_map_left,
      map_pure, List.flatMap_cons, List.cons_append, List.nil_append]

theorem mem_linkEnds {links : List Link} :
    node ∈ linkEnds links ↔ ∃ link ∈ links, node = link.source ∨ node = link.target := by
  simp [linkEnds]

theorem Closed.present (closed : graph.Closed) (member : node ∈ linkEnds graph.links) :
    node < graph.size := by
  obtain ⟨link, present, rfl | rfl⟩ := mem_linkEnds.mp member
  · exact (closed link present).1
  · exact (closed link present).2

end rows

section tables

theorem adjacency_eq_ok {entries : List (List Int)} : graph.adjacency = .ok entries ↔
    ∃ cells, Yields graph.rowsOf graph.links cells ∧ entries = matrix graph.size cells := by
  simp only [← mapM_eq_ok, adjacency]
  cases graph.links.mapM graph.rowsOf <;>
    simp [bind, Except.bind, pure, Except.pure, eq_comm]

theorem adjacency_eq_error {fault : Fault} : graph.adjacency = .error fault ↔
    StopsAt graph.rowOf (linkEnds graph.links) fault := by
  rw [← mapM_eq_error, mapM_rowsOf, adjacency]
  cases graph.links.mapM graph.rowsOf <;>
    simp [bind, Except.bind, pure, Except.pure, Functor.map, Except.map]

theorem mem_cells {cells : List (Nat × Nat)} (yields : Yields graph.rowsOf graph.links cells)
    {row column : Nat} : (row, column) ∈ cells ↔
      row < graph.size ∧ column < graph.size ∧ graph.JoinsIds row column := by
  simp only [yields.mem_iff, rowsOf_eq_ok, rowOf_eq_ok, JoinsIds]
  constructor
  · rintro ⟨link, member, ⟨rowInside, source⟩, columnInside, target⟩
    exact ⟨rowInside, columnInside, link, member, source, target⟩
  · rintro ⟨rowInside, columnInside, link, member, source, target⟩
    exact ⟨link, member, ⟨rowInside, source⟩, columnInside, target⟩

theorem exists_adjacency_iff : (∃ entries, graph.adjacency = .ok entries) ↔
    ∀ link ∈ graph.links, graph.HasRow link.source ∧ graph.HasRow link.target := by
  have made : (∃ entries, graph.adjacency = .ok entries) ↔
      ∃ cells, Yields graph.rowsOf graph.links cells := by
    simp only [adjacency_eq_ok]
    constructor
    · rintro ⟨entries, cells, yields, -⟩
      exact ⟨cells, yields⟩
    · rintro ⟨cells, yields⟩
      exact ⟨_, cells, yields, rfl⟩
  rw [made, exists_yields_iff]
  simp only [Prod.exists, rowsOf_eq_ok, hasRow_iff, exists_and_left, exists_and_right]

theorem Closed.tabulated (closed : graph.Closed) : graph.Tabulated where
  defined := exists_adjacency_iff
  square entries made := by
    obtain ⟨cells, -, rfl⟩ := adjacency_eq_ok.mp made
    simp [matrix]
  joined entries made row rowInside column columnInside joins := by
    obtain ⟨cells, yields, rfl⟩ := adjacency_eq_ok.mp made
    have member := (mem_cells yields).mpr ⟨rowInside, columnInside, joins⟩
    rw [cell_matrix rowInside columnInside, mark_of_mem member]
    rfl
  apart entries made row rowInside column columnInside unjoined := by
    obtain ⟨cells, yields, rfl⟩ := adjacency_eq_ok.mp made
    have absent : (row, column) ∉ cells := fun member => unjoined ((mem_cells yields).mp member).2.2
    rw [cell_matrix rowInside columnInside, mark_of_notMem absent]
    rfl
  refused fault := by
    -- The ends of links are nodes, so a look-up only fails for the id it finds.
    simp only [adjacency_eq_error, StopsAt, ← hasRow_iff]
    constructor
    · rintro ⟨before, node, after, split, earlier, stops⟩
      have present : node < graph.size := closed.present (by simp [split])
      obtain ⟨id, stored, beyond, rfl⟩ := (rowOf_eq_error present).mp stops
      exact ⟨before, node, after, id, split, earlier, stored, beyond, rfl⟩
    · rintro ⟨before, node, after, id, split, earlier, stored, beyond, rfl⟩
      have present : node < graph.size := closed.present (by simp [split])
      exact ⟨before, node, after, split, earlier,
        (rowOf_eq_error present).mpr ⟨id, stored, beyond, rfl⟩⟩

end tables

/-- Whatever is asked of a graph that grows from nothing, it stores the nodes that were asked for
and the links that were accepted, its degrees are balanced and its matrix is that of the ids. A link
raises the degrees at its ends when they exist, and else it is refused; a node raises no degree. -/
theorem grown_laws (additions : List Addition) :
    grown additions = ⟨requested additions, accepted 0 additions⟩ ∧
    (grown additions).Balanced ∧ (grown additions).Tabulated ∧
    (∀ link, (grown additions).Fits link →
      (grown additions).addLink link = .ok (grown (additions ++ [.link link])) ∧
      (grown additions).Raised link (grown (additions ++ [.link link]))) ∧
    (∀ link, ¬ (grown additions).Fits link →
      (grown additions).addLink link = .error .missingNode ∧
      grown (additions ++ [.link link]) = grown additions) ∧
    ∀ node place,
      (grown (additions ++ [.node node])).outDegree place = (grown additions).outDegree place ∧
      (grown (additions ++ [.node node])).inDegree place = (grown additions).inDegree place := by
  have closed := closed_grown additions
  refine ⟨grown_eq additions, closed.balanced, closed.tabulated, ?_, ?_, ?_⟩
  · intro link fits
    rw [grown_concat, grow_of_fits fits]
    exact ⟨addLink_of_fits fits, raised_concat _ _⟩
  · intro link outside
    rw [grown_concat, grow_of_not_fits outside]
    exact ⟨addLink_of_not_fits outside, rfl⟩
  · intro node place
    rw [grown_concat]
    exact ⟨rfl, rfl⟩

/-- Nodes may share an id, and one without links may store any. -/
example : (grown [.node ⟨1, 4⟩, .node ⟨1, 3⟩, .node ⟨7, 3⟩, .link ⟨0, 1, 8⟩,
    .link ⟨3, 0, 8⟩]).adjacency = .ok [[0, 0, 0], [0, 1, 0], [0, 0, 0]] := rfl

end DagDeploy.Graph
