import Grab.Graph.Adjacency
import Grab.Lib.Traversal

/-!
# Searching a graph

Breadth- and depth-first search over anything that names its out-neighbours.  A visitor is
told of every node in the order of the search and of every edge that is examined.
-/

namespace Grab.Graph

open AdjacencyGraph Grab.Lib Search Traversal Relation List

variable {κ ω : Type} [DecidableEq κ]

/-- A finite graph that its edges do not leave. -/
structure TraversableGraph (κ : Type) where
  outEdges : κ → List κ
  containsNode : κ → Bool
  nodes : List κ
  mem_nodes : ∀ node, node ∈ nodes ↔ containsNode node = true
  closed : ∀ node ∈ nodes, outEdges node ⊆ nodes

def AdjacencyGraph.Mirrored.traversable {π : Type} [Ord κ] [Std.TransOrd κ] [Std.LawfulEqOrd κ]
    {graph : AdjacencyGraph κ π} (mirrored : graph.Mirrored) : TraversableGraph κ where
  outEdges node := (graph.outEdges node).map OutgoingEdge.target
  containsNode := graph.containsNode
  nodes := graph.nodes
  mem_nodes _ := mem_nodes_iff
  closed := by
    rintro node _ _ member
    obtain ⟨edge, isEdge, rfl⟩ := mem_map.mp member
    exact mem_nodes_iff.mpr (mirrored.live _ _ _ isEdge).2

structure GraphVisitor (κ ω : Type) where
  visitNode : ω → κ → ω
  visitEdge : ω → κ → κ → ω

/-- Visit a node and offer the edges examined from it. -/
def GraphVisitor.enter (visitor : GraphVisitor κ ω) (edges : κ → List κ) (state : ω)
    (node : κ) : ω :=
  (edges node).foldl (fun state target => visitor.visitEdge state node target)
    (visitor.visitNode state node)

def breadthFirstSearch (fuel : Nat) (graph : TraversableGraph κ) (start : κ)
    (visitor : GraphVisitor κ ω) (state : ω) : ω :=
  if graph.containsNode start then
    (breadthFirst graph.outEdges fuel [start] [start]).foldl (visitor.enter graph.outEdges) state
  else state

/-- The edges of a node are examined last to first, so that the first is popped first. -/
def depthFirstSearch (fuel : Nat) (graph : TraversableGraph κ) (start : κ)
    (visitor : GraphVisitor κ ω) (state : ω) : ω :=
  if graph.containsNode start then
    (depthFirst graph.outEdges fuel [start] []).foldl
      (visitor.enter fun node => (graph.outEdges node).reverse) state
  else state

/-- Write down the nodes that are visited. -/
def recorder (κ : Type) : GraphVisitor κ (List κ) where
  visitNode order node := order ++ [node]
  visitEdge order _ _ := order

omit [DecidableEq κ] in
theorem foldl_enter (edges : κ → List κ) (nodes order : List κ) :
    nodes.foldl ((recorder κ).enter edges) order = order ++ nodes := by
  have enter : ∀ order node, (recorder κ).enter edges order node = order ++ [node] := by
    intro order node
    exact foldl_fixed' (fun _ => rfl) _
  induction nodes generalizing order with
  | nil => exact (append_nil order).symm
  | cons node rest ih => rw [foldl_cons, enter, ih, append_assoc, singleton_append]

/-- Both searches end with the nodes that are reachable from the start, each once: in order
of distance, and in the order of the recursive search. -/
theorem search_exact (graph : TraversableGraph κ) (start : κ) {fuel : Nat}
    (enough : graph.nodes.length + 1 + unseenEdges graph.outEdges graph.nodes [] ≤ fuel) :
    let broad := breadthFirstSearch fuel graph start (recorder κ) []
    let deep := depthFirstSearch fuel graph start (recorder κ) []
    (∀ node, (node ∈ broad ↔ graph.containsNode start = true ∧
        ReflTransGen (Edge graph.outEdges) start node) ∧ (node ∈ deep ↔ node ∈ broad)) ∧
      broad.Nodup ∧ deep.Nodup ∧ broad.Pairwise (NoFurther graph.outEdges start) ∧
      InPreorder graph.outEdges [] (if graph.containsNode start then [start] else []) deep := by
  intro broad deep
  by_cases live : graph.containsNode start = true
  · have inside := (graph.mem_nodes start).mpr live
    have isBroad : broad = breadthFirst graph.outEdges fuel [start] [start] :=
      (if_pos live).trans (foldl_enter _ _ [])
    have isDeep : deep = depthFirst graph.outEdges fuel [start] [] :=
      (if_pos live).trans (foldl_enter _ _ [])
    have wide := breadthFirst_exact graph.closed inside (by omega : graph.nodes.length ≤ fuel)
    have far := depthFirst_exact graph.closed inside
      (by omega : 1 + unseenEdges graph.outEdges graph.nodes [] ≤ fuel)
    rw [isBroad, isDeep, if_pos live]
    refine ⟨?_, wide.2.1, far.2.1, wide.2.2, far.2.2⟩
    intro node
    rw [wide.1, far.1]
    simp [live]
  · have isBroad : broad = [] := if_neg live
    have isDeep : deep = [] := if_neg live
    rw [isBroad, isDeep, if_neg live]
    simp [live, InPreorder.nil]

/-- Two nodes with an edge between them. -/
theorem search_exact_numbers : ∃ graph : TraversableGraph Nat,
    graph.outEdges 1 = [2] ∧ (breadthFirstSearch 4 graph 1 (recorder Nat) []).Nodup := by
  let empty : AdjacencyGraph Nat Bool := {}
  have first := mirrored_empty.addNode (rfl : empty.addNode 1 = _)
  have both := first.addNode (rfl : addNode _ 2 = _)
  have joined := both.addEdge (rfl : addEdge _ 1 2 true = some _)
  exact ⟨joined.traversable, rfl, (search_exact joined.traversable 1 (Nat.le_refl 4)).2.1⟩

end Grab.Graph
