import Grab.Graph.Adjacency
import Grab.Lib.Kahn

/-!
# Kahn's algorithm

The order grows while it is walked: a cursor moves over it and each outgoing
edge of the node under the cursor lowers the in-degree of its target, which is
appended when its in-degree reaches zero.  The walk visits every entry of the
order once, so as much fuel as the graph has nodes covers it.

The main result is that an order of full length lists every node after all of
its predecessors, hence the graph has no cycle, and that a graph without a cycle
has one.
-/

namespace Grab.Graph

open Std AdjacencyGraph Grab.Lib List

variable {κ π : Type} [Ord κ] [TransOrd κ] [LawfulEqOrd κ] [DecidableEq κ]

namespace Topological

/-- In-degrees still open, and the order built so far. -/
abbrev State (κ : Type) [Ord κ] [TransOrd κ] := ExtTreeMap κ Nat compare × List κ

/-- Release one edge. -/
def relax (state : State κ) (edge : OutgoingEdge κ π) : State κ :=
  match state.1[edge.target]? with
  | none => state
  | some 0 => state
  | some (count + 1) =>
    (state.1.insert edge.target count,
      if count = 0 then state.2 ++ [edge.target] else state.2)

/-- Walk the order from a cursor. -/
def drain (graph : AdjacencyGraph κ π) : Nat → Nat → State κ → List κ
  | 0, _, state => state.2
  | fuel + 1, cursor, state =>
    match state.2[cursor]? with
    | none => state.2
    | some node => drain graph fuel (cursor + 1) ((graph.outEdges node).foldl relax state)

/-- The in-degree of every node. -/
def degrees (graph : AdjacencyGraph κ π) : ExtTreeMap κ Nat compare :=
  graph.nodes.foldl (fun remaining node => remaining.insert node (graph.inEdges node).length) ∅

def seeds (graph : AdjacencyGraph κ π) : List κ :=
  graph.nodes.filter fun node => (degrees graph).getD node 0 == 0

end Topological

open Topological

/-- A linearization of the nodes, or `none` on a cycle. -/
def topologicalOrder (graph : AdjacencyGraph κ π) : Option (List κ) :=
  let order := drain graph graph.nodeCount 0 (degrees graph, seeds graph)
  if order.length = graph.nodeCount then some order else none

namespace Topological

variable {graph : AdjacencyGraph κ π} {edges : List (OutgoingEdge κ π)}

theorem getElem?_foldl_insert (value : κ → Nat) (nodes : List κ)
    (initial : ExtTreeMap κ Nat compare) (node : κ) :
    (nodes.foldl (fun remaining node => remaining.insert node (value node)) initial)[node]? =
      if node ∈ nodes then some (value node) else initial[node]? := by
  induction nodes generalizing initial with
  | nil => simp
  | cons first rest ih =>
    rw [foldl_cons, ih, ExtTreeMap.getElem?_insert]
    by_cases inRest : node ∈ rest
    · simp [inRest]
    by_cases same : first = node
    · subst first
      simp
    · simp [inRest, same, Ne.symm same]

/-- The nodes with an edge from, and with an edge to, a node. -/
def childrenOf (graph : AdjacencyGraph κ π) (node : κ) : List κ :=
  (graph.outEdges node).map OutgoingEdge.target

def parentsOf (graph : AdjacencyGraph κ π) (node : κ) : List κ :=
  (graph.inEdges node).map OutgoingEdge.target

omit [LawfulEqOrd κ] [DecidableEq κ] in
theorem targets_nodup (sorted : Sorted edges) : (edges.map OutgoingEdge.target).Nodup := by
  rw [List.Nodup, pairwise_map]
  apply sorted.imp
  intro first second less equal
  simp [equal, ReflCmp.compare_self] at less

omit [DecidableEq κ] in
theorem links (mirrored : graph.Mirrored) :
    Links graph.nodes (childrenOf graph) (parentsOf graph) := by
  constructor
  case childrenOnce => exact fun node => targets_nodup (mirrored.outSorted node)
  case parentsOnce => exact fun node => targets_nodup (mirrored.inSorted node)
  case mirror =>
    intro parent child
    rw [childrenOf, parentsOf, mem_map, mem_map]
    constructor
    · rintro ⟨edge, member, rfl⟩
      exact ⟨_, (mirrored.mirror parent edge.target edge.payload).mp member, rfl⟩
    · rintro ⟨edge, member, rfl⟩
      exact ⟨_, (mirrored.mirror edge.target child edge.payload).mpr member, rfl⟩
  case inside =>
    intro parent child edge
    rcases mem_map.mp edge with ⟨found, member, rfl⟩
    have live := mirrored.live found.target child found.payload
      ((mirrored.mirror found.target child found.payload).mpr member)
    exact ⟨mem_nodes_iff.mpr live.1, mem_nodes_iff.mpr live.2⟩

/-- The counts a state holds. -/
def countOf (state : State κ) (node : κ) : Nat := state.1.getD node 0

variable {state : State κ}

omit [LawfulEqOrd κ] [DecidableEq κ] in
/-- Releasing an edge to a node with open parents. -/
theorem relax_eq {edge : OutgoingEdge κ π} (isOpen : 0 < countOf state edge.target) :
    Topological.relax state edge =
      (state.1.insert edge.target (countOf state edge.target - 1),
        if countOf state edge.target - 1 = 0 then state.2 ++ [edge.target] else state.2) := by
  unfold Topological.relax
  rw [countOf, ExtTreeMap.getD_eq_getD_getElem?] at *
  split
  · rename_i absent
    rw [absent] at isOpen
    cases isOpen
  · rename_i zero
    rw [zero] at isOpen
    cases isOpen
  · rename_i count found
    rw [found]
    rfl

/-- Releasing edges to different nodes with open parents. -/
theorem foldl_relax (once : (edges.map OutgoingEdge.target).Nodup)
    (isOpen : ∀ edge ∈ edges, 0 < countOf state edge.target) :
    ((edges.foldl Topological.relax state).2, countOf (edges.foldl Topological.relax state)) =
      (edges.map OutgoingEdge.target).foldl release (state.2, countOf state) := by
  induction edges generalizing state with
  | nil => rfl
  | cons edge rest ih =>
    rw [map_cons, nodup_cons] at once
    rw [forall_mem_cons] at isOpen
    have counts : countOf (Topological.relax state edge) =
        Function.update (countOf state) edge.target (countOf state edge.target - 1) := by
      rw [relax_eq isOpen.1]
      exact getD_insert_eq_update _ _ _
    rw [map_cons, foldl_cons, foldl_cons, ih once.2, counts, release]
    · rw [relax_eq isOpen.1]
    intro other member
    have apart : other.target ≠ edge.target := by
      intro same
      exact once.1 (same ▸ mem_map_of_mem member)
    rw [counts, Function.update_of_ne apart]
    exact isOpen.2 other member

/-- The walk under the cursor is a visit: what is before the cursor was visited, and what is behind
it is queued. -/
theorem drain_eq_visit (mirrored : graph.Mirrored) {fuel : Nat} {walked ready : List κ}
    (isOrder : state.2 = walked ++ ready)
    (visiting : Visiting graph.nodes (parentsOf graph) walked ready (countOf state))
    (enough : walked.length + fuel = graph.nodes.length) :
    drain graph fuel walked.length state =
      visit (childrenOf graph) fuel walked ready (countOf state) := by
  induction fuel generalizing walked ready state with
  | zero =>
    have bounded := (visiting.once.subperm visiting.inside).length_le
    rw [length_append] at bounded
    have empty : ready = [] := length_eq_zero_iff.mp (by omega)
    rw [drain, visit, isOrder, empty, append_nil]
  | succ fuel ih =>
    rw [drain, isOrder, getElem?_append_right (Nat.le_refl _), Nat.sub_self]
    cases ready with
    | nil => exact append_nil walked
    | cons current ready =>
      have isOpen : ∀ edge ∈ graph.outEdges current, 0 < countOf state edge.target :=
        fun edge member => visiting.child_open (links mirrored) edge.target (mem_map_of_mem member)
      have released := foldl_relax (targets_nodup (mirrored.outSorted current)) isOpen
      have closed := @foldl_release κ _ _ ready (countOf state)
        ((links mirrored).childrenOnce current)
      rw [← childrenOf, foldl_release ((links mirrored).childrenOnce current), isOrder,
        append_assoc, cons_append] at released
      rcases Prod.mk.inj released with ⟨orderEq, countsEq⟩
      have next := visiting.step (links mirrored)
      rw [closed, ← countsEq] at next
      rw [visit, closed, ← countsEq]
      have lengthEq : walked.length + 1 = (walked ++ [current]).length := by simp
      rw [lengthEq]
      apply ih _ next (by omega)
      rw [orderEq, append_cons]

end Topological

/-- One dependency of the graph. -/
def Precedes (graph : AdjacencyGraph κ π) (source target : κ) : Prop :=
  ∃ edge ∈ graph.inEdges target, edge.target = source

variable {graph : AdjacencyGraph κ π} {order : List κ}

omit [LawfulEqOrd κ] [DecidableEq κ] in
theorem mem_parentsOf {source target : κ} :
    source ∈ parentsOf graph target ↔ Precedes graph source target :=
  mem_map

variable (mirrored : graph.Mirrored)

include mirrored

/-- What the walk lists. -/
theorem drain_spec (isOrder : order = drain graph graph.nodeCount 0 (degrees graph, seeds graph)) :
    order.Nodup ∧ (∀ node ∈ order, node ∈ graph.nodes) ∧
      (∀ before node rest, order = before ++ node :: rest →
        ∀ source, Precedes graph source node → source ∈ before) ∧
      (order.length = graph.nodeCount ↔ ∀ node, ¬Relation.TransGen (Precedes graph) node node) := by
  have counts : countOf (degrees graph, seeds graph) =
      fun node => (parentsOf graph node).length := by
    funext node
    rw [countOf, ExtTreeMap.getD_eq_getD_getElem?, degrees,
      getElem?_foldl_insert fun node => (graph.inEdges node).length]
    by_cases member : node ∈ graph.nodes
    · rw [if_pos member, parentsOf, length_map]
      rfl
    have bare : parentsOf graph node = [] := by
      rw [eq_nil_iff_forall_not_mem]
      intro parent isParent
      exact member ((links mirrored).inside parent node isParent).2
    rw [if_neg member, bare]
    simp
  have isRoots : ∀ node, node ∈ seeds graph ↔
      node ∈ graph.nodes ∧ (parentsOf graph node).length = 0 := by
    intro node
    rw [seeds, mem_filter, beq_iff_eq, ← congrFun counts node]
    rfl
  have seedsOnce : (seeds graph).Nodup := graph.nodes_nodup.filter _
  have start := Visiting.start seedsOnce isRoots
  rw [← counts] at start
  have isVisit := isOrder.trans (drain_eq_visit mirrored rfl start
    ((Nat.zero_add _).trans (length_nodes graph).symm))
  rw [← length_nodes, counts] at isVisit
  have spec := visit_spec (links mirrored) graph.nodes_nodup seedsOnce isRoots isVisit
  simp only [mem_parentsOf, length_nodes] at spec
  exact spec

/-- A linearization lists exactly the nodes, each once and after all of its
predecessors. -/
theorem topologicalOrder_sound (sorted : topologicalOrder graph = some order) :
    order.Nodup ∧ (∀ node, node ∈ order ↔ graph.containsNode node = true) ∧
      ∀ before node rest, order = before ++ node :: rest →
        ∀ source, Precedes graph source node → source ∈ before := by
  simp only [topologicalOrder, Option.ite_none_right_eq_some, Option.some.injEq] at sorted
  rcases sorted with ⟨full, rfl⟩
  rcases drain_spec mirrored rfl with ⟨nodup, inside, ordered, _⟩
  refine ⟨nodup, ?_, ordered⟩
  intro node
  rw [← mem_nodes_iff]
  refine ⟨inside node, fun member => ?_⟩
  -- A duplicate-free sublist of the nodes of the same length lists all of them.
  have perm := (nodup.subperm inside).perm_of_length_le (by rw [length_nodes, full])
  exact perm.mem_iff.mpr member

/-- A graph with a linearization has no cycle. -/
theorem acyclic_of_topologicalOrder (sorted : topologicalOrder graph = some order) (node : κ) :
    ¬Relation.TransGen (Precedes graph) node node := by
  simp only [topologicalOrder, Option.ite_none_right_eq_some, Option.some.injEq] at sorted
  rcases sorted with ⟨full, rfl⟩
  exact (drain_spec mirrored rfl).2.2.2.mp full node

/-- A graph without a cycle has a linearization. -/
theorem topologicalOrder_complete (acyclic : ∀ node, ¬Relation.TransGen (Precedes graph) node node)
    : ∃ order, topologicalOrder graph = some order :=
  ⟨_, if_pos ((drain_spec mirrored rfl).2.2.2.mpr acyclic)⟩

end Grab.Graph
