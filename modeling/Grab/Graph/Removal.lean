import Grab.Graph.Adjacency

/-!
# Removing edges and nodes

`remove_edge` and `remove_node`.  Both leave the edges that do not touch what is removed, in both
directions, so a graph that was built by any calls keeps its representation invariant.
-/

namespace Grab.Graph.AdjacencyGraph

open Std List Bool

variable {κ π : Type} [Ord κ] [TransOrd κ] [LawfulEqOrd κ] [DecidableEq κ]

/-- Erase the edge a lower bound lands on, when it is the one looked for. -/
def eraseEdge (edges : List (OutgoingEdge κ π)) (target : κ) : List (OutgoingEdge κ π) :=
  match edges.dropWhile (below target) with
  | [] => edges
  | edge :: rest => if edge.target = target then edges.takeWhile (below target) ++ rest else edges

/-- Erase an edge from the list of a node, when there is such a list. -/
def eraseFrom (far : κ) (lists : ExtTreeMap κ (List (OutgoingEdge κ π)) compare) (node : κ) :
    ExtTreeMap κ (List (OutgoingEdge κ π)) compare :=
  match lists[node]? with
  | none => lists
  | some edges => lists.insert node (eraseEdge edges far)

/-- Remove an edge; `none` when it is not present. -/
def removeEdge (graph : AdjacencyGraph κ π) (source target : κ) : Option (AdjacencyGraph κ π) :=
  match graph.outgoing[source]? with
  | none => none
  | some edges =>
    match findEdge edges target with
    | none => none
    | some _ =>
      some ⟨graph.outgoing.insert source (eraseEdge edges target),
        eraseFrom source graph.incoming target⟩

/-- Remove a node with every edge that touches it; `none` when it is not present. -/
def removeNode (graph : AdjacencyGraph κ π) (node : κ) : Option (AdjacencyGraph κ π) :=
  match graph.outgoing[node]? with
  | none => none
  | some edges =>
    let incoming := (edges.map OutgoingEdge.target).foldl (eraseFrom node) graph.incoming
    match incoming[node]? with
    | none => some ⟨graph.outgoing.erase node, incoming⟩
    | some into =>
      let outgoing := (into.map OutgoingEdge.target).foldl (eraseFrom node) graph.outgoing
      some ⟨outgoing.erase node, incoming.erase node⟩

inductive Call (κ π : Type) where
  | addNode (node : κ)
  | removeNode (node : κ)
  | addEdge (source target : κ) (payload : π)
  | removeEdge (source target : κ)

/-- A call that is refused leaves the graph as it is. -/
def perform (graph : AdjacencyGraph κ π) : Call κ π → AdjacencyGraph κ π
  | .addNode node => (graph.addNode node).getD graph
  | .removeNode node => (graph.removeNode node).getD graph
  | .addEdge source target payload => (graph.addEdge source target payload).getD graph
  | .removeEdge source target => (graph.removeEdge source target).getD graph

def run (graph : AdjacencyGraph κ π) (calls : List (Call κ π)) : AdjacencyGraph κ π :=
  calls.foldl perform graph

variable {edges : List (OutgoingEdge κ π)} {graph thin : AdjacencyGraph κ π}
  {lists : ExtTreeMap κ (List (OutgoingEdge κ π)) compare}

theorem eraseEdge_eq (sorted : Sorted edges) (target : κ) :
    eraseEdge edges target = edges.filter fun edge => edge.target ≠ target := by
  have split := takeWhile_append_dropWhile (p := below target) (l := edges)
  have absent := findEdge_eq_none_iff sorted target
  unfold findEdge at absent
  unfold eraseEdge
  have untouched : (∀ edge ∈ edges, edge.target ≠ target) →
      edges = edges.filter fun edge => edge.target ≠ target := by
    intro absent
    exact (filter_eq_self.mpr fun edge member => decide_eq_true (absent edge member)).symm
  cases rest : edges.dropWhile (below target) with
  | nil =>
    rw [rest] at absent
    exact untouched (absent.mp rfl)
  | cons first rest' =>
    rw [rest] at absent split
    dsimp only at absent ⊢
    split
    · rename_i isTarget
      have restSorted : Sorted (first :: rest') := by
        rw [← rest]
        exact sorted.sublist (dropWhile_sublist _)
      have upper : ∀ edge ∈ rest', edge.target ≠ target := by
        intro edge member equal
        have firstLt := (pairwise_cons.mp restSorted).1 edge member
        rw [isTarget, equal] at firstLt
        have same : compare target target = .eq := ReflCmp.compare_self
        cases same.symm.trans firstLt
      rw [← split, filter_append, filter_cons_of_neg (by simpa using isTarget),
        filter_eq_self.mpr fun edge member => decide_eq_true (ne_of_mem_takeWhile member),
        filter_eq_self.mpr fun edge member => decide_eq_true (upper edge member), split]
    · rename_i different
      exact untouched (absent.mp (if_neg different))

theorem getD_eraseFrom {node far : κ} (sorted : Sorted (lists.getD node [])) (other : κ) :
    (eraseFrom far lists node).getD other [] =
      if other = node then (lists.getD other []).filter fun edge => edge.target ≠ far
      else lists.getD other [] := by
  rw [ExtTreeMap.getD_eq_getD_getElem?] at sorted
  cases found : lists[node]? with
  | none =>
    rw [eraseFrom, found]
    dsimp only
    split
    · rename_i same
      rw [same, ExtTreeMap.getD_eq_getD_getElem?, found]
      rfl
    · rfl
  | some edges =>
    rw [found] at sorted
    rw [eraseFrom, found]
    by_cases same : other = node
    · have erased := eraseEdge_eq sorted far
      rw [if_pos same, same, ExtTreeMap.getD_insert_self, ExtTreeMap.getD_eq_getD_getElem?, found]
      exact erased
    · simp [ExtTreeMap.getD_insert, same, Ne.symm same]

/-- Erasing the edges to a node from every list that has one. -/
theorem getD_foldl_eraseFrom {far : κ} (sorted : ∀ node, Sorted (lists.getD node []))
    {nodes : List κ} (every : ∀ node, ∀ edge ∈ lists.getD node [], edge.target = far → node ∈ nodes)
    (node : κ) : (nodes.foldl (eraseFrom far) lists).getD node [] =
      (lists.getD node []).filter fun edge => edge.target ≠ far := by
  induction nodes generalizing lists with
  | nil =>
    have kept : ∀ edge ∈ lists.getD node [], edge.target ≠ far :=
      fun edge member isFar => not_mem_nil (every node edge member isFar)
    exact (filter_eq_self.mpr fun edge member => decide_eq_true (kept edge member)).symm
  | cons first rest later =>
    have erased := @getD_eraseFrom _ _ _ _ _ _ lists first far (sorted first)
    rw [foldl_cons, later, erased]
    · split
      · rw [filter_filter]
        simp only [Bool.and_self]
      · rfl
    · intro node
      rw [erased]
      split
      · exact (sorted node).filter _
      · exact sorted node
    intro node edge member isFar
    rw [erased] at member
    split at member
    · exact absurd isFar (of_decide_eq_true (mem_filter.mp member).2)
    · rename_i different
      exact (mem_cons.mp (every node edge member isFar)).resolve_left different

omit [LawfulEqOrd κ] in
theorem contains_foldl_eraseFrom {far node : κ} (nodes : List κ)
    (present : lists.contains node = true) :
    (nodes.foldl (eraseFrom far) lists).contains node = true := by
  induction nodes generalizing lists with
  | nil => exact present
  | cons first rest later =>
    apply later
    unfold eraseFrom
    split
    · exact present
    · rw [ExtTreeMap.contains_insert, present, Bool.or_true]

variable (mirrored : graph.Mirrored)

include mirrored

omit [LawfulEqOrd κ] [DecidableEq κ] in
/-- A part of a graph that keeps an edge by its endpoints, and the endpoints it keeps. -/
theorem Mirrored.part {keep : κ → κ → Bool} (out : ∀ node, thin.outEdges node =
      (graph.outEdges node).filter fun edge => keep node edge.target)
    (into : ∀ node, thin.inEdges node =
      (graph.inEdges node).filter fun edge => keep edge.target node)
    (live : ∀ source target, keep source target = true → graph.containsNode source = true →
      graph.containsNode target = true →
      thin.containsNode source = true ∧ thin.containsNode target = true) : thin.Mirrored := by
  constructor
  case outSorted =>
    intro node
    rw [out]
    exact (mirrored.outSorted node).filter _
  case inSorted =>
    intro node
    rw [into]
    exact (mirrored.inSorted node).filter _
  case mirror =>
    intro source target payload
    rw [out, into, mem_filter, mem_filter, mirrored.mirror]
  case noLoop =>
    intro source payload member
    rw [out] at member
    exact mirrored.noLoop source payload (mem_filter.mp member).1
  case live =>
    intro source target payload member
    rw [out] at member
    rcases mem_filter.mp member with ⟨old, kept⟩
    rcases mirrored.live source target payload old with ⟨sourceLive, targetLive⟩
    exact live source target kept sourceLive targetLive

theorem Mirrored.removeEdge {source target : κ}
    (removed : graph.removeEdge source target = some thin) : thin.Mirrored := by
  unfold AdjacencyGraph.removeEdge at removed
  split at removed
  · cases removed
  rename_i edges found
  split at removed
  · cases removed
  cases removed
  have same : graph.outgoing.insert source (eraseEdge edges target) =
      eraseFrom target graph.outgoing source := by
    rw [eraseFrom, found]
  apply @Mirrored.part _ _ _ _ _ _ mirrored fun near far => !(near = source && far = target)
  case out =>
    intro node
    change (graph.outgoing.insert source _).getD node [] = _
    rw [same, getD_eraseFrom (mirrored.outSorted source)]
    by_cases here : node = source
    · simp [here, outEdges]
    · simp [here, outEdges]
  case into =>
    intro node
    change (eraseFrom source graph.incoming target).getD node [] = _
    rw [getD_eraseFrom (mirrored.inSorted target)]
    by_cases here : node = target
    · simp [here, inEdges]
    · simp [here, inEdges]
  case live =>
    intro near far _ nearLive farLive
    simp only [containsNode, ExtTreeMap.contains_insert, or_eq_true] at *
    exact ⟨.inr nearLive, .inr farLive⟩

theorem Mirrored.removeNode {node : κ} (removed : graph.removeNode node = some thin) :
    thin.Mirrored := by
  unfold AdjacencyGraph.removeNode at removed
  split at removed
  · cases removed
  rename_i edges found
  have outEq : graph.outEdges node = edges := by
    rw [outEdges, ExtTreeMap.getD_eq_getD_getElem?, found]
    rfl
  dsimp only at removed
  have incoming := @getD_foldl_eraseFrom _ _ _ _ _ _ graph.incoming node mirrored.inSorted
    (edges.map OutgoingEdge.target) (by
      rintro other ⟨_, payload⟩ member rfl
      have mirrorMember := (mirrored.mirror _ other payload).mpr member
      rw [outEq] at mirrorMember
      exact mem_map_of_mem mirrorMember)
  generalize (edges.map OutgoingEdge.target).foldl (eraseFrom node) graph.incoming = lists
    at removed incoming
  have outgoing := @getD_foldl_eraseFrom _ _ _ _ _ _ graph.outgoing node mirrored.outSorted
    ((lists.getD node []).map OutgoingEdge.target) (by
      rintro other ⟨_, payload⟩ member rfl
      have mirrorMember := (mirrored.mirror other _ payload).mp member
      rw [incoming]
      refine mem_map_of_mem (mem_filter.mpr ⟨mirrorMember, decide_eq_true ?_⟩)
      rintro rfl
      exact mirrored.noLoop _ payload member)
  have shape : thin.outgoing = (((lists.getD node []).map OutgoingEdge.target).foldl
        (eraseFrom node) graph.outgoing).erase node ∧
      ∀ other, thin.inEdges other = if other = node then [] else lists.getD other [] := by
    rw [ExtTreeMap.getD_eq_getD_getElem?]
    split at removed
    · rename_i nothing
      cases removed
      rw [nothing]
      refine ⟨rfl, fun other => ?_⟩
      split
      · rename_i same
        rw [same, inEdges, ExtTreeMap.getD_eq_getD_getElem?, nothing]
        rfl
      · rfl
    · rename_i into isInto
      cases removed
      rw [isInto]
      refine ⟨rfl, fun other => ?_⟩
      by_cases same : other = node
      · simp [inEdges, same]
      · simp [inEdges, ExtTreeMap.getD_erase, same, Ne.symm same]
  apply @Mirrored.part _ _ _ _ _ _ mirrored fun near far => near ≠ node && far ≠ node
  case out =>
    intro other
    rw [outEdges, shape.1, ExtTreeMap.getD_erase, outgoing]
    by_cases same : other = node
    · simp [same]
    · simp [same, Ne.symm same, outEdges]
  case into =>
    intro other
    rw [shape.2, incoming]
    by_cases same : other = node
    · simp [same]
    · simp [same, inEdges]
  case live =>
    intro near far kept nearLive farLive
    have still : ∀ other, other ≠ node → graph.containsNode other = true →
        thin.containsNode other = true := by
      intro other different live
      rw [containsNode, shape.1, ExtTreeMap.contains_erase, contains_foldl_eraseFrom _ live]
      simp [Ne.symm different]
    simp only [ne_eq, and_eq_true, decide_eq_true_eq] at kept
    exact ⟨still near kept.1 nearLive, still far kept.2 farLive⟩

theorem Mirrored.perform (call : Call κ π) : (graph.perform call).Mirrored := by
  have kept : ∀ result : Option (AdjacencyGraph κ π),
      (∀ next, result = some next → next.Mirrored) → (result.getD graph).Mirrored := by
    intro result accepted
    cases result with
    | none => exact mirrored
    | some next => exact accepted next rfl
  cases call with
  | addNode node => exact kept _ fun _ => mirrored.addNode
  | removeNode node => exact kept _ fun _ => mirrored.removeNode
  | addEdge source target payload => exact kept _ fun _ => mirrored.addEdge
  | removeEdge source target => exact kept _ fun _ => mirrored.removeEdge

omit mirrored

/-- Whatever calls were made, accepted or refused. -/
theorem run_mirrored (calls : List (Call κ π)) :
    (run ({} : AdjacencyGraph κ π) calls).Mirrored := by
  have kept : ∀ graph : AdjacencyGraph κ π, graph.Mirrored → (run graph calls).Mirrored := by
    induction calls with
    | nil => exact fun _ mirrored => mirrored
    | cons call rest later => exact fun graph mirrored => later _ (mirrored.perform call)
  exact kept _ mirrored_empty

theorem run_mirrored_numbers :
    (run ({} : AdjacencyGraph Nat Bool) [.addNode 1, .addNode 2, .addEdge 1 2 true,
      .addEdge 2 1 false, .removeEdge 1 2, .addEdge 1 1 true, .removeNode 2]).Mirrored :=
  run_mirrored _

end Grab.Graph.AdjacencyGraph
