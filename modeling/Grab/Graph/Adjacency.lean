import Mathlib.Data.List.Basic
import Mathlib.Data.List.TakeWhile
import Std.Data.ExtTreeMap

/-!
# Sorted adjacency lists

A directed graph keyed by the caller's own ids.  The forward and the reverse
adjacency list of every node are kept, each sorted by the far endpoint, so that
a lookup is a binary search and two graphs compare by a merge.

`Mirrored` is the representation invariant: lists are strictly sorted, the
reverse lists are the mirror image of the forward ones including payloads, no
edge is a loop and every endpoint is a live node.
-/

namespace Grab.Graph

open Std List Option

/-- One outgoing edge: who it points at, and the payload carried on it. -/
structure OutgoingEdge (κ π : Type) where
  target : κ
  payload : π
  deriving DecidableEq, Repr

structure AdjacencyGraph (κ π : Type) [Ord κ] [TransOrd κ] where
  outgoing : ExtTreeMap κ (List (OutgoingEdge κ π)) compare := ∅
  incoming : ExtTreeMap κ (List (OutgoingEdge κ π)) compare := ∅

namespace AdjacencyGraph

variable {κ π : Type} [Ord κ] [TransOrd κ] [LawfulEqOrd κ] [DecidableEq κ]

/-- Edges below a target, the part of a list a lower bound skips. -/
def below (target : κ) (edge : OutgoingEdge κ π) : Bool := compare edge.target target == .lt

/-- The edge a lower bound lands on, when it is the one looked for. -/
def findEdge (edges : List (OutgoingEdge κ π)) (target : κ) : Option (OutgoingEdge κ π) :=
  match edges.dropWhile (below target) with
  | [] => none
  | edge :: _ => if edge.target = target then some edge else none

/-- Insert in front of the lower bound of the edge's target. -/
def insertSorted (edges : List (OutgoingEdge κ π)) (edge : OutgoingEdge κ π) :
    List (OutgoingEdge κ π) :=
  edges.takeWhile (below edge.target) ++ edge :: edges.dropWhile (below edge.target)

def outEdges (graph : AdjacencyGraph κ π) (node : κ) : List (OutgoingEdge κ π) :=
  graph.outgoing.getD node []

/-- Edges arriving at `node`; each entry's `target` is where the edge comes
from. -/
def inEdges (graph : AdjacencyGraph κ π) (node : κ) : List (OutgoingEdge κ π) :=
  graph.incoming.getD node []

def containsNode (graph : AdjacencyGraph κ π) (node : κ) : Bool := graph.outgoing.contains node

/-- The payload of an edge, when it is present. -/
def edgePayload (graph : AdjacencyGraph κ π) (source target : κ) : Option π :=
  match graph.outgoing[source]? with
  | none => none
  | some edges => (findEdge edges target).map OutgoingEdge.payload

/-- Every node, ascending. -/
def nodes (graph : AdjacencyGraph κ π) : List κ := graph.outgoing.keys

def nodeCount (graph : AdjacencyGraph κ π) : Nat := graph.outgoing.size

/-- Add a node; `none` when it is already present. -/
def addNode (graph : AdjacencyGraph κ π) (node : κ) : Option (AdjacencyGraph κ π) :=
  if graph.outgoing.contains node then none
  else some ⟨graph.outgoing.insert node [], graph.incoming.insert node []⟩

/-- Add an edge; `none` when it is a loop, an endpoint is absent or the edge is
already there. -/
def addEdge (graph : AdjacencyGraph κ π) (source target : κ) (payload : π) :
    Option (AdjacencyGraph κ π) :=
  if source = target then none
  else
    match graph.outgoing[source]? with
    | none => none
    | some edges =>
      if graph.outgoing.contains target then
        match findEdge edges target with
        | some _ => none
        | none =>
          some
            ⟨graph.outgoing.insert source (insertSorted edges ⟨target, payload⟩),
              graph.incoming.insert target (insertSorted (graph.inEdges target) ⟨source, payload⟩)⟩
      else none

/-! ## Sorted lists -/

/-- Strictly ascending targets. -/
def Sorted (edges : List (OutgoingEdge κ π)) : Prop :=
  edges.Pairwise fun first second => compare first.target second.target = .lt

variable {edges : List (OutgoingEdge κ π)} {edge : OutgoingEdge κ π} {graph : AdjacencyGraph κ π}
  {target : κ}

omit [TransOrd κ] [LawfulEqOrd κ] [DecidableEq κ] in
theorem mem_insertSorted_iff {edge other : OutgoingEdge κ π} :
    other ∈ insertSorted edges edge ↔ other = edge ∨ other ∈ edges := by
  have split := takeWhile_append_dropWhile (p := below edge.target) (l := edges)
  conv_rhs => rw [← split]
  simp only [insertSorted, mem_append, mem_cons]
  tauto

omit [LawfulEqOrd κ] [DecidableEq κ] in
/-- Everything a lower bound leaves is at or above the target. -/
theorem not_below_of_mem_dropWhile (sorted : Sorted edges)
    (member : edge ∈ edges.dropWhile (below target)) : below target edge = false := by
  induction edges with
  | nil => simp at member
  | cons first rest ih =>
    obtain ⟨firstLt, restSorted⟩ := pairwise_cons.mp sorted
    by_cases firstBelow : below target first = true
    · rw [dropWhile_cons_of_pos firstBelow] at member
      exact ih restSorted member
    rw [dropWhile_cons_of_neg firstBelow] at member
    rcases mem_cons.mp member with rfl | inRest
    · simpa using firstBelow
    by_contra edgeBelow
    apply firstBelow
    simp only [below, beq_iff_eq, Bool.not_eq_false] at edgeBelow ⊢
    exact TransCmp.lt_trans (firstLt edge inRest) edgeBelow

omit [LawfulEqOrd κ] [DecidableEq κ] in
theorem ne_of_mem_takeWhile (member : edge ∈ edges.takeWhile (below target)) :
    edge.target ≠ target := by
  intro equal
  have isBelow := mem_takeWhile_imp member
  simp [below, equal, ReflCmp.compare_self] at isBelow

omit [LawfulEqOrd κ] in
theorem findEdge_eq_none_iff (sorted : Sorted edges) (target : κ) :
    findEdge edges target = none ↔ ∀ edge ∈ edges, edge.target ≠ target := by
  have split := takeWhile_append_dropWhile (p := below target) (l := edges)
  constructor
  · intro absent edge member equal
    rw [← split, mem_append] at member
    rcases member with inLower | inUpper
    · exact ne_of_mem_takeWhile inLower equal
    unfold findEdge at absent
    cases rest : edges.dropWhile (below target) with
    | nil => simp [rest] at inUpper
    | cons first rest' =>
      rw [rest] at absent inUpper
      have firstNe : first.target ≠ target := by
        intro firstEq
        simp [firstEq] at absent
      have restSorted : Sorted (first :: rest') := by
        rw [← rest]
        exact sorted.sublist (dropWhile_sublist _)
      rcases mem_cons.mp inUpper with rfl | inRest
      · exact firstNe equal
      -- The first edge left is neither below the target nor at it, yet below the edge.
      have firstLt := (pairwise_cons.mp restSorted).1 edge inRest
      rw [equal] at firstLt
      have firstMem : first ∈ edges.dropWhile (below target) := by
        rw [rest]
        exact mem_cons_self
      have notBelow := not_below_of_mem_dropWhile sorted firstMem
      simp [below, firstLt] at notBelow
  · intro absent
    unfold findEdge
    cases rest : edges.dropWhile (below target) with
    | nil => rfl
    | cons first rest' =>
      have member : first ∈ edges := by
        rw [← split, rest]
        simp
      simp [absent first member]

omit [LawfulEqOrd κ] [TransOrd κ] in
theorem findEdge_eq_some (found : findEdge edges target = some edge) :
    edge ∈ edges ∧ edge.target = target := by
  unfold findEdge at found
  split at found
  · cases found
  rename_i first rest split
  rw [ite_none_right_eq_some, some.injEq] at found
  obtain ⟨isTarget, rfl⟩ := found
  have kept : first ∈ edges.dropWhile (below target) := by
    rw [split]
    exact mem_cons_self
  exact ⟨(dropWhile_sublist _).subset kept, isTarget⟩

omit [LawfulEqOrd κ] [DecidableEq κ] in
/-- A sorted list has one edge for each target. -/
theorem sorted_unique (sorted : Sorted edges) {first second : OutgoingEdge κ π}
    (firstMem : first ∈ edges) (secondMem : second ∈ edges) (same : first.target = second.target) :
    first = second := by
  induction edges with
  | nil => cases firstMem
  | cons edge rest ih =>
    obtain ⟨headLt, restSorted⟩ := pairwise_cons.mp sorted
    have apart : ∀ other ∈ rest, edge.target ≠ other.target := by
      intro other member equal
      have less := headLt other member
      rw [equal] at less
      have same : compare other.target other.target = .eq := ReflCmp.compare_self
      cases same.symm.trans less
    rcases mem_cons.mp firstMem with rfl | firstRest
    · rcases mem_cons.mp secondMem with rfl | secondRest
      · rfl
      · exact absurd same (apart second secondRest)
    · rcases mem_cons.mp secondMem with rfl | secondRest
      · exact absurd same.symm (apart first firstRest)
      · exact ih restSorted firstRest secondRest

omit [DecidableEq κ] in
theorem insertSorted_sorted (sorted : Sorted edges)
    (absent : ∀ other ∈ edges, other.target ≠ edge.target) : Sorted (insertSorted edges edge) := by
  have split := takeWhile_append_dropWhile (p := below edge.target) (l := edges)
  have parts : Sorted (edges.takeWhile (below edge.target) ++
      edges.dropWhile (below edge.target)) := by rwa [split]
  obtain ⟨lowerSorted, upperSorted, across⟩ := pairwise_append.mp parts
  have lower : ∀ other ∈ edges.takeWhile (below edge.target),
      compare other.target edge.target = .lt := by
    intro other member
    simpa [below] using mem_takeWhile_imp member
  have upper : ∀ other ∈ edges.dropWhile (below edge.target),
      compare edge.target other.target = .lt := by
    intro other member
    have notBelow := not_below_of_mem_dropWhile sorted member
    have different := absent other ((dropWhile_sublist _).subset member)
    have notEq : compare other.target edge.target ≠ .eq := fun equal =>
      different (LawfulEqCmp.eq_of_compare equal)
    cases order : compare other.target edge.target with
    | lt => simp [below, order] at notBelow
    | eq => exact absurd order notEq
    | gt => exact OrientedCmp.gt_iff_lt.mp order
  rw [Sorted, insertSorted, pairwise_append]
  refine ⟨lowerSorted, pairwise_cons.mpr ⟨upper, upperSorted⟩, ?_⟩
  intro first firstMem second secondMem
  rcases mem_cons.mp secondMem with rfl | inUpper
  · exact lower first firstMem
  · exact across first firstMem second inUpper

/-! ## The representation invariant -/

/-- Sorted lists, reverse lists mirroring the forward ones, no loops, live
endpoints. -/
structure Mirrored (graph : AdjacencyGraph κ π) : Prop where
  outSorted : ∀ node, Sorted (graph.outEdges node)
  inSorted : ∀ node, Sorted (graph.inEdges node)
  mirror : ∀ source target payload,
    ⟨target, payload⟩ ∈ graph.outEdges source ↔ ⟨source, payload⟩ ∈ graph.inEdges target
  noLoop : ∀ source payload, ⟨source, payload⟩ ∉ graph.outEdges source
  live : ∀ source target payload, ⟨target, payload⟩ ∈ graph.outEdges source →
    graph.containsNode source = true ∧ graph.containsNode target = true

omit [LawfulEqOrd κ] [DecidableEq κ] in
theorem mirrored_empty : Mirrored ({} : AdjacencyGraph κ π) where
  outSorted node := by simp [outEdges, Sorted]
  inSorted node := by simp [inEdges, Sorted]
  mirror source target payload := by simp [outEdges, inEdges]
  noLoop source payload := by simp [outEdges]
  live source target payload := by simp [outEdges]

omit [DecidableEq κ] in
theorem mem_nodes_iff {node : κ} : node ∈ graph.nodes ↔ graph.containsNode node = true := by
  rw [nodes, containsNode, ExtTreeMap.mem_keys, ExtTreeMap.contains_iff_mem]

omit [LawfulEqOrd κ] [DecidableEq κ] in
theorem length_nodes (graph : AdjacencyGraph κ π) : graph.nodes.length = graph.nodeCount :=
  ExtTreeMap.length_keys

omit [DecidableEq κ] in
theorem nodes_nodup (graph : AdjacencyGraph κ π) : graph.nodes.Nodup := by
  have ordered := @ExtTreeMap.ordered_keys _ _ _ graph.outgoing _
  refine ordered.imp ?_
  intro first second less equal
  subst second
  simp [ReflCmp.compare_self] at less

omit [LawfulEqOrd κ] in
theorem edgePayload_eq_some_iff (mirrored : graph.Mirrored) {source target : κ} {payload : π} :
    graph.edgePayload source target = some payload ↔ ⟨target, payload⟩ ∈ graph.outEdges source := by
  have payloadEq : graph.edgePayload source target =
      (findEdge (graph.outEdges source) target).map OutgoingEdge.payload := by
    rw [edgePayload, outEdges, ExtTreeMap.getD_eq_getD_getElem?]
    cases graph.outgoing[source]? <;> rfl
  have sorted := mirrored.outSorted source
  rw [payloadEq]
  cases found : findEdge (graph.outEdges source) target with
  | none =>
    have absent := (findEdge_eq_none_iff sorted target).mp found
    simp only [map_none, reduceCtorEq, false_iff]
    exact fun member => absent _ member rfl
  | some edge =>
    obtain ⟨member, rfl⟩ := findEdge_eq_some found
    simp only [map_some, some.injEq]
    constructor
    · rintro rfl
      exact member
    · intro other
      exact congrArg OutgoingEdge.payload (sorted_unique sorted member other rfl)

section AddNode

variable {grown : AdjacencyGraph κ π} {node : κ}

omit [DecidableEq κ] in
theorem containsNode_addNode (added : graph.addNode node = some grown) (other : κ) :
    grown.containsNode other = true ↔ other = node ∨ graph.containsNode other = true := by
  simp only [addNode, ite_none_left_eq_some, some.injEq] at added
  obtain ⟨_, rfl⟩ := added
  simp only [containsNode, ExtTreeMap.contains_insert, Bool.or_eq_true, beq_iff_eq,
    LawfulEqCmp.compare_eq_iff_eq]
  tauto

omit [LawfulEqOrd κ] [DecidableEq κ] in
theorem nodeCount_addNode (added : graph.addNode node = some grown) :
    grown.nodeCount = graph.nodeCount + 1 := by
  simp only [addNode, ite_none_left_eq_some, some.injEq] at added
  rcases added with ⟨absent, rfl⟩
  rw [nodeCount, ExtTreeMap.size_insert, if_neg (by simpa using absent), nodeCount]

omit [DecidableEq κ] in
theorem edges_addNode (mirrored : graph.Mirrored) (added : graph.addNode node = some grown)
    (other : κ) :
    grown.outEdges other = graph.outEdges other ∧ grown.inEdges other = graph.inEdges other := by
  simp only [addNode, ite_none_left_eq_some, some.injEq] at added
  obtain ⟨absent, rfl⟩ := added
  have outNil : graph.outEdges node = [] := by
    rw [eq_nil_iff_forall_not_mem]
    intro edge member
    exact absent (mirrored.live node edge.target edge.payload member).1
  have inNil : graph.inEdges node = [] := by
    rw [eq_nil_iff_forall_not_mem]
    intro edge member
    exact absent (mirrored.live edge.target node edge.payload
      ((mirrored.mirror edge.target node edge.payload).mpr member)).2
  by_cases same : node = other
  · subst other
    simp [outEdges, inEdges] at outNil inNil ⊢
    exact ⟨outNil, inNil⟩
  · simp [outEdges, inEdges, ExtTreeMap.getD_insert, same]

omit [DecidableEq κ] in
theorem Mirrored.addNode (mirrored : graph.Mirrored)
    (added : graph.addNode node = some grown) : grown.Mirrored := by
  have edges := edges_addNode mirrored added
  refine ⟨?_, ?_, ?_, ?_, ?_⟩
  · intro other
    rw [(edges other).1]
    exact mirrored.outSorted other
  · intro other
    rw [(edges other).2]
    exact mirrored.inSorted other
  · intro source target payload
    rw [(edges source).1, (edges target).2]
    exact mirrored.mirror source target payload
  · intro source payload
    rw [(edges source).1]
    exact mirrored.noLoop source payload
  intro source target payload member
  rw [(edges source).1] at member
  obtain ⟨sourceLive, targetLive⟩ := mirrored.live source target payload member
  rw [containsNode_addNode added, containsNode_addNode added]
  exact ⟨.inr sourceLive, .inr targetLive⟩

end AddNode

section AddEdge

variable {grown : AdjacencyGraph κ π} {source : κ} {payload : π}
  (added : graph.addEdge source target payload = some grown)

include added

omit [LawfulEqOrd κ] in
/-- What a successful insertion checked and what it did. -/
theorem addEdge_eq_some :
    source ≠ target ∧ graph.containsNode source = true ∧
      graph.containsNode target = true ∧
      findEdge (graph.outEdges source) target = none ∧
      grown =
        ⟨graph.outgoing.insert source (insertSorted (graph.outEdges source) ⟨target, payload⟩),
          graph.incoming.insert target
            (insertSorted (graph.inEdges target) ⟨source, payload⟩)⟩ := by
  unfold addEdge at added
  split at added
  · simp at added
  rename_i different
  split at added
  · simp at added
  rename_i edges found
  have outEq : graph.outEdges source = edges := by
    simp [outEdges, ExtTreeMap.getD_eq_getD_getElem?, found]
  have sourceLive : graph.containsNode source = true := by
    rw [containsNode, ExtTreeMap.contains_eq_isSome_getElem?, found]
    rfl
  split at added
  · rename_i targetLive
    split at added
    · simp at added
    · rename_i absent
      rw [outEq]
      exact ⟨different, sourceLive, targetLive, absent, (some.inj added).symm⟩
  · simp at added

theorem mem_outEdges_addEdge (node : κ) (edge : OutgoingEdge κ π) :
    edge ∈ grown.outEdges node ↔
      (node = source ∧ edge = ⟨target, payload⟩) ∨ edge ∈ graph.outEdges node := by
  obtain ⟨_, _, _, _, rfl⟩ := addEdge_eq_some added
  by_cases same : source = node
  · subst node
    simp [outEdges, mem_insertSorted_iff]
  · simp [outEdges, ExtTreeMap.getD_insert, same, Ne.symm same]

theorem mem_inEdges_addEdge (node : κ) (edge : OutgoingEdge κ π) :
    edge ∈ grown.inEdges node ↔
      (node = target ∧ edge = ⟨source, payload⟩) ∨ edge ∈ graph.inEdges node := by
  obtain ⟨_, _, _, _, rfl⟩ := addEdge_eq_some added
  by_cases same : target = node
  · subst node
    simp [inEdges, mem_insertSorted_iff]
  · simp [inEdges, ExtTreeMap.getD_insert, same, Ne.symm same]

theorem containsNode_addEdge (node : κ) :
    grown.containsNode node = true ↔ graph.containsNode node = true := by
  obtain ⟨_, sourceLive, _, _, rfl⟩ := addEdge_eq_some added
  simp only [containsNode, ExtTreeMap.contains_insert, Bool.or_eq_true, beq_iff_eq,
    LawfulEqCmp.compare_eq_iff_eq]
  constructor
  · rintro (rfl | live)
    · exact sourceLive
    · exact live
  · exact .inr

omit [LawfulEqOrd κ] in
theorem nodeCount_addEdge : grown.nodeCount = graph.nodeCount := by
  rcases addEdge_eq_some added with ⟨_, sourceLive, _, _, rfl⟩
  rw [nodeCount, ExtTreeMap.size_insert, if_pos (by simpa [containsNode] using sourceLive),
    nodeCount]

omit added

theorem Mirrored.addEdge (mirrored : graph.Mirrored)
    (added : graph.addEdge source target payload = some grown) : grown.Mirrored := by
  obtain ⟨different, sourceLive, targetLive, absent, grownEq⟩ := addEdge_eq_some added
  rw [findEdge_eq_none_iff (mirrored.outSorted source)] at absent
  have absentIn : ∀ other ∈ graph.inEdges target, other.target ≠ source := by
    rintro ⟨far, farPayload⟩ member rfl
    exact absent ⟨target, farPayload⟩ ((mirrored.mirror far target farPayload).mpr member) rfl
  refine ⟨?_, ?_, ?_, ?_, ?_⟩
  · intro node
    by_cases same : source = node
    · subst node
      have outEq : grown.outEdges source =
          insertSorted (graph.outEdges source) ⟨target, payload⟩ := by
        simp [grownEq, outEdges]
      rw [outEq]
      exact insertSorted_sorted (mirrored.outSorted source) absent
    have outEq : grown.outEdges node = graph.outEdges node := by
      simp [grownEq, outEdges, ExtTreeMap.getD_insert, same]
    rw [outEq]
    exact mirrored.outSorted node
  · intro node
    by_cases same : target = node
    · subst node
      have inEq : grown.inEdges target = insertSorted (graph.inEdges target) ⟨source, payload⟩ := by
        simp [grownEq, inEdges]
      rw [inEq]
      exact insertSorted_sorted (mirrored.inSorted target) absentIn
    have inEq : grown.inEdges node = graph.inEdges node := by
      simp [grownEq, inEdges, ExtTreeMap.getD_insert, same]
    rw [inEq]
    exact mirrored.inSorted node
  · intro near far carried
    rw [mem_outEdges_addEdge added, mem_inEdges_addEdge added, mirrored.mirror]
    simp only [OutgoingEdge.mk.injEq]
    tauto
  · intro node carried member
    rw [mem_outEdges_addEdge added] at member
    rcases member with ⟨rfl, equal⟩ | old
    · exact different (congrArg OutgoingEdge.target equal)
    · exact mirrored.noLoop node carried old
  · intro near far carried member
    rw [containsNode_addEdge added, containsNode_addEdge added]
    rw [mem_outEdges_addEdge added] at member
    rcases member with ⟨rfl, equal⟩ | old
    · obtain rfl : far = target := congrArg OutgoingEdge.target equal
      exact ⟨sourceLive, targetLive⟩
    · exact mirrored.live near far carried old

end AddEdge

end AdjacencyGraph

end Grab.Graph
