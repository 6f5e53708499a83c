import Grab.Graph.Adjacency
import Grab.Lib.Merge

/-!
# What changed between two graphs

The node sets and every pair of adjacency lists are ascending, so two graphs
compare by walking them side by side.  `graphDifference_spec` says what ends up
in each part of the delta, and that nothing ends up in it twice.
-/

namespace Grab.Graph

open Std Grab.Lib AdjacencyGraph List

structure GraphDelta (κ : Type) where
  addedNodes : List κ := []
  removedNodes : List κ := []
  addedEdges : List (κ × κ) := []
  removedEdges : List (κ × κ) := []
  /-- Present on both sides, but carrying a different payload. -/
  changedEdges : List (κ × κ) := []
  deriving DecidableEq

/-- Everything a later part of a walk found, behind what an earlier part did. -/
def GraphDelta.append {κ : Type} (first second : GraphDelta κ) : GraphDelta κ where
  addedNodes := first.addedNodes ++ second.addedNodes
  removedNodes := first.removedNodes ++ second.removedNodes
  addedEdges := first.addedEdges ++ second.addedEdges
  removedEdges := first.removedEdges ++ second.removedEdges
  changedEdges := first.changedEdges ++ second.changedEdges

section

variable {κ π : Type} [Ord κ] [TransOrd κ] [DecidableEq π]

/-- What one meeting of two edge lists adds to the delta. -/
def edgeChange (source : κ) : Merge.Side (OutgoingEdge κ π) (OutgoingEdge κ π) → GraphDelta κ
  | .left edge => { removedEdges := [(source, edge.target)] }
  | .right edge => { addedEdges := [(source, edge.target)] }
  | .both before after =>
    if before.payload = after.payload then {}
    else { changedEdges := [(source, after.target)] }

/-- Merge one node's two adjacency lists, both ascending by target. -/
def mergeEdgeLists (source : κ) (before after : List (OutgoingEdge κ π)) : GraphDelta κ :=
  (Merge.walk OutgoingEdge.target OutgoingEdge.target before after).foldl
    (fun delta side => delta.append (edgeChange source side)) {}

/-- What one meeting of the node sets adds to the delta. -/
def nodeChange (before after : AdjacencyGraph κ π) : Merge.Side κ κ → GraphDelta κ
  | .left node =>
    ({ removedNodes := [node] } : GraphDelta κ).append
      (mergeEdgeLists node (before.outEdges node) [])
  | .right node =>
    ({ addedNodes := [node] } : GraphDelta κ).append (mergeEdgeLists node [] (after.outEdges node))
  | .both node other => mergeEdgeLists node (before.outEdges node) (after.outEdges other)

def graphDifference (before after : AdjacencyGraph κ π) : GraphDelta κ :=
  (Merge.walk id id before.nodes after.nodes).foldl
    (fun delta side => delta.append (nodeChange before after side)) {}

/-- A part of a delta that is built up by appending. -/
structure IsPart {κ γ : Type} (part : GraphDelta κ → List γ) : Prop where
  empty : part {} = []
  append : ∀ first second, part (first.append second) = part first ++ part second

omit [Ord κ] [TransOrd κ] in
/-- A part of the delta of a walk is what its sides contribute, in order. -/
theorem part_foldl {γ ψ : Type} {part : GraphDelta κ → List γ} (isPart : IsPart part)
    (change : ψ → GraphDelta κ) (sides : List ψ) :
    part (sides.foldl (fun delta side => delta.append (change side)) {}) =
      sides.flatMap fun side => part (change side) := by
  have general : ∀ delta, part (sides.foldl (fun delta side => delta.append (change side))
      delta) = part delta ++ sides.flatMap fun side => part (change side) := by
    induction sides with
    | nil => simp
    | cons side rest ih =>
      intro delta
      rw [foldl_cons, ih, isPart.append, flatMap_cons, append_assoc]
  rw [general, isPart.empty, nil_append]

theorem isParts (κ : Type) : IsPart (GraphDelta.addedNodes : GraphDelta κ → _) ∧
    IsPart (GraphDelta.removedNodes : GraphDelta κ → _) ∧
    IsPart (GraphDelta.addedEdges : GraphDelta κ → _) ∧
    IsPart (GraphDelta.removedEdges : GraphDelta κ → _) ∧
    IsPart (GraphDelta.changedEdges : GraphDelta κ → _) :=
  ⟨⟨rfl, fun _ _ => rfl⟩, ⟨rfl, fun _ _ => rfl⟩, ⟨rfl, fun _ _ => rfl⟩,
    ⟨rfl, fun _ _ => rfl⟩, ⟨rfl, fun _ _ => rfl⟩⟩

/-! ## One node's edges -/

/-- The three ways two edge lists can differ at a target. -/
structure EdgeDifference (source : κ) (before after : List (OutgoingEdge κ π))
    (delta : GraphDelta κ) : Prop where
  quiet : delta.addedNodes = [] ∧ delta.removedNodes = []
  added : ∀ edge, edge ∈ delta.addedEdges ↔ edge.1 = source ∧
    (∃ payload, ⟨edge.2, payload⟩ ∈ after) ∧ ∀ payload, ⟨edge.2, payload⟩ ∉ before
  removed : ∀ edge, edge ∈ delta.removedEdges ↔ edge.1 = source ∧
    (∃ payload, ⟨edge.2, payload⟩ ∈ before) ∧ ∀ payload, ⟨edge.2, payload⟩ ∉ after
  changed : ∀ edge, edge ∈ delta.changedEdges ↔ edge.1 = source ∧
    ∃ old new, ⟨edge.2, old⟩ ∈ before ∧ ⟨edge.2, new⟩ ∈ after ∧ old ≠ new
  once : delta.addedEdges.Nodup ∧ delta.removedEdges.Nodup ∧ delta.changedEdges.Nodup

variable [LawfulEqOrd κ] [DecidableEq κ]

omit [Ord κ] [TransOrd κ] [LawfulEqOrd κ] [DecidableEq κ] in
/-- What one meeting contributes to each part. -/
theorem mem_edgeChange (source : κ) (side : Merge.Side (OutgoingEdge κ π) (OutgoingEdge κ π))
    (edge : κ × κ) : (edge ∈ (edgeChange source side).addedEdges ↔
        ∃ item, side = .right item ∧ edge = (source, item.target)) ∧
      (edge ∈ (edgeChange source side).removedEdges ↔
        ∃ item, side = .left item ∧ edge = (source, item.target)) ∧
      (edge ∈ (edgeChange source side).changedEdges ↔
        ∃ old new, side = .both old new ∧ old.payload ≠ new.payload ∧
          edge = (source, new.target)) := by
  cases side with
  | left item | right item => simp [edgeChange]
  | both old new =>
    rw [edgeChange]
    split
    · rename_i same
      simp [same]
    · rename_i different
      simp [different]

omit [Ord κ] [TransOrd κ] [LawfulEqOrd κ] [DecidableEq κ] in
/-- A meeting contributes at most one edge, and no node. -/
theorem edgeChange_small (source : κ) (side : Merge.Side (OutgoingEdge κ π) (OutgoingEdge κ π)) :
    (edgeChange source side).addedNodes = [] ∧ (edgeChange source side).removedNodes = [] ∧
      (edgeChange source side).addedEdges.Nodup ∧
      (edgeChange source side).removedEdges.Nodup ∧
      (edgeChange source side).changedEdges.Nodup := by
  cases side with
  | left item | right item => simp [edgeChange]
  | both old new =>
    rw [edgeChange]
    split <;> simp

omit [DecidableEq κ] in
theorem mergeEdgeLists_difference (source : κ) {before after : List (OutgoingEdge κ π)}
    (beforeSorted : Sorted before) (afterSorted : Sorted after) :
    EdgeDifference source before after (mergeEdgeLists source before after) := by
  obtain ⟨addedNodes, removedNodes, addedEdges, removedEdges, changedEdges⟩ := isParts κ
  have meets : ∀ side, side ∈ Merge.walk OutgoingEdge.target OutgoingEdge.target before after ↔
      Merge.Meets OutgoingEdge.target OutgoingEdge.target before after side :=
    Merge.mem_walk_iff beforeSorted afterSorted
  have ascending := Merge.walk_ascending beforeSorted afterSorted
  constructor
  case quiet =>
    constructor
    · rw [mergeEdgeLists, part_foldl addedNodes]
      exact flatMap_eq_nil_iff.mpr fun side _ => (edgeChange_small source side).1
    · rw [mergeEdgeLists, part_foldl removedNodes]
      exact flatMap_eq_nil_iff.mpr fun side _ => (edgeChange_small source side).2.1
  case added =>
    intro edge
    simp only [mergeEdgeLists, part_foldl addedEdges, mem_flatMap, mem_edgeChange]
    constructor
    · rintro ⟨_, member, item, rfl, rfl⟩
      obtain ⟨isAfter, apart⟩ := (meets _).mp member
      exact ⟨rfl, ⟨item.payload, isAfter⟩, fun payload old => apart _ old rfl⟩
    rintro ⟨rfl, ⟨payload, isAfter⟩, absent⟩
    refine ⟨_, (meets (.right ⟨edge.2, payload⟩)).mpr ⟨isAfter, ?_⟩, _, rfl, rfl⟩
    rintro ⟨target, old⟩ isBefore rfl
    exact absent old isBefore
  case removed =>
    intro edge
    simp only [mergeEdgeLists, part_foldl removedEdges, mem_flatMap, mem_edgeChange]
    constructor
    · rintro ⟨_, member, item, rfl, rfl⟩
      obtain ⟨isBefore, apart⟩ := (meets _).mp member
      exact ⟨rfl, ⟨item.payload, isBefore⟩, fun payload new => apart _ new rfl⟩
    rintro ⟨rfl, ⟨payload, isBefore⟩, absent⟩
    refine ⟨_, (meets (.left ⟨edge.2, payload⟩)).mpr ⟨isBefore, ?_⟩, _, rfl, rfl⟩
    rintro ⟨target, new⟩ isAfter rfl
    exact absent new isAfter
  case changed =>
    intro edge
    simp only [mergeEdgeLists, part_foldl changedEdges, mem_flatMap, mem_edgeChange]
    constructor
    · rintro ⟨_, member, ⟨target, old⟩, new, rfl, different, rfl⟩
      obtain ⟨isBefore, isAfter, rfl⟩ := (meets _).mp member
      exact ⟨rfl, old, new.payload, isBefore, isAfter, different⟩
    · rintro ⟨rfl, old, new, isBefore, isAfter, different⟩
      exact ⟨_, (meets (.both ⟨edge.2, old⟩ ⟨edge.2, new⟩)).mpr ⟨isBefore, isAfter, rfl⟩,
        _, _, rfl, different, rfl⟩
  case once =>
    refine ⟨?_, ?_, ?_⟩
    · rw [mergeEdgeLists, part_foldl addedEdges]
      refine Merge.nodup_flatMap_of_key ascending Prod.snd ?_
        fun side _ => (edgeChange_small source side).2.2.1
      intro side _ edge inPart
      obtain ⟨item, rfl, rfl⟩ := (mem_edgeChange source side edge).1.mp inPart
      rfl
    · rw [mergeEdgeLists, part_foldl removedEdges]
      refine Merge.nodup_flatMap_of_key ascending Prod.snd ?_
        fun side _ => (edgeChange_small source side).2.2.2.1
      intro side _ edge inPart
      obtain ⟨item, rfl, rfl⟩ := (mem_edgeChange source side edge).2.1.mp inPart
      rfl
    rw [mergeEdgeLists, part_foldl changedEdges]
    refine Merge.nodup_flatMap_of_key ascending Prod.snd ?_
      fun side _ => (edgeChange_small source side).2.2.2.2
    intro side member edge inPart
    obtain ⟨old, new, rfl, _, rfl⟩ := (mem_edgeChange source side edge).2.2.mp inPart
    exact ((meets _).mp member).2.2.symm

/-! ## Whole graphs -/

/-- What a delta between two graphs says. -/
structure IsDelta (before after : AdjacencyGraph κ π) (delta : GraphDelta κ) : Prop where
  addedNodes : ∀ node, node ∈ delta.addedNodes ↔
    after.containsNode node = true ∧ before.containsNode node = false
  removedNodes : ∀ node, node ∈ delta.removedNodes ↔
    before.containsNode node = true ∧ after.containsNode node = false
  addedEdges : ∀ edge, edge ∈ delta.addedEdges ↔
    (∃ payload, after.edgePayload edge.1 edge.2 = some payload) ∧
      before.edgePayload edge.1 edge.2 = none
  removedEdges : ∀ edge, edge ∈ delta.removedEdges ↔
    (∃ payload, before.edgePayload edge.1 edge.2 = some payload) ∧
      after.edgePayload edge.1 edge.2 = none
  changedEdges : ∀ edge, edge ∈ delta.changedEdges ↔
    ∃ old new, before.edgePayload edge.1 edge.2 = some old ∧
      after.edgePayload edge.1 edge.2 = some new ∧ old ≠ new
  once : delta.addedNodes.Nodup ∧ delta.removedNodes.Nodup ∧ delta.addedEdges.Nodup ∧
    delta.removedEdges.Nodup ∧ delta.changedEdges.Nodup

section

variable {before after : AdjacencyGraph κ π}

omit [LawfulEqOrd κ] [DecidableEq κ] [DecidableEq π] in
theorem nodes_ascending (graph : AdjacencyGraph κ π) : Merge.Ascending id graph.nodes :=
  @ExtTreeMap.ordered_keys _ _ _ graph.outgoing _

variable {graph : AdjacencyGraph κ π} {side : Merge.Side κ κ} {source target : κ}

omit [DecidableEq π] [DecidableEq κ] in
theorem outEdges_of_absent (mirrored : graph.Mirrored) {node : κ} (absent : node ∉ graph.nodes) :
    graph.outEdges node = [] := by
  rw [eq_nil_iff_forall_not_mem]
  intro edge member
  exact absent (mem_nodes_iff.mpr (mirrored.live node edge.target edge.payload member).1)

/-- The node a side was met at. -/
def sideNode : Merge.Side κ κ → κ := Merge.Side.key id id

omit [DecidableEq π] [DecidableEq κ] in
theorem mem_walk_nodes (side : Merge.Side κ κ) :
    side ∈ Merge.walk id id before.nodes after.nodes ↔
      Merge.Meets id id before.nodes after.nodes side :=
  Merge.mem_walk_iff (nodes_ascending before) (nodes_ascending after) side

omit [DecidableEq π] [DecidableEq κ] in
/-- The walk meets the nodes of both graphs. -/
theorem exists_side_iff (node : κ) :
    (∃ side ∈ Merge.walk id id before.nodes after.nodes, sideNode side = node) ↔
      node ∈ before.nodes ∨ node ∈ after.nodes := by
  constructor
  · rintro ⟨side, member, rfl⟩
    have meets := (mem_walk_nodes side).mp member
    cases side with
    | left first | both first second => exact .inl meets.1
    | right first => exact .inr meets.1
  intro known
  by_cases isBefore : node ∈ before.nodes
  · by_cases isAfter : node ∈ after.nodes
    · exact ⟨.both node node, (mem_walk_nodes _).mpr ⟨isBefore, isAfter, rfl⟩, rfl⟩
    · refine ⟨.left node, (mem_walk_nodes _).mpr ⟨isBefore, ?_⟩, rfl⟩
      rintro other member rfl
      exact isAfter member
  · refine ⟨.right node, (mem_walk_nodes _).mpr ⟨known.resolve_left isBefore, ?_⟩, rfl⟩
    rintro other member rfl
    exact isBefore member

/-- What a node contributes: itself when one graph lacks it, and the difference
of its edges. -/
structure NodeDifference (before after : AdjacencyGraph κ π) (node : κ)
    (delta : GraphDelta κ) : Prop where
  addedNodes : delta.addedNodes = if node ∈ before.nodes then [] else [node]
  removedNodes : delta.removedNodes = if node ∈ after.nodes then [] else [node]
  edges : ∃ edges, EdgeDifference node (before.outEdges node) (after.outEdges node) edges ∧
    delta.addedEdges = edges.addedEdges ∧ delta.removedEdges = edges.removedEdges ∧
    delta.changedEdges = edges.changedEdges

theorem nodeChange_difference (beforeMirrored : before.Mirrored) (afterMirrored : after.Mirrored)
    (member : side ∈ Merge.walk id id before.nodes after.nodes) :
    NodeDifference before after (sideNode side) (nodeChange before after side) := by
  have merged : ∀ node, EdgeDifference node (before.outEdges node) (after.outEdges node)
      (mergeEdgeLists node (before.outEdges node) (after.outEdges node)) :=
    fun node => mergeEdgeLists_difference node (beforeMirrored.outSorted node)
      (afterMirrored.outSorted node)
  have meets := (mem_walk_nodes side).mp member
  cases side with
  | left node =>
    obtain ⟨isBefore, apart⟩ := meets
    have absent : node ∉ after.nodes := fun isAfter => apart node isAfter rfl
    have edges := merged node
    rw [outEdges_of_absent afterMirrored absent] at edges
    change NodeDifference before after node _
    refine ⟨?_, ?_, _, merged node, ?_⟩
    · rw [if_pos isBefore]
      exact edges.quiet.1
    · rw [if_neg absent]
      exact congrArg (node :: ·) edges.quiet.2
    · rw [outEdges_of_absent afterMirrored absent]
      exact ⟨rfl, rfl, rfl⟩
  | right node =>
    obtain ⟨isAfter, apart⟩ := meets
    have absent : node ∉ before.nodes := fun isBefore => apart node isBefore rfl
    have edges := merged node
    rw [outEdges_of_absent beforeMirrored absent] at edges
    change NodeDifference before after node _
    refine ⟨?_, ?_, _, merged node, ?_⟩
    · rw [if_neg absent]
      exact congrArg (node :: ·) edges.quiet.1
    · rw [if_pos isAfter]
      exact edges.quiet.2
    · rw [outEdges_of_absent beforeMirrored absent]
      exact ⟨rfl, rfl, rfl⟩
  | both node other =>
    obtain ⟨isBefore, isAfter, same⟩ := meets
    obtain rfl : node = other := same
    change NodeDifference before after node _
    refine ⟨?_, ?_, _, merged node, rfl, rfl, rfl⟩
    · rw [if_pos isBefore]
      exact (merged node).quiet.1
    · rw [if_pos isAfter]
      exact (merged node).quiet.2

omit [DecidableEq π] [DecidableEq κ] in
/-- A part of the delta whose items carry the node of their side. -/
theorem mem_sides_iff {γ : Type} (tag : γ → κ) {part : Merge.Side κ κ → List γ} {fact : γ → Prop}
    (mem_part : ∀ side ∈ Merge.walk id id before.nodes after.nodes,
      ∀ item, item ∈ part side ↔ tag item = sideNode side ∧ fact item)
    (known : ∀ item, fact item → tag item ∈ before.nodes ∨ tag item ∈ after.nodes) (item : γ) :
    item ∈ (Merge.walk id id before.nodes after.nodes).flatMap part ↔ fact item := by
  rw [mem_flatMap]
  constructor
  · rintro ⟨side, member, inPart⟩
    exact ((mem_part side member item).mp inPart).2
  · intro holds
    obtain ⟨side, member, isNode⟩ := (exists_side_iff (tag item)).mpr (known item holds)
    exact ⟨side, member, (mem_part side member item).mpr ⟨isNode.symm, holds⟩⟩

omit [DecidableEq π] [LawfulEqOrd κ] in
theorem edgePayload_eq_none_iff (mirrored : graph.Mirrored) :
    graph.edgePayload source target = none ↔
      ∀ payload, ⟨target, payload⟩ ∉ graph.outEdges source := by
  rw [Option.eq_none_iff_forall_ne_some]
  exact forall_congr' fun payload => not_congr (edgePayload_eq_some_iff mirrored)

omit [DecidableEq π] [DecidableEq κ] in
theorem source_mem_nodes (mirrored : graph.Mirrored) {payload : π}
    (edge : ⟨target, payload⟩ ∈ graph.outEdges source) : source ∈ graph.nodes :=
  mem_nodes_iff.mpr (mirrored.live source target payload edge).1

/-- An edge of the second graph that the first one lacks. -/
def NewEdge (before after : AdjacencyGraph κ π) (edge : κ × κ) : Prop :=
  (∃ payload, ⟨edge.2, payload⟩ ∈ after.outEdges edge.1) ∧
    ∀ payload, ⟨edge.2, payload⟩ ∉ before.outEdges edge.1

/-- An edge of both graphs with two payloads. -/
def ChangedEdge (before after : AdjacencyGraph κ π) (edge : κ × κ) : Prop :=
  ∃ old new, ⟨edge.2, old⟩ ∈ before.outEdges edge.1 ∧
    ⟨edge.2, new⟩ ∈ after.outEdges edge.1 ∧ old ≠ new

/-- The parts of what one side contributes. -/
structure SideDelta (before after : AdjacencyGraph κ π) (node : κ) (delta : GraphDelta κ) :
    Prop where
  addedNodes : ∀ item, item ∈ delta.addedNodes ↔
    item = node ∧ (item ∈ after.nodes ∧ item ∉ before.nodes)
  removedNodes : ∀ item, item ∈ delta.removedNodes ↔
    item = node ∧ (item ∈ before.nodes ∧ item ∉ after.nodes)
  addedEdges : ∀ edge, edge ∈ delta.addedEdges ↔ edge.1 = node ∧ NewEdge before after edge
  removedEdges : ∀ edge, edge ∈ delta.removedEdges ↔ edge.1 = node ∧ NewEdge after before edge
  changedEdges : ∀ edge, edge ∈ delta.changedEdges ↔ edge.1 = node ∧ ChangedEdge before after edge
  once : delta.addedNodes.Nodup ∧ delta.removedNodes.Nodup ∧ delta.addedEdges.Nodup ∧
    delta.removedEdges.Nodup ∧ delta.changedEdges.Nodup

theorem nodeChange_sideDelta (beforeMirrored : before.Mirrored) (afterMirrored : after.Mirrored)
    (member : side ∈ Merge.walk id id before.nodes after.nodes) :
    SideDelta before after (sideNode side) (nodeChange before after side) := by
  have known := (exists_side_iff (sideNode side)).mp ⟨side, member, rfl⟩
  have change := nodeChange_difference beforeMirrored afterMirrored member
  obtain ⟨edges, difference, addedEq, removedEq, changedEq⟩ := change.edges
  generalize sideNode side = node at *
  constructor
  case addedNodes =>
    intro item
    rw [change.addedNodes]
    split <;> simp <;> grind
  case removedNodes =>
    intro item
    rw [change.removedNodes]
    split <;> simp <;> grind
  case addedEdges =>
    rintro ⟨source, target⟩
    rw [addedEq, difference.added]
    constructor <;> (rintro ⟨rfl, fact⟩; exact ⟨rfl, fact⟩)
  case removedEdges =>
    rintro ⟨source, target⟩
    rw [removedEq, difference.removed]
    constructor <;> (rintro ⟨rfl, fact⟩; exact ⟨rfl, fact⟩)
  case changedEdges =>
    rintro ⟨source, target⟩
    rw [changedEq, difference.changed]
    constructor <;> (rintro ⟨rfl, fact⟩; exact ⟨rfl, fact⟩)
  case once =>
    rw [change.addedNodes, change.removedNodes, addedEq, removedEq, changedEq]
    refine ⟨?_, ?_, difference.once⟩ <;> split <;> simp

/-- The delta of a walk says how the graphs differ, each difference once. -/
theorem graphDifference_isDelta (beforeMirrored : before.Mirrored)
    (afterMirrored : after.Mirrored) : IsDelta before after (graphDifference before after) := by
  obtain ⟨addedNodes, removedNodes, addedEdges, removedEdges, changedEdges⟩ := isParts κ
  have ascending := Merge.walk_ascending (nodes_ascending before) (nodes_ascending after)
  have change : ∀ side ∈ Merge.walk id id before.nodes after.nodes,
      SideDelta before after (sideNode side) (nodeChange before after side) :=
    fun side member => nodeChange_sideDelta beforeMirrored afterMirrored member
  have beforeKnown : ∀ edge : κ × κ, (∃ payload, ⟨edge.2, payload⟩ ∈ before.outEdges edge.1) →
      edge.1 ∈ before.nodes := fun edge ⟨_, isEdge⟩ => source_mem_nodes beforeMirrored isEdge
  have afterKnown : ∀ edge : κ × κ, (∃ payload, ⟨edge.2, payload⟩ ∈ after.outEdges edge.1) →
      edge.1 ∈ after.nodes := fun edge ⟨_, isEdge⟩ => source_mem_nodes afterMirrored isEdge
  constructor
  case addedNodes =>
    intro node
    rw [graphDifference, part_foldl addedNodes, ← Bool.not_eq_true, ← mem_nodes_iff,
      ← mem_nodes_iff]
    exact mem_sides_iff id (fun side member => (change side member).addedNodes)
      (fun node holds => .inr holds.1) node
  case removedNodes =>
    intro node
    rw [graphDifference, part_foldl removedNodes, ← Bool.not_eq_true, ← mem_nodes_iff,
      ← mem_nodes_iff]
    exact mem_sides_iff id (fun side member => (change side member).removedNodes)
      (fun node holds => .inl holds.1) node
  case addedEdges =>
    intro edge
    simp only [edgePayload_eq_some_iff afterMirrored, edgePayload_eq_none_iff beforeMirrored]
    rw [graphDifference, part_foldl addedEdges]
    exact mem_sides_iff Prod.fst (fun side member => (change side member).addedEdges)
      (fun edge isNew => .inr (afterKnown edge isNew.1)) edge
  case removedEdges =>
    intro edge
    simp only [edgePayload_eq_some_iff beforeMirrored, edgePayload_eq_none_iff afterMirrored]
    rw [graphDifference, part_foldl removedEdges]
    exact mem_sides_iff Prod.fst (fun side member => (change side member).removedEdges)
      (fun edge isOld => .inl (beforeKnown edge isOld.1)) edge
  case changedEdges =>
    intro edge
    simp only [edgePayload_eq_some_iff beforeMirrored, edgePayload_eq_some_iff afterMirrored]
    rw [graphDifference, part_foldl changedEdges]
    exact mem_sides_iff Prod.fst (fun side member => (change side member).changedEdges)
      (fun edge ⟨old, _, isEdge, _⟩ => .inl (beforeKnown edge ⟨old, isEdge⟩)) edge
  case once =>
    refine ⟨?_, ?_, ?_, ?_, ?_⟩
    · rw [graphDifference, part_foldl addedNodes]
      exact Merge.nodup_flatMap_of_key ascending id
        (fun side member node inPart => (((change side member).addedNodes node).mp inPart).1)
        (fun side member => (change side member).once.1)
    · rw [graphDifference, part_foldl removedNodes]
      exact Merge.nodup_flatMap_of_key ascending id
        (fun side member node inPart => (((change side member).removedNodes node).mp inPart).1)
        (fun side member => (change side member).once.2.1)
    · rw [graphDifference, part_foldl addedEdges]
      exact Merge.nodup_flatMap_of_key ascending Prod.fst
        (fun side member edge inPart => (((change side member).addedEdges edge).mp inPart).1)
        (fun side member => (change side member).once.2.2.1)
    · rw [graphDifference, part_foldl removedEdges]
      exact Merge.nodup_flatMap_of_key ascending Prod.fst
        (fun side member edge inPart => (((change side member).removedEdges edge).mp inPart).1)
        (fun side member => (change side member).once.2.2.2.1)
    rw [graphDifference, part_foldl changedEdges]
    exact Merge.nodup_flatMap_of_key ascending Prod.fst
      (fun side member edge inPart => (((change side member).changedEdges edge).mp inPart).1)
      (fun side member => (change side member).once.2.2.2.2)

/-- The nodes a graph has once a delta was applied to it. -/
def GraphDelta.patchNodes (delta : GraphDelta κ) (nodes : κ → Bool) (node : κ) : Bool :=
  if node ∈ delta.removedNodes then false
  else if node ∈ delta.addedNodes then true else nodes node

/-- The edges it has then; a delta names edges only, so their payloads are given with it. -/
def GraphDelta.patchEdges (delta : GraphDelta κ) (payloads edges : κ → κ → Option π)
    (source target : κ) : Option π :=
  if (source, target) ∈ delta.removedEdges then none
  else if (source, target) ∈ delta.addedEdges ++ delta.changedEdges then payloads source target
  else edges source target

end

end

end Grab.Graph
