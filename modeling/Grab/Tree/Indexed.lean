import Grab.Tree.Generation
import Mathlib.Data.List.Induction

/-!
# Indexes keep the snapshot

The relation graph of a generation has the nodes of its snapshot, a mask has the
bit of a core relation exactly when the snapshot lists it, and the extension
list holds the others.
-/

namespace Grab.Kernel

open Std Grab.Graph Grab.Lib List

/-! ## Masks -/

theorem getLsbD_relationBit (relation : RelationId) (position : Nat) :
    (relationBit relation).getLsbD position =
      (decide (relation.value < 32) && decide (relation.value.toNat = position)) := by
  unfold relationBit
  split
  · rename_i extension
    have notCore : ¬relation.value < 32 := not_lt.mpr extension
    simp [notCore]
  rename_i core
  have isCore : relation.value < 32 := not_le.mp core
  have bounded : relation.value.toNat < 32 := UInt32.lt_iff_toNat_lt.mp isCore
  rw [BitVec.getLsbD_shiftLeft]
  by_cases same : relation.value.toNat = position
  · subst same
    simp [isCore, bounded]
  · simp [isCore, same, BitVec.getLsbD_one]
    omega

theorem relationBit_ne_zero_iff (relation : RelationId) :
    relationBit relation ≠ 0 ↔ relation.value < 32 := by
  constructor
  · intro nonzero
    by_contra extension
    exact nonzero (if_pos (not_lt.mp extension))
  intro core zero
  have bit := getLsbD_relationBit relation relation.value.toNat
  rw [zero] at bit
  simp [core] at bit

instance : LawfulEqCmp endpointOrder where
  eq_of_compare {first second} equal := by
    obtain ⟨sources, targets⟩ := compareLex_eq_eq.mp equal
    exact Prod.ext (LawfulEqCmp.eq_of_compare sources) (LawfulEqCmp.eq_of_compare targets)

/-- What collecting the relations of a snapshot has established. -/
structure Collected (relations : List UiRelation) (state : CoreRelations × List UiRelation) :
    Prop where
  mask : ∀ source target position,
    (state.1.getD (source, target) 0).getLsbD position = true ↔
      ∃ relation ∈ relations, relation.source = source ∧ relation.target = target ∧
        relation.relation.value < 32 ∧ relation.relation.value.toNat = position
  present : ∀ source target, (source, target) ∈ state.1 ↔
    ∃ relation ∈ relations, relation.source = source ∧ relation.target = target ∧
      relation.relation.value < 32
  extension : ∀ relation, relation ∈ state.2 ↔ relation ∈ relations ∧ ¬relation.relation.value < 32
  once : relations.Nodup → state.2.Nodup

theorem mem_insertExtension {keys : List UiRelation} {key other : UiRelation} :
    other ∈ insertExtension keys key ↔ other = key ∨ other ∈ keys := by
  have split := @takeWhile_append_dropWhile _ (fun other => extensionOrder other key != .gt) keys
  conv_rhs => rw [← split]
  simp only [insertExtension, mem_append, mem_cons]
  tauto

theorem insertExtension_perm (keys : List UiRelation) (key : UiRelation) :
    (insertExtension keys key).Perm (key :: keys) := by
  have split := @takeWhile_append_dropWhile _ (fun other => extensionOrder other key != .gt) keys
  rw [insertExtension]
  refine perm_middle.trans ?_
  rw [split]

theorem exists_mem_append_singleton {α : Type} {items : List α} {last : α} {property : α → Prop} :
    (∃ item ∈ items ++ [last], property item) ↔
      (∃ item ∈ items, property item) ∨ property last := by
  simp only [mem_append, mem_singleton, or_and_right, exists_or, exists_eq_left]

theorem Collected.collect {relations : List UiRelation}
    {state : CoreRelations × List UiRelation} (collected : Collected relations state)
    (relation : UiRelation) :
    Collected (relations ++ [relation]) (collectRelation state relation) := by
  unfold collectRelation
  dsimp only
  split
  · rename_i nonzero
    have core := (relationBit_ne_zero_iff _).mp nonzero
    refine ⟨?_, ?_, ?_, ?_⟩
    · intro source target position
      rw [exists_mem_append_singleton, ExtTreeMap.getD_insert]
      split
      · rename_i same
        obtain ⟨rfl, rfl⟩ := Prod.mk.inj (LawfulEqCmp.eq_of_compare same)
        rw [BitVec.getLsbD_or, Bool.or_eq_true, collected.mask, getLsbD_relationBit]
        simp [core]
      rename_i different
      have apart : ¬(relation.source = source ∧ relation.target = target) := by
        rintro ⟨rfl, rfl⟩
        exact different ReflCmp.compare_self
      rw [collected.mask]
      exact (or_iff_left fun holds => apart ⟨holds.1, holds.2.1⟩).symm
    · intro source target
      rw [exists_mem_append_singleton, ExtTreeMap.mem_insert, collected.present,
        LawfulEqCmp.compare_eq_iff_eq, Prod.mk.injEq]
      simp only [core, and_true]
      exact or_comm
    · intro other
      rw [collected.extension, mem_append, mem_singleton]
      constructor
      · exact fun ⟨member, extension⟩ => ⟨.inl member, extension⟩
      · rintro ⟨member | rfl, extension⟩
        · exact ⟨member, extension⟩
        · exact absurd core extension
    · exact fun distinct => collected.once (nodup_append.mp distinct).1
  · rename_i zero
    have extension : ¬relation.relation.value < 32 := fun core =>
      zero ((relationBit_ne_zero_iff _).mpr core)
    refine ⟨?_, ?_, ?_, ?_⟩
    · intro source target position
      rw [exists_mem_append_singleton, collected.mask]
      exact (or_iff_left fun holds => extension holds.2.2.1).symm
    · intro source target
      rw [exists_mem_append_singleton, collected.present]
      exact (or_iff_left fun holds => extension holds.2.2).symm
    · intro other
      rw [mem_insertExtension, collected.extension, mem_append, mem_singleton]
      constructor
      · rintro (rfl | ⟨member, isExtension⟩)
        · exact ⟨.inr rfl, extension⟩
        · exact ⟨.inl member, isExtension⟩
      · rintro ⟨member | rfl, isExtension⟩
        · exact .inr ⟨member, isExtension⟩
        · exact .inl rfl
    · intro distinct
      obtain ⟨earlier, _, fresh⟩ := nodup_append.mp distinct
      refine (insertExtension_perm _ _).nodup_iff.mpr
        (nodup_cons.mpr ⟨fun member => ?_, collected.once earlier⟩)
      exact fresh relation ((collected.extension relation).mp member).1 relation
        (mem_singleton_self _) rfl

theorem collected_relations (relations : List UiRelation) :
    Collected relations (relations.foldl collectRelation (∅, [])) := by
  induction relations using List.reverseRecOn with
  | nil => exact ⟨by simp, by simp, by simp, by simp⟩
  | append_singleton relations relation ih =>
    rw [foldl_append]
    exact ih.collect relation

/-! ## The graph -/

/-- The graph after the nodes were added: they are its nodes, and it has no edge. -/
structure NodesOnly (nodes : List UiNodeRecord) (graph : RelationGraph) : Prop where
  mirrored : graph.Mirrored
  nodes : ∀ node, graph.containsNode node = true ↔ ∃ record ∈ nodes, record.id = node
  bare : ∀ node, graph.outEdges node = []

variable {metadata : UiSnapshotMetadata}

theorem addRecord_ok {generation grown : Generation} {record : UiNodeRecord}
    (added : addRecord metadata generation record = .ok grown) :
    generation.relations.addNode record.id = some grown.relations ∧
      grown.snapshot = generation.snapshot := by
  unfold addRecord at added
  dsimp only at added
  split at added
  · cases added
  · rename_i graph isAdded
    rw [← Except.ok.inj added]
    exact ⟨isAdded, rfl⟩

theorem foldlM_addRecord {earlier nodes : List UiNodeRecord} {generation indexed : Generation}
    (only : NodesOnly earlier generation.relations)
    (added : nodes.foldlM (addRecord metadata) generation = .ok indexed) :
    NodesOnly (earlier ++ nodes) indexed.relations ∧ indexed.snapshot = generation.snapshot := by
  induction nodes generalizing earlier generation with
  | nil =>
    obtain rfl : generation = indexed := Except.ok.inj added
    exact ⟨by simpa using only, rfl⟩
  | cons record rest ih =>
    rw [foldlM_cons] at added
    obtain ⟨grown, first, later⟩ := bind_ok added
    obtain ⟨isAdded, snapshotEq⟩ := addRecord_ok first
    have edges := AdjacencyGraph.edges_addNode only.mirrored isAdded
    have grownOnly : NodesOnly (earlier ++ [record]) grown.relations := by
      refine ⟨only.mirrored.addNode isAdded, ?_, ?_⟩
      · intro node
        rw [AdjacencyGraph.containsNode_addNode isAdded, only.nodes,
          exists_mem_append_singleton, eq_comm, or_comm]
      · intro node
        rw [(edges node).1, only.bare]
    obtain ⟨restOnly, restEq⟩ := ih grownOnly later
    exact ⟨by simpa using restOnly, restEq.trans snapshotEq⟩

/-- The graph after the masks were added as edges. -/
structure EdgesOf (base : RelationGraph) (entries : List ((NodeId × NodeId) × RelationSet))
    (graph : RelationGraph) : Prop where
  mirrored : graph.Mirrored
  nodes : ∀ node, graph.containsNode node = true ↔ base.containsNode node = true
  edges : ∀ source target mask, ⟨target, mask⟩ ∈ graph.outEdges source ↔
    ⟨target, mask⟩ ∈ base.outEdges source ∨ ((source, target), mask) ∈ entries

theorem foldlM_addCoreEdge {earlier entries : List ((NodeId × NodeId) × RelationSet)}
    {base graph result : RelationGraph} (edgesOf : EdgesOf base earlier graph)
    (added : entries.foldlM (addCoreEdge metadata) graph = .ok result) :
    EdgesOf base (earlier ++ entries) result := by
  induction entries generalizing earlier graph with
  | nil =>
    obtain rfl : graph = result := Except.ok.inj added
    simpa using edgesOf
  | cons entry rest ih =>
    rw [foldlM_cons] at added
    obtain ⟨grown, first, later⟩ := bind_ok added
    have isAdded : graph.addEdge entry.1.1 entry.1.2 entry.2 = some grown := by
      unfold addCoreEdge at first
      split at first
      · rename_i added
        rw [added, Except.ok.inj first]
      · cases first
    have grownOf : EdgesOf base (earlier ++ [entry]) grown := by
      refine ⟨edgesOf.mirrored.addEdge isAdded, ?_, ?_⟩
      · intro node
        rw [AdjacencyGraph.containsNode_addEdge isAdded, edgesOf.nodes]
      intro source target mask
      rw [AdjacencyGraph.mem_outEdges_addEdge isAdded, edgesOf.edges, mem_append, mem_singleton]
      constructor
      · rintro (⟨rfl, same⟩ | old | old)
        · cases same
          exact .inr (.inr rfl)
        · exact .inl old
        · exact .inr (.inl old)
      rintro (old | old | rfl)
      · exact .inr (.inl old)
      · exact .inr (.inr old)
      · exact .inl ⟨rfl, rfl⟩
    simpa using ih grownOf later

/-! ## The generation -/

/-- The indexes of a generation say what its snapshot says. -/
structure Indexed (generation : Generation) : Prop where
  mirrored : generation.relations.Mirrored
  nodes : ∀ node, generation.relations.containsNode node = true ↔
    ∃ record ∈ generation.snapshot.nodes, record.id = node
  core : ∀ source target position,
    (∃ mask, generation.relations.edgePayload source target = some mask ∧
        mask.getLsbD position = true) ↔
      ∃ relation ∈ generation.snapshot.relations, relation.source = source ∧
        relation.target = target ∧ relation.relation.value < 32 ∧
        relation.relation.value.toNat = position
  extension : ∀ relation, relation ∈ generation.extensionRelations ↔
    relation ∈ generation.snapshot.relations ∧ ¬relation.relation.value < 32
  extensionOnce : generation.snapshot.relations.Nodup → generation.extensionRelations.Nodup

theorem buildGeneration_ok {snapshot : UiSnapshot} {generation : Generation}
    (built : buildGeneration snapshot = .ok generation) :
    generation.snapshot = snapshot ∧ Indexed generation := by
  unfold buildGeneration at built
  split at built
  · cases built
  obtain ⟨indexed, nodesAdded, built⟩ := bind_ok built
  obtain ⟨graph, edgesAdded, made⟩ := bind_ok built
  have generationEq := (Except.ok.inj made).symm
  have start : NodesOnly [] ({ snapshot := snapshot } : Generation).relations :=
    ⟨AdjacencyGraph.mirrored_empty, by simp [AdjacencyGraph.containsNode],
      by simp [AdjacencyGraph.outEdges]⟩
  obtain ⟨only, snapshotEq⟩ := foldlM_addRecord start nodesAdded
  have collected := collected_relations snapshot.relations
  generalize snapshot.relations.foldl collectRelation (∅, []) = masks at *
  have edgesOf := foldlM_addCoreEdge
    (⟨only.mirrored, fun _ => Iff.rfl, by simp⟩ : EdgesOf indexed.relations [] _) edgesAdded
  rw [nil_append] at edgesOf only
  subst generationEq
  refine ⟨snapshotEq, ?_⟩
  constructor
  case mirrored => exact edgesOf.mirrored
  case nodes =>
    intro node
    rw [edgesOf.nodes, only.nodes]
    simp only [snapshotEq]
  case core =>
    intro source target position
    have edgeIff : ∀ mask, ⟨target, mask⟩ ∈ graph.outEdges source ↔
        masks.1[(source, target)]? = some mask := by
      intro mask
      rw [edgesOf.edges, only.bare, ExtTreeMap.mem_toList_iff_getElem?_eq_some]
      simp
    simp only [snapshotEq, AdjacencyGraph.edgePayload_eq_some_iff edgesOf.mirrored, edgeIff]
    rw [← collected.mask, ExtTreeMap.getD_eq_getD_getElem?]
    cases masks.1[(source, target)]? with
    | none | some mask => simp
  case extension =>
    simp only [snapshotEq]
    exact collected.extension
  case extensionOnce =>
    simp only [snapshotEq]
    exact collected.once

end Grab.Kernel
