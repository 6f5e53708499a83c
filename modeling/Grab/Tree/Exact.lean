import Grab.Tree.Events
import Mathlib.Data.List.Perm.Basic

/-!
# Batches are exact

A batch between two generations of one scope reports each difference of their
nodes and relations exactly once; a batch across scopes removes everything and
adds everything, each exactly once.  Replaying either on the old set gives the
new one.
-/

namespace Grab.Kernel

open Std Grab.Graph Grab.Lib List

/-! ## Relations of a mask -/

theorem testBit_iff (bits : RelationSet) {index : Nat} (small : index < 32) :
    (bits &&& 1#32 <<< index != 0#32) = true ↔ bits.getLsbD index = true := by
  rw [bne_iff_ne]
  constructor
  · intro nonzero
    by_contra unset
    apply nonzero
    apply BitVec.eq_of_getLsbD_eq
    intro position inside
    by_cases same : position = index
    · subst same
      simp [unset]
    have apart : ¬(index ≤ position ∧ position - index = 0) := by omega
    simp only [BitVec.getLsbD_and, BitVec.getLsbD_shiftLeft, BitVec.getLsbD_one,
      BitVec.getLsbD_zero, Bool.and_eq_false_iff]
    right
    by_cases below : position < index
    · simp [below]
    · simp [below, show ¬position - index = 0 by omega]
  · intro set zero
    have bit : (bits &&& 1#32 <<< index).getLsbD index = true := by
      rw [BitVec.getLsbD_and, set, BitVec.getLsbD_shiftLeft]
      simp [small]
    rw [zero] at bit
    simp at bit

/-- A bit index is a word. -/
theorem toNat_ofNat_small {index : Nat} (small : index < 32) : (UInt32.ofNat index).toNat = index :=
  UInt32.toNat_ofNat_of_lt' (small.trans (by decide))

variable {relation : UiRelation} {edges : List (NodeId × NodeId)} {α : Type}

theorem mem_bitRelations {source target : NodeId} {bits : RelationSet} :
    relation ∈ bitRelations source target bits ↔
      relation.source = source ∧ relation.target = target ∧ relation.relation.value < 32 ∧
        bits.getLsbD relation.relation.value.toNat = true := by
  simp only [bitRelations, mem_map, mem_filter, mem_range]
  constructor
  · rintro ⟨index, ⟨small, isSet⟩, rfl⟩
    refine ⟨rfl, rfl, ?_, ?_⟩
    · rw [UInt32.lt_iff_toNat_lt, toNat_ofNat_small small]
      exact small
    · rw [toNat_ofNat_small small]
      exact (testBit_iff bits small).mp isSet
  rintro ⟨rfl, rfl, core, isSet⟩
  have small : relation.relation.value.toNat < 32 := UInt32.lt_iff_toNat_lt.mp core
  refine ⟨relation.relation.value.toNat, ⟨small, (testBit_iff bits small).mpr isSet⟩, ?_⟩
  rw [UInt32.ofNat_toNat]

theorem nodup_bitRelations (source target : NodeId) (bits : RelationSet) :
    (bitRelations source target bits).Nodup := by
  refine (nodup_range.filter _).map_on ?_
  intro first firstMem second secondMem same
  have firstSmall := mem_range.mp (mem_of_mem_filter firstMem)
  have secondSmall := mem_range.mp (mem_of_mem_filter secondMem)
  have words : UInt32.ofNat first = UInt32.ofNat second :=
    congrArg (fun relation : UiRelation => relation.relation.value) same
  have numbers := congrArg UInt32.toNat words
  rwa [toNat_ofNat_small firstSmall, toNat_ofNat_small secondSmall] at numbers

/-- The relations of distinct edges are distinct. -/
theorem nodup_flatMap_edges (distinct : edges.Nodup) {bits : NodeId × NodeId → RelationSet} :
    (edges.flatMap fun edge => bitRelations edge.1 edge.2 (bits edge)).Nodup := by
  rw [nodup_flatMap]
  refine ⟨fun edge _ => nodup_bitRelations _ _ _, ?_⟩
  refine distinct.imp ?_
  intro first second different relation inFirst inSecond
  obtain ⟨source, target, _⟩ := mem_bitRelations.mp inFirst
  obtain ⟨source', target', _⟩ := mem_bitRelations.mp inSecond
  exact different (Prod.ext (source.symm.trans source') (target.symm.trans target'))

/-! ## Batches as lists of edits -/

theorem editsOf_append (events others : List TreeEvent) :
    editsOf (events ++ others) = editsOf events ++ editsOf others :=
  filterMap_append

theorem editsOf_map {event : α → TreeEvent} {edit : α → Edit Item}
    (reports : ∀ item, (event item).edit = some (edit item)) (items : List α) :
    editsOf (items.map event) = items.map edit := by
  induction items with
  | nil => rfl
  | cons item rest ih =>
    rw [map_cons, editsOf, filterMap_cons, reports item]
    exact congrArg (edit item :: ·) ih

theorem editsOf_changed (generation : Generation) (nodes : List NodeId) :
    editsOf (nodes.map (nodeEvent .nodeChanged generation)) = [] := by
  induction nodes with
  | nil => rfl
  | cons node rest ih => exact ih

theorem editsOf_flatMap (events : α → List TreeEvent) (items : List α) :
    editsOf (items.flatMap events) = items.flatMap fun item => editsOf (events item) := by
  induction items with
  | nil => rfl
  | cons item rest ih => rw [flatMap_cons, editsOf_append, ih, flatMap_cons]

/-- A whole generation, taken away or brought. -/
def wholly (edit : Item → Edit Item) (nodes : List NodeId)
    (relations extensions : List UiRelation) : List (Edit Item) :=
  (nodes.map fun node => edit (.node node)) ++
    ((relations.map fun relation => edit (.relation relation)) ++
      extensions.map fun relation => edit (.relation relation))

theorem editsOf_removalEvents (before : Generation) :
    editsOf (removalEvents before) =
      wholly .remove (graphDifference before.relations {}).removedNodes
        ((graphDifference before.relations {}).removedEdges.flatMap
          (relationsOfEdge before.relations)) before.extensionRelations := by
  rw [removalEvents, editsOf_append, editsOf_append, editsOf_map (fun _ => rfl),
    editsOf_map (fun _ => rfl), editsOf_map (fun _ => rfl)]
  rfl

theorem editsOf_additionEvents (after : Generation) :
    editsOf (additionEvents after) =
      wholly .add (graphDifference {} after.relations).addedNodes
        ((graphDifference {} after.relations).addedEdges.flatMap
          (relationsOfEdge after.relations)) after.extensionRelations := by
  rw [additionEvents, editsOf_append, editsOf_append, editsOf_map (fun _ => rfl),
    editsOf_map (fun _ => rfl), editsOf_map (fun _ => rfl)]
  rfl

/-! ## Core and extension relations of a generation -/

/-- A generation of accepted records. -/
structure Generation.Valid (generation : Generation) : Prop where
  indexed : Indexed generation
  nodesOnce : (generation.snapshot.nodes.map UiNodeRecord.id).Nodup
  relationsOnce : generation.snapshot.relations.Nodup

section

variable {before after generation : Generation}

variable {edge : NodeId × NodeId} {graph : RelationGraph} {nodes : List NodeId}
  {edit : Item → Edit Item} {relations extensions : List UiRelation} {delta : GraphDelta NodeId}
  {first second : Generation} {gone changed : List (NodeId × NodeId)}

theorem edgeRelations_of_payload {mask : RelationSet}
    (payload : graph.edgePayload edge.1 edge.2 = some mask) : edgeRelations graph edge = mask := by
  rw [edgeRelations, payload, Option.getD_some]

/-- A core relation is the bit of its edge. -/
theorem mem_relations_iff (valid : generation.Valid) (core : relation.relation.value < 32) :
    relation ∈ generation.snapshot.relations ↔
      (edgeRelations generation.relations (relation.source, relation.target)).getLsbD
        relation.relation.value.toNat = true := by
  have mask := valid.indexed.core relation.source relation.target relation.relation.value.toNat
  rw [edgeRelations]
  constructor
  · intro member
    obtain ⟨bits, payload, isSet⟩ := mask.mpr ⟨relation, member, rfl, rfl, core, rfl⟩
    rw [payload]
    exact isSet
  intro isSet
  cases payload : generation.relations.edgePayload relation.source relation.target with
  | none =>
    rw [payload] at isSet
    simp at isSet
  | some bits =>
    rw [payload] at isSet
    obtain ⟨other, member, source, target, _, same⟩ := mask.mp ⟨bits, payload, isSet⟩
    have equal : other = relation := by
      cases other
      cases relation
      simp only [UiRelation.mk.injEq] at source target same ⊢
      exact ⟨source, target, congrArg RelationId.mk (UInt32.toNat_inj.mp same)⟩
    exact equal ▸ member

theorem mem_flatMap_relations :
    relation ∈ edges.flatMap (relationsOfEdge graph) ↔
      (relation.source, relation.target) ∈ edges ∧ relation.relation.value < 32 ∧
        (edgeRelations graph (relation.source, relation.target)).getLsbD
          relation.relation.value.toNat = true := by
  simp only [mem_flatMap, relationsOfEdge, mem_bitRelations]
  constructor
  · rintro ⟨⟨source, target⟩, member, rfl, rfl, core, isSet⟩
    exact ⟨member, core, isSet⟩
  · rintro ⟨member, core, isSet⟩
    exact ⟨_, member, rfl, rfl, core, isSet⟩

/-- A set bit is on an edge. -/
theorem payload_of_bit {position : Nat}
    (isSet : (edgeRelations graph edge).getLsbD position = true) :
    ∃ mask, graph.edgePayload edge.1 edge.2 = some mask := by
  rw [edgeRelations] at isSet
  cases payload : graph.edgePayload edge.1 edge.2 with
  | none =>
    rw [payload] at isSet
    simp at isSet
  | some mask => exact ⟨mask, rfl⟩

/-- Lists that hold everything a generation consists of. -/
structure Lists (generation : Generation) (nodes : List NodeId)
    (relations extensions : List UiRelation) : Prop where
  mem_nodes : ∀ node, node ∈ nodes ↔ .node node ∈ generation.items
  mem_relations : ∀ relation, relation ∈ relations ↔
    relation ∈ generation.snapshot.relations ∧ relation.relation.value < 32
  mem_extensions : ∀ relation, relation ∈ extensions ↔
    relation ∈ generation.snapshot.relations ∧ ¬relation.relation.value < 32
  once : nodes.Nodup ∧ relations.Nodup ∧ extensions.Nodup

theorem lists_of_edges (valid : generation.Valid)
    (nodesIff : ∀ node, node ∈ nodes ↔ generation.relations.containsNode node = true)
    (edgesIff : ∀ edge, edge ∈ edges ↔
      ∃ mask, generation.relations.edgePayload edge.1 edge.2 = some mask)
    (nodesOnce : nodes.Nodup) (edgesOnce : edges.Nodup) :
    Lists generation nodes (edges.flatMap (relationsOfEdge generation.relations))
      generation.extensionRelations where
  mem_nodes node := (nodesIff node).trans (valid.indexed.nodes node)
  mem_relations relation := by
    rw [mem_flatMap_relations, edgesIff]
    constructor
    · rintro ⟨_, core, isSet⟩
      exact ⟨(mem_relations_iff valid core).mpr isSet, core⟩
    · rintro ⟨member, core⟩
      have isSet := (mem_relations_iff valid core).mp member
      exact ⟨payload_of_bit isSet, core, isSet⟩
  mem_extensions := valid.indexed.extension
  once := ⟨nodesOnce, nodup_flatMap_edges edgesOnce,
    valid.indexed.extensionOnce valid.relationsOnce⟩

variable (lists : Lists generation nodes relations extensions)

include lists

theorem Lists.mem_wholly (injective : Function.Injective edit) (item : Item) :
    edit item ∈ wholly edit nodes relations extensions ↔ item ∈ generation.items := by
  have same : ∀ first second, edit first = edit second ↔ first = second :=
    fun first second => injective.eq_iff
  simp only [wholly, mem_append, mem_map, same]
  cases item with
  | node node => simp [lists.mem_nodes]
  | relation relation =>
    simp only [reduceCtorEq, and_false, exists_false, Item.relation.injEq, exists_eq_right,
      lists.mem_relations, lists.mem_extensions, false_or]
    rw [← and_or_left]
    exact and_iff_left (em _)

theorem Lists.nodup_wholly (injective : Function.Injective edit) :
    (wholly edit nodes relations extensions).Nodup := by
  have relationInjective : Function.Injective fun relation => edit (.relation relation) :=
    fun first second same => Item.relation.inj (injective same)
  have nodeInjective : Function.Injective fun node => edit (.node node) :=
    fun first second same => Item.node.inj (injective same)
  obtain ⟨nodesOnce, relationsOnce, extensionsOnce⟩ := lists.once
  refine Nodup.append (nodesOnce.map nodeInjective)
    (Nodup.append (relationsOnce.map relationInjective)
      (extensionsOnce.map relationInjective) ?_) ?_
  · intro other inCore inExtension
    obtain ⟨relation, core, rfl⟩ := mem_map.mp inCore
    obtain ⟨same, extension, equal⟩ := mem_map.mp inExtension
    obtain rfl := relationInjective equal
    exact ((lists.mem_extensions same).mp extension).2 ((lists.mem_relations same).mp core).2
  intro other isNode isRelation
  obtain ⟨node, _, rfl⟩ := mem_map.mp isNode
  rcases mem_append.mp isRelation with inCore | inExtension
  · obtain ⟨relation, _, equal⟩ := mem_map.mp inCore
    cases injective equal
  · obtain ⟨relation, _, equal⟩ := mem_map.mp inExtension
    cases injective equal

/-! ## Across scopes -/

omit lists

theorem lists_removed (valid : before.Valid) :
    Lists before (graphDifference before.relations {}).removedNodes
      ((graphDifference before.relations {}).removedEdges.flatMap
        (relationsOfEdge before.relations)) before.extensionRelations := by
  have delta := graphDifference_isDelta valid.indexed.mirrored AdjacencyGraph.mirrored_empty
  refine lists_of_edges valid ?_ ?_ delta.once.2.1 delta.once.2.2.2.1
  · intro node
    rw [delta.removedNodes]
    simp [AdjacencyGraph.containsNode]
  · intro edge
    rw [delta.removedEdges]
    simp [AdjacencyGraph.edgePayload]

theorem lists_added (valid : after.Valid) :
    Lists after (graphDifference {} after.relations).addedNodes
      ((graphDifference {} after.relations).addedEdges.flatMap
        (relationsOfEdge after.relations)) after.extensionRelations := by
  have delta := graphDifference_isDelta AdjacencyGraph.mirrored_empty valid.indexed.mirrored
  refine lists_of_edges valid ?_ ?_ delta.once.1 delta.once.2.2.1
  · intro node
    rw [delta.addedNodes]
    simp [AdjacencyGraph.containsNode]
  · intro edge
    rw [delta.addedEdges]
    simp [AdjacencyGraph.edgePayload]

theorem add_injective : Function.Injective (Edit.add : Item → Edit Item) :=
  fun _ _ same => Edit.add.inj same

theorem remove_injective : Function.Injective (Edit.remove : Item → Edit Item) :=
  fun _ _ same => Edit.remove.inj same

/-- Everything in a whole removal or addition is made by its edit. -/
theorem exists_of_mem_wholly {made : Edit Item}
    (member : made ∈ wholly edit nodes relations extensions) : ∃ item, made = edit item := by
  simp only [wholly, mem_append, mem_map] at member
  rcases member with ⟨node, _, rfl⟩ | ⟨relation, _, rfl⟩ | ⟨relation, _, rfl⟩ <;> exact ⟨_, rfl⟩

theorem isReplacement_additions (valid : after.Valid) :
    Edit.IsReplacement ∅ after.items (editsOf (additionEvents after)) := by
  rw [editsOf_additionEvents]
  have lists := lists_added valid
  have noRemove : ∀ item, .remove item ∉ wholly .add
      (graphDifference {} after.relations).addedNodes
      ((graphDifference {} after.relations).addedEdges.flatMap
        (relationsOfEdge after.relations)) after.extensionRelations := by
    intro item member
    obtain ⟨_, impossible⟩ := exists_of_mem_wholly member
    cases impossible
  refine ⟨lists.nodup_wholly add_injective, lists.mem_wholly add_injective, ?_,
    [], _, rfl, by simp, noRemove⟩
  intro item
  simp [noRemove item]

theorem isReplacement_events (beforeValid : before.Valid) (afterValid : after.Valid) :
    Edit.IsReplacement before.items after.items
      (editsOf (removalEvents before ++ additionEvents after)) := by
  have removedLists := lists_removed beforeValid
  have additions := isReplacement_additions afterValid
  have noAdd : ∀ item, .add item ∉ editsOf (removalEvents before) := by
    intro item member
    rw [editsOf_removalEvents] at member
    obtain ⟨_, impossible⟩ := exists_of_mem_wholly member
    cases impossible
  have noRemove : ∀ item, .remove item ∉ editsOf (additionEvents after) := by
    intro item member
    exact ((additions.removed item).mp member).elim
  rw [editsOf_append]
  refine ⟨?_, ?_, ?_, _, _, rfl, noAdd, noRemove⟩
  · refine Nodup.append ?_ additions.once ?_
    · rw [editsOf_removalEvents]
      exact removedLists.nodup_wholly remove_injective
    · intro edit isRemoval isAddition
      rw [editsOf_removalEvents] at isRemoval
      obtain ⟨item, rfl⟩ := exists_of_mem_wholly isRemoval
      exact noRemove item isAddition
  · intro item
    rw [mem_append, additions.added]
    simp [noAdd item]
  · intro item
    rw [mem_append, editsOf_removalEvents, removedLists.mem_wholly remove_injective]
    simp [noRemove item]

/-! ## Within a scope -/

/-- The relations of an edge that one generation has and the other lacks. -/
def lostRelations (first second : Generation) (edge : NodeId × NodeId) : List UiRelation :=
  bitRelations edge.1 edge.2
    (edgeRelations first.relations edge &&& ~~~edgeRelations second.relations edge)

/-- The edits that come with relations. -/
def relationEdits (edit : Item → Edit Item) (relations : List UiRelation) : List (Edit Item) :=
  relations.map fun relation => edit (.relation relation)

theorem editsOf_sameScope (differs : graphDifference before.relations after.relations = delta) :
    editsOf (deriveSameScopeEvents before after) =
      List.map (fun node => Edit.remove (Item.node node)) delta.removedNodes ++
        (List.map (fun node => Edit.add (Item.node node)) delta.addedNodes ++
        (relationEdits .remove (delta.removedEdges.flatMap (relationsOfEdge before.relations)) ++
        (relationEdits .add (delta.addedEdges.flatMap (relationsOfEdge after.relations)) ++
        (List.flatMap (fun edge =>
          relationEdits .remove (lostRelations before after edge) ++
            relationEdits .add (lostRelations after before edge)) delta.changedEdges ++
        (relationEdits .remove (before.extensionRelations.filter (· ∉ after.extensionRelations)) ++
        relationEdits .add
          (after.extensionRelations.filter (· ∉ before.extensionRelations))))))) := by
  have edge : ∀ edge, editsOf (changedEdgeEvents before after edge) =
      relationEdits .remove (lostRelations before after edge) ++
        relationEdits .add (lostRelations after before edge) := by
    intro edge
    rw [changedEdgeEvents, editsOf_append, editsOf_map (fun _ => rfl), editsOf_map (fun _ => rfl)]
    rfl
  subst differs
  simp only [deriveSameScopeEvents, editsOf_append, editsOf_changed, editsOf_flatMap, edge,
    nil_append]
  rw [editsOf_map (fun _ => rfl), editsOf_map (fun _ => rfl), editsOf_map (fun _ => rfl),
    editsOf_map (fun _ => rfl), editsOf_map (fun _ => rfl), editsOf_map (fun _ => rfl)]
  rfl

theorem mem_lostRelations :
    relation ∈ lostRelations first second edge ↔
      (relation.source, relation.target) = edge ∧ relation.relation.value < 32 ∧
        (edgeRelations first.relations edge).getLsbD relation.relation.value.toNat = true ∧
        (edgeRelations second.relations edge).getLsbD relation.relation.value.toNat = false := by
  rw [lostRelations, mem_bitRelations, Prod.ext_iff]
  constructor
  · rintro ⟨source, target, core, isSet⟩
    have small : relation.relation.value.toNat < 32 := UInt32.lt_iff_toNat_lt.mp core
    rw [BitVec.getLsbD_and, Bool.and_eq_true, BitVec.getLsbD_not] at isSet
    exact ⟨⟨source, target⟩, core, isSet.1, by simpa [small] using isSet.2⟩
  rintro ⟨⟨source, target⟩, core, isSet, isUnset⟩
  have small : relation.relation.value.toNat < 32 := UInt32.lt_iff_toNat_lt.mp core
  refine ⟨source, target, core, ?_⟩
  rw [BitVec.getLsbD_and, isSet, BitVec.getLsbD_not, isUnset]
  simp [small]

/-- The core relations that go, edge by edge: with their edge, or as a bit of an
edge that stays. -/
theorem core_lost_iff (firstValid : first.Valid) (secondValid : second.Valid)
    (goneIff : ∀ edge, edge ∈ gone ↔
      (∃ mask, first.relations.edgePayload edge.1 edge.2 = some mask) ∧
        second.relations.edgePayload edge.1 edge.2 = none)
    (changedIff : ∀ edge, edge ∈ changed ↔ ∃ old new,
      first.relations.edgePayload edge.1 edge.2 = some old ∧
        second.relations.edgePayload edge.1 edge.2 = some new ∧ old ≠ new) (relation : UiRelation) :
    (relation ∈ gone.flatMap (relationsOfEdge first.relations) ∨
        ∃ edge ∈ changed, relation ∈ lostRelations first second edge) ↔
      relation.relation.value < 32 ∧ relation ∈ first.snapshot.relations ∧
        relation ∉ second.snapshot.relations := by
  rw [mem_flatMap_relations, goneIff]
  constructor
  · rintro (⟨⟨_, noEdge⟩, core, isSet⟩ | ⟨edge, isChanged, isLost⟩)
    · refine ⟨core, (mem_relations_iff firstValid core).mpr isSet, fun member => ?_⟩
      obtain ⟨mask, payload⟩ := payload_of_bit ((mem_relations_iff secondValid core).mp member)
      cases noEdge.symm.trans payload
    · obtain ⟨rfl, core, isSet, isUnset⟩ := mem_lostRelations.mp isLost
      refine ⟨core, (mem_relations_iff firstValid core).mpr isSet, fun member => ?_⟩
      cases isUnset.symm.trans ((mem_relations_iff secondValid core).mp member)
  · rintro ⟨core, member, absent⟩
    have isSet := (mem_relations_iff firstValid core).mp member
    have isUnset : (edgeRelations second.relations (relation.source, relation.target)).getLsbD
        relation.relation.value.toNat = false := by
      rw [← Bool.not_eq_true, ← mem_relations_iff secondValid core]
      exact absent
    obtain ⟨mask, payload⟩ := payload_of_bit isSet
    cases other : second.relations.edgePayload relation.source relation.target with
    | none => exact .inl ⟨⟨⟨mask, payload⟩, rfl⟩, core, isSet⟩
    | some otherMask =>
      refine .inr ⟨_, (changedIff _).mpr ⟨mask, otherMask, payload, other, ?_⟩,
        mem_lostRelations.mpr ⟨rfl, core, isSet, isUnset⟩⟩
      rintro rfl
      rw [edgeRelations_of_payload payload] at isSet
      rw [edgeRelations_of_payload other, isSet] at isUnset
      cases isUnset

/-- The relations that one generation has and the other lacks: those of the edges
that go, the bits that go from an edge that stays, and the extensions. -/
def goneRelations (first second : Generation) (gone changed : List (NodeId × NodeId)) :
    List UiRelation :=
  gone.flatMap (relationsOfEdge first.relations) ++
    (changed.flatMap (lostRelations first second) ++
      first.extensionRelations.filter (· ∉ second.extensionRelations))

/-- Two lists of edges are what goes and what changes between two graphs. -/
structure Departs (first second : RelationGraph) (gone changed : List (NodeId × NodeId)) :
    Prop where
  goneOnce : gone.Nodup
  changedOnce : changed.Nodup
  gone : ∀ edge, edge ∈ gone ↔
    (∃ mask, first.edgePayload edge.1 edge.2 = some mask) ∧ second.edgePayload edge.1 edge.2 = none
  changed : ∀ edge, edge ∈ changed ↔ ∃ old new,
    first.edgePayload edge.1 edge.2 = some old ∧
      second.edgePayload edge.1 edge.2 = some new ∧ old ≠ new

theorem mem_goneRelations (firstValid : first.Valid) (secondValid : second.Valid)
    (departs : Departs first.relations second.relations gone changed) (relation : UiRelation) :
    relation ∈ goneRelations first second gone changed ↔
      relation ∈ first.snapshot.relations ∧ relation ∉ second.snapshot.relations := by
  have core := core_lost_iff firstValid secondValid departs.gone departs.changed relation
  have changedIff : relation ∈ changed.flatMap (lostRelations first second) ↔
      ∃ edge ∈ changed, relation ∈ lostRelations first second edge := mem_flatMap
  rw [goneRelations, mem_append, mem_append, changedIff, ← or_assoc, core,
    mem_filter, decide_eq_true_iff, firstValid.indexed.extension,
    secondValid.indexed.extension]
  constructor
  · rintro (⟨_, inFirst, notSecond⟩ | ⟨⟨inFirst, notCore⟩, notExtension⟩)
    · exact ⟨inFirst, notSecond⟩
    · exact ⟨inFirst, fun inSecond => notExtension ⟨inSecond, notCore⟩⟩
  rintro ⟨inFirst, notSecond⟩
  by_cases isCore : relation.relation.value < 32
  · exact .inl ⟨isCore, inFirst, notSecond⟩
  · exact .inr ⟨⟨inFirst, isCore⟩, fun extension => notSecond extension.1⟩

theorem nodup_goneRelations (firstValid : first.Valid)
    (departs : Departs first.relations second.relations gone changed) :
    (goneRelations first second gone changed).Nodup := by
  have extensionsOnce := firstValid.indexed.extensionOnce firstValid.relationsOnce
  apply Nodup.append
  · exact nodup_flatMap_edges departs.goneOnce
  · apply Nodup.append
    · exact nodup_flatMap_edges departs.changedOnce
    · exact extensionsOnce.filter _
    · intro relation inChanged inExtension
      rcases mem_flatMap.mp inChanged with ⟨edge, _, isLost⟩
      have core := (mem_lostRelations.mp isLost).2.1
      have extension := mem_of_mem_filter inExtension
      exact ((firstValid.indexed.extension relation).mp extension).2 core
  · intro relation inGone inRest
    rcases mem_flatMap_relations.mp inGone with ⟨isGone, core, _⟩
    rcases mem_append.mp inRest with inChanged | inExtension
    · rcases mem_flatMap.mp inChanged with ⟨edge, isChanged, isLost⟩
      obtain rfl := (mem_lostRelations.mp isLost).1
      rcases (departs.changed _).mp isChanged with ⟨_, _, _, kept, _⟩
      cases kept.symm.trans ((departs.gone _).mp isGone).2
    · have extension := mem_of_mem_filter inExtension
      exact ((firstValid.indexed.extension relation).mp extension).2 core

/-- The items that go, nodes first. -/
def goneItems (nodes : List NodeId) (relations : List UiRelation) : List Item :=
  nodes.map .node ++ relations.map .relation

theorem mem_goneItems {nodes : List NodeId} {relations : List UiRelation} {items : Set Item}
    (mem_nodes : ∀ node, node ∈ nodes ↔ .node node ∈ items)
    (mem_relations : ∀ relation, relation ∈ relations ↔ .relation relation ∈ items)
    (item : Item) : item ∈ goneItems nodes relations ↔ item ∈ items := by
  cases item with
  | node node => simp [goneItems, mem_nodes]
  | relation relation => simp [goneItems, mem_relations]

theorem nodup_goneItems (nodesOnce : nodes.Nodup) (relationsOnce : relations.Nodup) :
    (goneItems nodes relations).Nodup := by
  apply Nodup.append
  · exact nodesOnce.map fun _ _ same => Item.node.inj same
  · exact relationsOnce.map fun _ _ same => Item.relation.inj same
  intro item isNode isRelation
  rcases mem_map.mp isNode with ⟨node, _, rfl⟩
  rcases mem_map.mp isRelation with ⟨relation, _, impossible⟩
  cases impossible

/-- The batch is, up to order, one removal for each item that goes and one
addition for each that comes. -/
theorem editsOf_sameScope_perm
    (differs : graphDifference before.relations after.relations = delta) :
    List.Perm (editsOf (deriveSameScopeEvents before after))
      ((goneItems delta.removedNodes
          (goneRelations before after delta.removedEdges delta.changedEdges)).map .remove ++
        (goneItems delta.addedNodes
          (goneRelations after before delta.addedEdges delta.changedEdges)).map .add) := by
  have bits : (delta.changedEdges.flatMap fun edge =>
      relationEdits .remove (lostRelations before after edge) ++
        relationEdits .add (lostRelations after before edge)).Perm
      (relationEdits .remove (delta.changedEdges.flatMap (lostRelations before after)) ++
        relationEdits .add (delta.changedEdges.flatMap (lostRelations after before))) := by
    rw [relationEdits, relationEdits, map_flatMap, map_flatMap]
    exact (flatMap_append_perm _ _ _).symm
  have gone : ∀ (edit : Item → Edit Item) nodes relations,
      (goneItems nodes relations).map edit =
        nodes.map (fun node => edit (.node node)) ++ relationEdits edit relations := by
    intro edit nodes relations
    rw [goneItems, map_append, map_map, map_map]
    rfl
  have joined : ∀ (edit : Item → Edit Item) front back,
      relationEdits edit (front ++ back) = relationEdits edit front ++ relationEdits edit back :=
    fun _ _ _ => map_append
  rw [editsOf_sameScope differs, gone, gone, goneRelations, goneRelations, joined, joined, joined,
    joined, perm_iff_count]
  intro edit
  have counted := bits.count_eq edit
  simp only [count_append] at counted ⊢
  omega

theorem departs_of_isDelta {first second : RelationGraph} (isDelta : IsDelta first second delta) :
    Departs first second delta.removedEdges delta.changedEdges where
  gone := isDelta.removedEdges
  changed := isDelta.changedEdges
  goneOnce := isDelta.once.2.2.2.1
  changedOnce := isDelta.once.2.2.2.2

/-- Read backwards, the edges that came are the ones that go. -/
theorem arrives_of_isDelta {first second : RelationGraph} (isDelta : IsDelta first second delta) :
    Departs second first delta.addedEdges delta.changedEdges where
  gone := isDelta.addedEdges
  changed edge := by
    rw [isDelta.changedEdges]
    constructor
    · rintro ⟨old, new, hadOld, hasNew, differ⟩
      exact ⟨new, old, hasNew, hadOld, differ.symm⟩
    · rintro ⟨new, old, hasNew, hadOld, differ⟩
      exact ⟨old, new, hadOld, hasNew, differ.symm⟩
  goneOnce := isDelta.once.2.2.1
  changedOnce := isDelta.once.2.2.2.2

theorem containsNode_eq_false_iff (valid : generation.Valid) (node : NodeId) :
    generation.relations.containsNode node = false ↔ .node node ∉ generation.items := by
  rw [← Bool.not_eq_true]
  exact not_congr (valid.indexed.nodes node)

theorem isDifference_events (beforeValid : before.Valid) (afterValid : after.Valid) :
    Edit.IsDifference before.items after.items (editsOf (deriveSameScopeEvents before after)) := by
  have delta := graphDifference_isDelta beforeValid.indexed.mirrored afterValid.indexed.mirrored
  generalize differs : graphDifference before.relations after.relations = difference at delta
  apply Edit.IsDifference.of_perm (editsOf_sameScope_perm differs)
  · exact nodup_goneItems delta.once.2.1
      (nodup_goneRelations beforeValid (departs_of_isDelta delta))
  · exact nodup_goneItems delta.once.1 (nodup_goneRelations afterValid (arrives_of_isDelta delta))
  · apply @mem_goneItems _ _ {item | item ∈ before.items ∧ item ∉ after.items}
    · intro node
      rw [delta.removedNodes, containsNode_eq_false_iff afterValid]
      exact and_congr_left fun _ => beforeValid.indexed.nodes node
    · exact mem_goneRelations beforeValid afterValid (departs_of_isDelta delta)
  apply @mem_goneItems _ _ {item | item ∈ after.items ∧ item ∉ before.items}
  · intro node
    rw [delta.addedNodes, containsNode_eq_false_iff beforeValid]
    exact and_congr_left fun _ => afterValid.indexed.nodes node
  · exact mem_goneRelations afterValid beforeValid (arrives_of_isDelta delta)

end

end Grab.Kernel
