import Grab.Tree.Indexed
import Grab.Lib.Edits

/-!
# Change events

The batch of events an update emits: the difference of two generations of one
scope, or the removal of everything and the addition of everything when the
scope changed.  Read as edits of the set of nodes and relations, the batch is
exact.
-/

namespace Grab.Kernel

open Std Grab.Graph Grab.Lib

inductive TreeEventKind where
  | nodeAdded | nodeRemoved | nodeChanged | relationAdded | relationRemoved
  deriving DecidableEq, Repr

structure TreeEvent where
  kind : TreeEventKind
  runtime : RuntimeId
  tree : UInt32
  epoch : TreeEpoch
  revision : UInt64
  node : NodeId
  related : NodeId := ⟨0⟩
  relation : RelationId := ⟨0⟩
  deriving DecidableEq

/-! ## Facts of a node -/

/-- Doubles compare as numbers, so a rectangle with a NaN never equals itself. -/
def propertyValueEqual : PropertyValue → PropertyValue → Bool
  | .none, .none => true
  | .bool left, .bool right => left == right
  | .int left, .int right => left == right
  | .double left, .double right => left.numericEq right
  | .string left, .string right => left == right
  | .rect left, .rect right =>
    left.x.numericEq right.x && left.y.numericEq right.y && left.w.numericEq right.w &&
      left.h.numericEq right.h && left.space == right.space
  | _, _ => false

def propertyReadEqual (left right : PropertyRead) : Bool :=
  left.state == right.state && (left.state != .present || propertyValueEqual left.value right.value)

/-- The read a property column entry refers to. -/
def propertyAt (generation : Generation) (slice : PropertySlice) (index : Nat) : PropertyRead :=
  generation.propertyValues.getD
    (slice.offset + generation.propertyValueIndexes.getD (slice.offset + index) 0) default

/-- Does the first property of the later slice with the same id read the same? -/
def sameProperty (before after : Generation) (beforeSlice afterSlice : PropertySlice)
    (index : Nat) : Bool :=
  let id := before.propertyIds.getD (beforeSlice.offset + index) default
  match (List.range afterSlice.count).find? fun candidate =>
      after.propertyIds.getD (afterSlice.offset + candidate) default == id with
  | none => false
  | some candidate =>
    propertyReadEqual (propertyAt before beforeSlice index) (propertyAt after afterSlice candidate)

/-- Every index is in range: the columns grow together with the node index. -/
def sameNodeFacts (before : Generation) (beforeIndex : Nat) (after : Generation)
    (afterIndex : Nat) : Bool :=
  let beforeSlice := before.propertySlices.getD beforeIndex default
  let afterSlice := after.propertySlices.getD afterIndex default
  before.nodeGenerations.getD beforeIndex default ==
      after.nodeGenerations.getD afterIndex default &&
    before.roles.getD beforeIndex default == after.roles.getD afterIndex default &&
    before.states.getD beforeIndex default == after.states.getD afterIndex default &&
    beforeSlice.count == afterSlice.count &&
    (List.range beforeSlice.count).all (sameProperty before after beforeSlice afterSlice)

/-! ## Deriving a batch -/

def nodeEvent (kind : TreeEventKind) (generation : Generation) (node : NodeId) : TreeEvent where
  kind := kind
  runtime := generation.snapshot.metadata.runtime
  tree := generation.snapshot.metadata.tree
  epoch := generation.snapshot.metadata.epoch
  revision := generation.snapshot.metadata.revision
  node := node

def relationEvent (kind : TreeEventKind) (generation : Generation) (relation : UiRelation) :
    TreeEvent :=
  { nodeEvent kind generation relation.source with
    related := relation.target
    relation := relation.relation }

/-- The relations a mask stands for, in the order of their bits. -/
def bitRelations (source target : NodeId) (bits : RelationSet) : List UiRelation :=
  ((List.range 32).filter fun index => bits &&& 1#32 <<< index != 0#32).map fun index =>
    ⟨source, target, ⟨UInt32.ofNat index⟩⟩

def edgeRelations (graph : RelationGraph) (edge : NodeId × NodeId) : RelationSet :=
  (graph.edgePayload edge.1 edge.2).getD 0#32

/-- The relations of one edge; none when the edge is absent. -/
def relationsOfEdge (graph : RelationGraph) (edge : NodeId × NodeId) : List UiRelation :=
  bitRelations edge.1 edge.2 (edgeRelations graph edge)

/-- Nodes of both generations whose facts differ. -/
def changedNodes (before after : Generation) : List NodeId :=
  (after.nodeIndexes.toList.filter fun entry =>
    match before.nodeIndexes[entry.1]? with
    | none => false
    | some index => !sameNodeFacts before index after entry.2).map Prod.fst

def changedEdgeEvents (before after : Generation) (edge : NodeId × NodeId) : List TreeEvent :=
  let beforeBits := edgeRelations before.relations edge
  let afterBits := edgeRelations after.relations edge
  (bitRelations edge.1 edge.2 (beforeBits &&& ~~~afterBits)).map
      (relationEvent .relationRemoved before) ++
    (bitRelations edge.1 edge.2 (afterBits &&& ~~~beforeBits)).map
      (relationEvent .relationAdded after)

def deriveSameScopeEvents (before after : Generation) : List TreeEvent :=
  let delta := graphDifference before.relations after.relations
  delta.removedNodes.map (nodeEvent .nodeRemoved before) ++
    (delta.addedNodes.map (nodeEvent .nodeAdded after) ++
    ((changedNodes before after).map (nodeEvent .nodeChanged after) ++
    ((delta.removedEdges.flatMap (relationsOfEdge before.relations)).map
      (relationEvent .relationRemoved before) ++
    ((delta.addedEdges.flatMap (relationsOfEdge after.relations)).map
      (relationEvent .relationAdded after) ++
    (delta.changedEdges.flatMap (changedEdgeEvents before after) ++
    ((before.extensionRelations.filter (· ∉ after.extensionRelations)).map
      (relationEvent .relationRemoved before) ++
    (after.extensionRelations.filter (· ∉ before.extensionRelations)).map
      (relationEvent .relationAdded after)))))))

/-- The removal of everything a generation has. -/
def removalEvents (before : Generation) : List TreeEvent :=
  let removed := graphDifference before.relations {}
  removed.removedNodes.map (nodeEvent .nodeRemoved before) ++
    ((removed.removedEdges.flatMap (relationsOfEdge before.relations)).map
      (relationEvent .relationRemoved before) ++
    before.extensionRelations.map (relationEvent .relationRemoved before))

/-- The addition of everything a generation has. -/
def additionEvents (after : Generation) : List TreeEvent :=
  let added := graphDifference {} after.relations
  added.addedNodes.map (nodeEvent .nodeAdded after) ++
    ((added.addedEdges.flatMap (relationsOfEdge after.relations)).map
      (relationEvent .relationAdded after) ++
    after.extensionRelations.map (relationEvent .relationAdded after))

/-- Runtime, tree and epoch name the scope of a generation. -/
def sameScope (first second : UiSnapshotMetadata) : Bool :=
  first.runtime == second.runtime && first.tree == second.tree && first.epoch == second.epoch

def deriveReplacementEvents (before : Option Generation) (after : Generation) : List TreeEvent :=
  match before with
  | none => additionEvents after
  | some before =>
    if sameScope before.snapshot.metadata after.snapshot.metadata then
      deriveSameScopeEvents before after
    else removalEvents before ++ additionEvents after

/-! ## Batches as edits -/

/-- What a generation consists of. -/
inductive Item where
  | node (node : NodeId)
  | relation (relation : UiRelation)
  deriving DecidableEq

def Generation.items (generation : Generation) : Set Item
  | .node node => ∃ record ∈ generation.snapshot.nodes, record.id = node
  | .relation relation => relation ∈ generation.snapshot.relations

/-- The nodes and relations of a store that may be empty. -/
def itemsOf (generation : Option Generation) : Set Item :=
  match generation with
  | none => ∅
  | some generation => generation.items

/-- The edit an event reports; a change of facts is none. -/
def TreeEvent.edit (event : TreeEvent) : Option (Edit Item) :=
  match event.kind with
  | .nodeAdded => some (.add (.node event.node))
  | .nodeRemoved => some (.remove (.node event.node))
  | .nodeChanged => none
  | .relationAdded =>
    some (.add (.relation ⟨event.node, event.related, event.relation⟩))
  | .relationRemoved =>
    some (.remove (.relation ⟨event.node, event.related, event.relation⟩))

def editsOf (events : List TreeEvent) : List (Edit Item) := events.filterMap TreeEvent.edit

end Grab.Kernel
