import Grab.Query.Evaluator

/-!
# Navigating a snapshot

A snapshot answers for its nodes by the first record of an id, and for related
nodes by buckets it fills from its relations.
-/

namespace Grab

/-- The nodes one node is related to by one relation, in the order they came. -/
structure RelationBucket where
  node : NodeId
  relation : RelationId
  relatedNodes : List NodeId

def appendRelated (node : NodeId) (relation : RelationId) (related : NodeId) :
    List RelationBucket → List RelationBucket
  | [] => [⟨node, relation, [related]⟩]
  | bucket :: rest =>
    if bucket.node = node ∧ bucket.relation = relation then
      { bucket with relatedNodes := bucket.relatedNodes ++ [related] } :: rest
    else bucket :: appendRelated node relation related rest

def findRelated (buckets : List RelationBucket) (node : NodeId) (relation : RelationId) :
    List NodeId :=
  match buckets.find? fun bucket => bucket.node = node ∧ bucket.relation = relation with
  | some bucket => bucket.relatedNodes
  | none => []

namespace UiSnapshot

def forward (snapshot : UiSnapshot) : List RelationBucket :=
  snapshot.relations.foldl
    (fun buckets record => appendRelated record.source record.relation record.target buckets) []

def reverse (snapshot : UiSnapshot) : List RelationBucket :=
  snapshot.relations.foldl
    (fun buckets record => appendRelated record.target record.relation record.source buckets) []

/-- The first record of an id. -/
def node (snapshot : UiSnapshot) (id : NodeId) : Option UiNodeRecord :=
  snapshot.nodes.find? fun record => record.id = id

def related (snapshot : UiSnapshot) (source : NodeId) (relation : RelationId) : List NodeId :=
  findRelated snapshot.forward source relation

def relatedReverse (snapshot : UiSnapshot) (target : NodeId) (relation : RelationId) :
    List NodeId :=
  findRelated snapshot.reverse target relation

end UiSnapshot

namespace Kernel.Query

def snapshotTreeNav (snapshot : UiSnapshot) : TreeNav where
  metadata :=
    { runtime := snapshot.metadata.runtime
      tree := snapshot.metadata.tree
      epoch := snapshot.metadata.epoch
      revision := snapshot.metadata.revision
      provider := "snapshot" }
  nodes := snapshot.nodes.map UiNodeRecord.id
  roots := snapshot.roots
  contains id := (snapshot.node id).isSome
  role id :=
    match snapshot.node id with
    | none => ⟨0⟩
    | some record => record.role
  states id :=
    match snapshot.node id with
    | none => 0
    | some record => record.states
  property id property :=
    match snapshot.node id with
    | none => {}
    | some record => record.property property
  children id := snapshot.related id Relation.contains
  parents id := snapshot.relatedReverse id Relation.contains
  related := snapshot.related
  relatedReverse := snapshot.relatedReverse
  generation id :=
    match snapshot.node id with
    | none => ⟨0⟩
    | some record => record.generation
  provenance id :=
    match snapshot.node id with
    | none => ⟨⟨0⟩, 0⟩
    | some record => record.provenance

theorem node_of_mem {snapshot : UiSnapshot} {id : NodeId}
    (member : id ∈ (snapshotTreeNav snapshot).nodes) :
    ∃ record, snapshot.node id = some record := by
  rcases List.mem_map.mp member with ⟨record, isNode, rfl⟩
  exact Option.isSome_iff_exists.mp (List.find?_isSome.mpr ⟨record, isNode, by simp⟩)

end Kernel.Query

end Grab
