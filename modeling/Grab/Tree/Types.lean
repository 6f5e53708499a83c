import Grab.Sequence.Types
import Grab.Space

/-!
# Snapshots and updates of a semantic tree

The records a runtime reports: nodes with their properties, relations between
them, and the three kinds of update a tree source sends.  A snapshot's lookups of
related nodes are not fields of it: they are functions of its relations.
-/

namespace Grab

open Std

/-! ## Identities -/

structure NodeId where
  value : UInt64
  deriving DecidableEq, Repr

/-- Ids compare as their words. -/
instance : Ord NodeId where
  compare left right := compare left.value right.value

instance : TransOrd NodeId where
  eq_swap {left right} := @OrientedCmp.eq_swap UInt64 compare _ left.value right.value
  isLE_trans {first second third} :=
    @TransCmp.isLE_trans UInt64 compare _ first.value second.value third.value

instance : LawfulEqOrd NodeId where
  eq_of_compare {_ _} equal :=
    congrArg NodeId.mk (@LawfulEqCmp.eq_of_compare UInt64 compare _ _ _ equal)

structure RelationId where
  value : UInt32
  deriving DecidableEq, Repr

instance : Ord RelationId where
  compare left right := compare left.value right.value

instance : TransOrd RelationId where
  eq_swap {left right} := @OrientedCmp.eq_swap UInt32 compare _ left.value right.value
  isLE_trans {first second third} :=
    @TransCmp.isLE_trans UInt32 compare _ first.value second.value third.value

instance : LawfulEqOrd RelationId where
  eq_of_compare {_ _} equal :=
    congrArg RelationId.mk (@LawfulEqCmp.eq_of_compare UInt32 compare _ _ _ equal)

structure RuntimeId where
  value : UInt32
  deriving DecidableEq, Repr

structure TreeEpoch where
  value : UInt32
  deriving DecidableEq, Repr

structure NodeGeneration where
  value : UInt32
  deriving DecidableEq, Inhabited, Repr

structure RoleId where
  value : UInt32
  deriving DecidableEq, Inhabited, Repr

structure PropertyId where
  value : UInt32
  deriving DecidableEq, Inhabited, Repr

namespace Relation

def contains : RelationId := ⟨0⟩

/-- Number of relations of the closed core table. -/
def coreCount : UInt32 := 14

/-- Ids below this are reserved for core relations; extensions start here. -/
def coreBitCount : UInt32 := 32

end Relation

/-! ## Properties -/

inductive PropertyValue where
  | none
  | bool (value : Bool)
  | int (value : Int64)
  | double (value : Lib.Double)
  | string (value : String)
  | rect (value : SpaceRect)
  deriving DecidableEq

inductive PropertyState where
  | present | absent | unsupported | uncached | backendFailed
  deriving DecidableEq, Repr

structure PropertyRead where
  state : PropertyState := .absent
  value : PropertyValue := .none
  deriving DecidableEq

instance : Inhabited PropertyRead := ⟨{}⟩

/-! ## Snapshots -/

structure UiProvenance where
  runtime : RuntimeId
  revision : UInt64
  deriving DecidableEq

structure UiNodeRecord where
  id : NodeId
  generation : NodeGeneration
  role : RoleId
  states : UInt32
  facets : UInt32
  /-- Property ids and reads, paired as the two parallel vectors are. -/
  properties : List (PropertyId × PropertyRead)
  provenance : UiProvenance
  deriving DecidableEq

namespace UiNodeRecord

def propertyIds (record : UiNodeRecord) : List PropertyId := record.properties.map Prod.fst

/-- The first read under an id, or an absent one. -/
def property (record : UiNodeRecord) (id : PropertyId) : PropertyRead :=
  match record.properties.find? fun entry => entry.1 == id with
  | some entry => entry.2
  | none => {}

end UiNodeRecord

structure UiSnapshotMetadata where
  runtime : RuntimeId
  tree : UInt32
  epoch : TreeEpoch
  revision : UInt64
  complete : Bool := true
  deriving DecidableEq

structure UiRelation where
  source : NodeId
  target : NodeId
  relation : RelationId
  deriving DecidableEq, Repr

structure UiSnapshot where
  metadata : UiSnapshotMetadata
  nodes : List UiNodeRecord
  roots : List NodeId
  relations : List UiRelation
  deriving DecidableEq

/-! ## Updates -/

namespace Spi

inductive RelationChangeKind where
  | add | remove
  deriving DecidableEq, Repr

structure RelationChange where
  kind : RelationChangeKind
  change : UiRelation
  deriving DecidableEq

structure UiDelta where
  metadata : UiSnapshotMetadata
  baseRevision : UInt64
  addedNodes : List UiNodeRecord := []
  changedNodes : List UiNodeRecord := []
  removedNodes : List NodeId := []
  relationChanges : List RelationChange := []
  deriving DecidableEq

structure TreeGap where
  runtime : RuntimeId
  tree : UInt32
  epoch : TreeEpoch
  lastSourceSequence : UInt64
  dropped : UInt64
  deriving DecidableEq

inductive Payload where
  | snapshot (snapshot : UiSnapshot)
  | delta (delta : UiDelta)
  | gap (gap : TreeGap)
  deriving DecidableEq

structure UiUpdate where
  sourceSequence : UInt64
  payload : Payload
  deriving DecidableEq

end Spi

end Grab
