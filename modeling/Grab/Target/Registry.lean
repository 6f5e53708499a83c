import Grab.Sequence.Types
import Grab.Space
import Grab.Lib.Mirror

/-!
# The target registry

Durable targets with two secondary indexes: the target an exact and active alias
identifies, and the target that owns a surface.  The operations keep both indexes
by hand; `Consistent` says that they mirror the records, and every history of
calls keeps it.
-/

namespace Grab.Kernel

open Std Grab.Lib

/-! ## Records -/

structure TargetId where
  value : UInt64
  deriving DecidableEq, Repr

instance : Ord TargetId where
  compare left right := compare left.value right.value

instance : TransOrd TargetId where
  eq_swap {left right} := @OrientedCmp.eq_swap UInt64 compare _ left.value right.value
  isLE_trans {first second third} :=
    @TransCmp.isLE_trans UInt64 compare _ first.value second.value third.value

instance : LawfulEqOrd TargetId where
  eq_of_compare {_ _} equal :=
    congrArg TargetId.mk (@LawfulEqCmp.eq_of_compare UInt64 compare _ _ _ equal)

structure SurfaceId where
  value : UInt64
  deriving DecidableEq, Repr

instance : Ord SurfaceId where
  compare left right := compare left.value right.value

instance : TransOrd SurfaceId where
  eq_swap {left right} := @OrientedCmp.eq_swap UInt64 compare _ left.value right.value
  isLE_trans {first second third} :=
    @TransCmp.isLE_trans UInt64 compare _ first.value second.value third.value

instance : LawfulEqOrd SurfaceId where
  eq_of_compare {_ _} equal :=
    congrArg SurfaceId.mk (@LawfulEqCmp.eq_of_compare UInt64 compare _ _ _ equal)

inductive TargetGrade where
  | application | window
  deriving DecidableEq, Repr

inductive AliasConfidence where
  | candidate | exact
  deriving DecidableEq, Repr

inductive AliasValidity where
  | active | inactive
  deriving DecidableEq, Repr

/-- The pair that identifies a target when it is exact and active. -/
structure AliasKey where
  authority : String
  nativeId : String
  deriving DecidableEq, Repr

instance : Ord AliasKey where
  compare := compareLex (compareOn AliasKey.authority) (compareOn AliasKey.nativeId)

instance : TransOrd AliasKey :=
  inferInstanceAs
    (TransCmp (compareLex (compareOn AliasKey.authority) (compareOn AliasKey.nativeId)))

instance : LawfulEqOrd AliasKey where
  eq_of_compare {first second} equal := by
    rcases compareLex_eq_eq.mp equal with ⟨authorities, nativeIds⟩
    cases first
    cases second
    exact congrArg₂ AliasKey.mk (LawfulEqCmp.eq_of_compare authorities)
      (LawfulEqCmp.eq_of_compare nativeIds)

structure AliasEdge where
  authority : String
  nativeId : String
  confidence : AliasConfidence := .candidate
  validity : AliasValidity := .active
  deriving DecidableEq

def AliasEdge.key (edge : AliasEdge) : AliasKey := ⟨edge.authority, edge.nativeId⟩

structure TargetObservation where
  grade : TargetGrade := .window
  aliasEdge : Option AliasEdge := none
  title : String := ""
  pid : Option UInt32 := none
  bounds : Option SpaceRect := none
  deriving DecidableEq

structure SurfaceRecord where
  id : SurfaceId
  generation : UInt32
  space : CoordinateSpaceId
  bounds : SpaceRect
  deriving DecidableEq

structure TargetRecord where
  id : TargetId
  grade : TargetGrade
  aliases : List AliasEdge := []
  observations : List TargetObservation := []
  surfaces : List SurfaceRecord := []
  deriving DecidableEq

structure TargetRegistry where
  targets : ExtTreeMap TargetId TargetRecord compare := ∅
  exactActiveAliases : ExtTreeMap AliasKey TargetId compare := ∅
  surfaceOwners : ExtTreeMap SurfaceId TargetId compare := ∅
  nextId : UInt64 := 1

/-! ## Checks -/

def isFusing (edge : AliasEdge) : Bool := edge.confidence == .exact && edge.validity == .active

/-- The checks on the enumerations never fail here: they guard the source against
casts from other integers. -/
def validateAlias (edge : AliasEdge) : Except Error Unit :=
  if edge.authority = "" then
    .error ⟨.invalidArgument, "target alias authority must not be empty"⟩
  else if edge.nativeId = "" then
    .error ⟨.invalidArgument, "target alias native id must not be empty"⟩
  else .ok ()

def validateObservation (observation : TargetObservation) : Except Error Unit :=
  match observation.aliasEdge with
  | none => .ok ()
  | some edge => validateAlias edge

/-! ## Operations -/

/-- What a call leaves behind and what it answers. -/
abbrev Reply (α : Type) := TargetRegistry × Except Error α

namespace TargetRegistry

def fail {α : Type} (registry : TargetRegistry) (code : ErrorCode) (message : String) : Reply α :=
  (registry, .error ⟨code, message⟩)

def setTarget (registry : TargetRegistry) (id : TargetId) (record : TargetRecord) :
    TargetRegistry :=
  { registry with targets := registry.targets.insert id record }

/-- An observation of a known target. -/
def joinTarget (registry : TargetRegistry) (id : TargetId) (edge : AliasEdge)
    (observation : TargetObservation) : Reply TargetId :=
  match registry.targets[id]? with
  | none => fail registry .internalFault "target alias index is inconsistent"
  | some record =>
    if record.grade ≠ observation.grade then
      fail registry .invalidArgument "exact target alias was observed at a different grade"
    else
      (setTarget registry id
        { record with
          aliases := if edge ∈ record.aliases then record.aliases else record.aliases ++ [edge]
          observations := record.observations ++ [observation] }, .ok id)

/-- An observation of a new target. -/
def createTarget (registry : TargetRegistry) (observation : TargetObservation) : Reply TargetId :=
  if registry.nextId = 0xFFFFFFFFFFFFFFFF then
    fail registry .overflowed "target registry exhausted its identity space"
  else
    let id : TargetId := ⟨registry.nextId⟩
    let record : TargetRecord :=
      { id := id
        grade := observation.grade
        aliases := observation.aliasEdge.toList
        observations := [observation] }
    if id ∈ registry.targets then
      fail registry .internalFault "target registry generated a duplicate identity"
    else
      let inserted := setTarget registry id record
      match observation.aliasEdge.filter isFusing with
      | none => ({ inserted with nextId := registry.nextId + 1 }, .ok id)
      | some edge =>
        if edge.key ∈ registry.exactActiveAliases then
          fail { inserted with targets := inserted.targets.erase id } .internalFault
            "target alias index generated a duplicate key"
        else
          ({ inserted with
              exactActiveAliases := registry.exactActiveAliases.insert edge.key id
              nextId := registry.nextId + 1 }, .ok id)

def observe (registry : TargetRegistry) (observation : TargetObservation) : Reply TargetId :=
  match validateObservation observation with
  | .error error => (registry, .error error)
  | .ok () =>
    match observation.aliasEdge.filter isFusing with
    | none => createTarget registry observation
    | some edge =>
      match registry.exactActiveAliases[edge.key]? with
      | some id => joinTarget registry id edge observation
      | none => createTarget registry observation

/-- Does the key of a fusing alias identify another target? -/
def takenByOther (registry : TargetRegistry) (target : TargetId) (edge : AliasEdge) : Bool :=
  isFusing edge &&
    match registry.exactActiveAliases[edge.key]? with
    | none => false
    | some owner => owner != target

def attachAlias (registry : TargetRegistry) (target : TargetId) (edge : AliasEdge) : Reply Unit :=
  match validateAlias edge with
  | .error error => (registry, .error error)
  | .ok () =>
    match registry.targets[target]? with
    | none => fail registry .targetDetached "target is not present in the registry"
    | some record =>
      if takenByOther registry target edge then
        fail registry .invalidArgument "exact alias already identifies another target"
      else if edge ∈ record.aliases then (registry, .ok ())
      else
        let attached := setTarget registry target
          { record with aliases := record.aliases ++ [edge] }
        if isFusing edge then
          ({ attached with
              exactActiveAliases :=
                registry.exactActiveAliases.insertIfNew edge.key target }, .ok ())
        else (attached, .ok ())

/-- End the validity of an alias edge with the given key. -/
def deactivate (key : AliasKey) (edge : AliasEdge) : AliasEdge :=
  if edge.key = key ∧ edge.validity = .active then { edge with validity := .inactive }
  else edge

def invalidateAlias (registry : TargetRegistry) (authority nativeId : String) : Reply Unit :=
  let key : AliasKey := ⟨authority, nativeId⟩
  if authority = "" ∨ nativeId = "" then
    fail registry .invalidArgument "target alias key must not be empty"
  else
    match registry.exactActiveAliases[key]? with
    | none => fail registry .targetDetached "target alias is not active"
    | some target =>
      match registry.targets[target]? with
      | none => fail registry .internalFault "target alias index is inconsistent"
      | some record =>
        ({ setTarget registry target
            { record with aliases := record.aliases.map (deactivate key) } with
            exactActiveAliases := registry.exactActiveAliases.erase key }, .ok ())

/-- The position of a surface in a record. -/
def findSurface (record : TargetRecord) (surface : SurfaceId) : Option Nat :=
  record.surfaces.findIdx? fun existing => existing.id == surface

def registerSurface (registry : TargetRegistry) (target : TargetId) (surface : SurfaceRecord) :
    Reply Unit :=
  if surface.id.value = 0 then
    fail registry .invalidArgument "surface id must not be zero"
  else
    match registry.targets[target]? with
    | none => fail registry .targetDetached "target is not present in the registry"
    | some record =>
      match registry.surfaceOwners[surface.id]? with
      | some owner =>
        if owner ≠ target then
          fail registry .invalidArgument "surface already belongs to another target"
        else
          match findSurface record surface.id with
          | none =>
            fail registry .internalFault "surface ownership index is inconsistent"
          | some existing =>
            (setTarget registry target
              { record with surfaces := record.surfaces.set existing surface }, .ok ())
      | none =>
        match findSurface record surface.id with
        | some _ =>
          fail registry .internalFault "target surface record is missing its ownership index"
        | none =>
          ({ setTarget registry target
              { record with surfaces := record.surfaces ++ [surface] } with
              surfaceOwners := registry.surfaceOwners.insert surface.id target }, .ok ())

def removeSurface (registry : TargetRegistry) (target : TargetId) (surface : SurfaceId) :
    Reply Unit :=
  if surface.value = 0 then
    fail registry .invalidArgument "surface id must not be zero"
  else
    match registry.targets[target]? with
    | none => fail registry .targetDetached "target is not present in the registry"
    | some record =>
      match registry.surfaceOwners[surface]? with
      | none => fail registry .targetDetached "surface is not present in the registry"
      | some owner =>
        if owner ≠ target then
          fail registry .invalidArgument "surface belongs to another target"
        else
          match findSurface record surface with
          | none =>
            fail registry .internalFault "surface ownership index is inconsistent"
          | some existing =>
            ({ setTarget registry target
                { record with surfaces := record.surfaces.eraseIdx existing } with
                surfaceOwners := registry.surfaceOwners.erase surface }, .ok ())

end TargetRegistry

end Grab.Kernel
