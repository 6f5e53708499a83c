import Grab.Tree.Types
import Grab.Graph.Difference
import Grab.Lib.Attempts

/-!
# Generations of a tree

A snapshot is validated as one transaction and then indexed: core relations
become one mask per edge of an adjacency graph, extension relations a sorted
list, and the facts of the nodes parallel columns.  `Indexed` says that nothing
is lost or invented on the way.
-/

namespace Grab.Kernel

open Std Grab.Graph Grab.Lib

/-! ## Rejections -/

/-- Why an update was refused, stamped with where it came from. -/
structure Rejection where
  code : ErrorCode
  message : String
  /-- The text in the target, the attempt and the diagnostics of the error. -/
  provenance : String
  provider : String
  deriving DecidableEq, Repr

def provenanceText (metadata : UiSnapshotMetadata) : String :=
  "runtime=" ++ toString metadata.runtime.value ++ " tree=" ++ toString metadata.tree ++
    " epoch=" ++ toString metadata.epoch.value ++ " revision=" ++ toString metadata.revision

def rejection (code : ErrorCode) (message : String) (metadata : UiSnapshotMetadata) :
    Rejection :=
  ⟨code, message, provenanceText metadata, "runtime:" ++ toString metadata.runtime.value⟩

def rejected {α : Type} (code : ErrorCode) (message : String) (metadata : UiSnapshotMetadata) :
    Except Rejection α :=
  .error (rejection code message metadata)

/-! ## Validation -/

def maxPropertiesPerNode : Nat := 256

/-- Check one node against the ids of the nodes before it. -/
def checkNode (metadata : UiSnapshotMetadata) (known : List NodeId) (record : UiNodeRecord) :
    Except Rejection (List NodeId) :=
  if record.id.value = 0 then
    rejected .invalidArgument "node id must not be zero" metadata
  else if record.id ∈ known then
    rejected .invalidArgument ("duplicate node id " ++ toString record.id.value) metadata
  else if maxPropertiesPerNode < record.propertyIds.length then
    rejected .invalidArgument "node exceeds compact property limit" metadata
  else if ¬record.propertyIds.Nodup then
    rejected .invalidArgument
      ("duplicate property id on node " ++ toString record.id.value) metadata
  else
    .ok (known ++ [record.id])

def checkNodes (metadata : UiSnapshotMetadata) (nodes : List UiNodeRecord) :
    Except Rejection (List NodeId) :=
  nodes.foldlM (checkNode metadata) []

/-- The containment relation as it is collected. -/
structure Containment where
  seen : List UiRelation := []
  incoming : ExtTreeMap NodeId Nat compare := ∅
  children : ExtTreeMap NodeId (List NodeId) compare := ∅

def Containment.start (known : List NodeId) : Containment where
  incoming := known.foldl (fun counts node => counts.insertIfNew node 0) ∅
  children := known.foldl (fun lists node => lists.insertIfNew node []) ∅

def checkRelation (metadata : UiSnapshotMetadata) (known : List NodeId)
    (state : Containment) (relation : UiRelation) : Except Rejection Containment :=
  if relation.source ∉ known ∨ relation.target ∉ known then
    rejected .noMatch
      (if relation.relation = Relation.contains ∧ relation.source ∉ known then
        "unknown parent node"
      else "unknown relation endpoint")
      metadata
  else if relation.source = relation.target then
    rejected .protocolError
      (if relation.relation = Relation.contains then "contains cycle through self"
      else "self relation is invalid")
      metadata
  else if relation ∈ state.seen then
    rejected .invalidArgument "duplicate relation" metadata
  else if Relation.coreCount ≤ relation.relation.value ∧
      relation.relation.value < Relation.coreBitCount then
    rejected .invalidArgument "relation id is reserved outside the closed core table" metadata
  else if relation.relation = Relation.contains then
    .ok
      { seen := state.seen ++ [relation]
        incoming := state.incoming.insert relation.target
          (state.incoming.getD relation.target 0 + 1)
        children := state.children.insert relation.source
          (state.children.getD relation.source [] ++ [relation.target]) }
  else
    .ok { state with seen := state.seen ++ [relation] }

/-- Check one supplied root against the roots before it. -/
def checkRoot (metadata : UiSnapshotMetadata) (known : List NodeId)
    (incoming : ExtTreeMap NodeId Nat compare) (earlier : List NodeId) (root : NodeId) :
    Except Rejection (List NodeId) :=
  if root ∉ known then
    rejected .noMatch "unknown root node" metadata
  else if root ∈ earlier then
    rejected .invalidArgument "duplicate root node" metadata
  else if incoming.getD root 0 ≠ 0 then
    rejected .protocolError "root has a contains parent" metadata
  else
    .ok (earlier ++ [root])

/-- Take one containment edge off a child and queue the child with its last. -/
def releaseChild (state : List NodeId × ExtTreeMap NodeId Nat compare) (child : NodeId) :
    List NodeId × ExtTreeMap NodeId Nat compare :=
  let remaining := state.2.getD child 0 - 1
  (if remaining = 0 then state.1 ++ [child] else state.1, state.2.insert child remaining)

/-- Visit the nodes all of whose containers were visited.  A node is queued once,
so one unit of fuel for each node is enough. -/
def visitContained (children : ExtTreeMap NodeId (List NodeId) compare) :
    Nat → List NodeId → ExtTreeMap NodeId Nat compare → Nat → Nat
  | 0, _, _, visited => visited
  | _ + 1, [], _, visited => visited
  | fuel + 1, current :: ready, remaining, visited =>
    let next := (children.getD current []).foldl releaseChild (ready, remaining)
    visitContained children fuel next.1 next.2 (visited + 1)

def validateAndFindRoots (metadata : UiSnapshotMetadata) (nodes : List UiNodeRecord)
    (suppliedRoots : List NodeId) (relations : List UiRelation) :
    Except Rejection (List NodeId) := do
  let known ← checkNodes metadata nodes
  let state ← relations.foldlM (checkRelation metadata known) (Containment.start known)
  let _ ← suppliedRoots.foldlM (checkRoot metadata known state.incoming) []
  let roots := (state.incoming.toList.filter fun entry => entry.2 == 0).map Prod.fst
  if visitContained state.children nodes.length roots state.incoming 0 ≠ nodes.length then
    rejected .protocolError "contains relation cycle" metadata
  else
    .ok roots

def normalizedSnapshot (metadata : UiSnapshotMetadata) (nodes : List UiNodeRecord)
    (suppliedRoots : List NodeId) (relations : List UiRelation) :
    Except Rejection UiSnapshot := do
  let roots ← validateAndFindRoots metadata nodes suppliedRoots relations
  return ⟨metadata, nodes, roots, relations⟩

/-! ## Building -/

/-- The core relations of an edge as one mask. -/
abbrev RelationSet := BitVec 32

def relationBit (relation : RelationId) : RelationSet :=
  if 32 ≤ relation.value then 0#32 else 1#32 <<< relation.value.toNat

abbrev RelationGraph := AdjacencyGraph NodeId RelationSet

structure PropertySlice where
  offset : Nat
  count : Nat
  deriving DecidableEq

instance : Inhabited PropertySlice := ⟨0, 0⟩

/-- One snapshot with its indexes.  A node's facts stand at its dense index in
the columns, its properties in the slice of the property columns found there. -/
structure Generation where
  snapshot : UiSnapshot
  relations : RelationGraph := {}
  nodeIndexes : ExtTreeMap NodeId Nat compare := ∅
  nodeGenerations : List NodeGeneration := []
  roles : List RoleId := []
  states : List UInt32 := []
  propertySlices : List PropertySlice := []
  propertyIds : List PropertyId := []
  propertyValueIndexes : List Nat := []
  propertyValues : List PropertyRead := []
  extensionRelations : List UiRelation := []

def maxDenseNodes : Nat := 2 ^ 32

/-- Append one node's facts to the columns and the node to the graph. -/
def addRecord (metadata : UiSnapshotMetadata) (generation : Generation)
    (record : UiNodeRecord) : Except Rejection Generation :=
  let ids := record.propertyIds
  match generation.relations.addNode record.id with
  | none => rejected .internalFault "snapshot lists the same node id more than once" metadata
  | some relations =>
    .ok
      { generation with
        relations := relations
        nodeIndexes :=
          generation.nodeIndexes.insertIfNew record.id generation.nodeGenerations.length
        nodeGenerations := generation.nodeGenerations ++ [record.generation]
        roles := generation.roles ++ [record.role]
        states := generation.states ++ [record.states]
        propertySlices := generation.propertySlices ++ [⟨generation.propertyIds.length, ids.length⟩]
        propertyIds := generation.propertyIds ++ ids
        propertyValueIndexes := generation.propertyValueIndexes ++ List.range ids.length
        propertyValues := generation.propertyValues ++ ids.map record.property }

/-- Endpoints in the order of the map that collects the masks. -/
def endpointOrder : NodeId × NodeId → NodeId × NodeId → Ordering :=
  compareLex (compareOn Prod.fst) (compareOn Prod.snd)

instance : TransCmp endpointOrder :=
  inferInstanceAs (TransCmp (compareLex (compareOn Prod.fst) (compareOn Prod.snd)))

abbrev CoreRelations := ExtTreeMap (NodeId × NodeId) RelationSet endpointOrder

/-- Extension keys in the order of the multimap that holds them. -/
def extensionOrder : UiRelation → UiRelation → Ordering :=
  compareLex (compareOn UiRelation.source)
    (compareLex (compareOn UiRelation.target) (compareOn UiRelation.relation))

/-- Insert behind every equal key. -/
def insertExtension (keys : List UiRelation) (key : UiRelation) : List UiRelation :=
  keys.takeWhile (fun other => extensionOrder other key != .gt) ++
    key :: keys.dropWhile (fun other => extensionOrder other key != .gt)

/-- Sort one relation into the masks or the extensions. -/
def collectRelation (state : CoreRelations × List UiRelation) (relation : UiRelation) :
    CoreRelations × List UiRelation :=
  let bit := relationBit relation.relation
  if bit ≠ 0 then
    (state.1.insert (relation.source, relation.target)
      (state.1.getD (relation.source, relation.target) 0 ||| bit), state.2)
  else (state.1, insertExtension state.2 relation)

def addCoreEdge (metadata : UiSnapshotMetadata) (graph : RelationGraph)
    (entry : (NodeId × NodeId) × RelationSet) : Except Rejection RelationGraph :=
  match graph.addEdge entry.1.1 entry.1.2 entry.2 with
  | some grown => .ok grown
  | none =>
    rejected .internalFault ("relation names an endpoint the snapshot does not declare, " ++
      "or relates a node to itself") metadata

def buildGeneration (snapshot : UiSnapshot) : Except Rejection Generation := do
  if maxDenseNodes < snapshot.nodes.length then
    rejected .invalidArgument "tree exceeds dense node index limit" snapshot.metadata
  else
    let indexed ← snapshot.nodes.foldlM (addRecord snapshot.metadata)
      { snapshot := snapshot }
    let collected := snapshot.relations.foldl collectRelation (∅, [])
    let graph ← collected.1.toList.foldlM (addCoreEdge snapshot.metadata) indexed.relations
    return { indexed with relations := graph, extensionRelations := collected.2 }

/-! ## What validation establishes -/

section

variable {metadata : UiSnapshotMetadata} {nodes : List UiNodeRecord}
  {relations : List UiRelation} {known roots : List NodeId}

theorem normalizedSnapshot_ok {suppliedRoots : List NodeId} {snapshot : UiSnapshot}
    (accepted : normalizedSnapshot metadata nodes suppliedRoots relations = .ok snapshot) :
    validateAndFindRoots metadata nodes suppliedRoots relations = .ok snapshot.roots ∧
      snapshot = ⟨metadata, nodes, snapshot.roots, relations⟩ := by
  unfold normalizedSnapshot at accepted
  obtain ⟨roots, rootsOk, made⟩ := bind_ok accepted
  obtain rfl : (⟨metadata, nodes, roots, relations⟩ : UiSnapshot) = snapshot := Except.ok.inj made
  exact ⟨rootsOk, rfl⟩

end

end Grab.Kernel
