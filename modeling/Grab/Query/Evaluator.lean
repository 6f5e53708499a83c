import Grab.Query.Plan
import Grab.Lib.Traversal

/-!
# Locator evaluation

Enumerate the scope breadth first, narrow it by what a provider answers, and
evaluate the plan at every candidate.  Evaluation also collects the predicates
that matched, as evidence.
-/

namespace Grab.Kernel.Query

open Grab Grab.Lib

/-! ## Checking a navigation -/

structure RelationUse where
  relation : RelationId
  reverse : Bool
  deriving DecidableEq

mutual

def collectRelationUses : LocatorPlan → List RelationUse
  | .all children => collectAllUses children
  | .any children => collectAllUses children
  | .not child => collectRelationUses child
  | .childOf child => collectRelationUses child
  | .descendantOf child => collectRelationUses child
  | .ancestorOf child => collectRelationUses child
  | .related relation child => ⟨relation, false⟩ :: collectRelationUses child
  | .relatedReverse relation child => ⟨relation, true⟩ :: collectRelationUses child
  | _ => []

def collectAllUses : List LocatorPlan → List RelationUse
  | [] => []
  | child :: rest => collectRelationUses child ++ collectAllUses rest

end

def validateEndpoints (endpoints known : List NodeId) (edgeKind : String) : Except Error Unit :=
  if endpoints.all (· ∈ known) then .ok ()
  else .error ⟨.invalidArgument, "TreeNav " ++ edgeKind ++ " endpoint is absent from nodes()"⟩

def validateNode (nav : TreeNav) (node : NodeId) : Except Error Unit :=
  if ¬nav.contains node then
    .error ⟨.invalidArgument, "TreeNav nodes() contains an unavailable node"⟩
  else do
    validateEndpoints (nav.children node) nav.nodes "child"
    validateEndpoints (nav.parents node) nav.nodes "parent"

def validateUse (nav : TreeNav) (entry : NodeId × RelationUse) : Except Error Unit :=
  validateEndpoints
    (if entry.2.reverse then nav.relatedReverse entry.1 entry.2.relation
      else nav.related entry.1 entry.2.relation)
    nav.nodes "relation"

def validateNavigation (nav : TreeNav) (plan : LocatorPlan) : Except Error Unit :=
  if ¬nav.nodes.Nodup then
    .error ⟨.invalidArgument, "TreeNav nodes() contains duplicate identities"⟩
  else do
    nav.nodes.forM (validateNode nav)
    validateEndpoints nav.roots nav.nodes "root"
    (nav.nodes.flatMap fun node =>
      (collectRelationUses plan).map fun use => (node, use)).forM (validateUse nav)

/-! ## Evaluating a plan -/

structure Evaluation where
  matched : Bool := false
  evidence : List String := []
  deriving DecidableEq

/-- Numbers are equal as numbers, and a NaN equals a NaN. -/
def numberEqual (left right : Double) : Bool :=
  left.numericEq right || (left == .nan && right == .nan)

def rectEqual (left right : SpaceRect) : Bool :=
  numberEqual left.x right.x && numberEqual left.y right.y && numberEqual left.w right.w &&
    numberEqual left.h right.h && left.space == right.space

def propertyEqual : PropertyValue → PropertyValue → Bool
  | .none, .none => true
  | .bool left, .bool right => left == right
  | .int left, .int right => left == right
  | .double left, .double right => numberEqual left right
  | .string left, .string right => left == right
  | .rect left, .rect right => rectEqual left right
  | _, _ => false

def evidenceFor : LocatorPlan → String
  | .matchAll => "match_all"
  | .matchNone => "match_none"
  | .role role => "role=" ++ roleName role
  | .state mask => "state=" ++ toString mask
  | .property property _ => "property=" ++ toString property.value
  | .accessibleName _ => "accessible_name"
  | .text _ => "text"
  | .all _ => "all"
  | .any _ => "any"
  | .not _ => "not"
  | .childOf _ => "child_of"
  | .descendantOf _ => "descendant_of"
  | .ancestorOf _ => "ancestor_of"
  | .related relation _ => "related=" ++ relationName relation
  | .relatedReverse relation _ => "related_reverse=" ++ relationName relation

def matched (plan : LocatorPlan) : Evaluation := ⟨true, [evidenceFor plan]⟩

def when (condition : Bool) (plan : LocatorPlan) : Evaluation :=
  if condition then matched plan else {}

def propertyHolds (nav : TreeNav) (node : NodeId) (id : PropertyId)
    (expected : PropertyValue) : Bool :=
  let read := nav.property node id
  read.state == .present && propertyEqual read.value expected

/-- Name the operator at the end of the evidence of a match. -/
def attest (plan : LocatorPlan) (result : Evaluation) : Evaluation :=
  if result.matched then { result with evidence := result.evidence ++ [evidenceFor plan] }
  else result

/-- The first neighbour that matches. -/
def firstMatch (evaluate : NodeId → Evaluation) : List NodeId → Evaluation
  | [] => {}
  | node :: rest =>
    let result := evaluate node
    if result.matched then result else firstMatch evaluate rest

/-- What the visitor of a walk does at one node: the origin is not considered, and
nothing is once a node has matched. -/
def visitRelation (evaluate : NodeId → Evaluation) (origin : NodeId) (result : Evaluation)
    (node : NodeId) : Evaluation :=
  if node = origin ∨ result.matched = true then result else evaluate node

def containsNode (nav : TreeNav) (node : NodeId) : Bool :=
  decide (node ∈ nav.nodes) && nav.contains node

/-- The nodes a depth-first search from the origin visits. -/
def depthFirstSearch (nav : TreeNav) (out : NodeId → List NodeId) (origin : NodeId) : List NodeId :=
  if containsNode nav origin then
    Traversal.depthFirst out (1 + Traversal.unseenEdges out nav.nodes []) [origin] []
  else []

def evaluateWalk (nav : TreeNav) (out : NodeId → List NodeId) (evaluate : NodeId → Evaluation)
    (origin : NodeId) : Evaluation :=
  (depthFirstSearch nav out origin).foldl (visitRelation evaluate origin) {}

mutual

def evaluate (nav : TreeNav) : LocatorPlan → NodeId → Evaluation
  | .matchAll, _ => matched .matchAll
  | .matchNone, _ => {}
  | .role role, node => when (nav.role node == role) (.role role)
  | .state mask, node => when (nav.states node &&& mask == mask) (.state mask)
  | .property property value, node =>
    when (propertyHolds nav node property value) (.property property value)
  | .accessibleName text, node =>
    when (propertyHolds nav node PropertyId.accessibleName (.string text))
      (.accessibleName text)
  | .text text, node =>
    when (propertyHolds nav node PropertyId.text (.string text)) (.text text)
  | .all children, node => evaluateAll nav children node []
  | .any children, node => evaluateAny nav children node
  | .not child, node =>
    if (evaluate nav child node).matched then {} else matched (.not child)
  | .childOf child, node =>
    attest (.childOf child) (firstMatch (evaluate nav child) (nav.parents node))
  | .descendantOf child, node =>
    attest (.descendantOf child) (evaluateWalk nav nav.parents (evaluate nav child) node)
  | .ancestorOf child, node =>
    attest (.ancestorOf child) (evaluateWalk nav nav.children (evaluate nav child) node)
  | .related relation child, node =>
    attest (.related relation child) (firstMatch (evaluate nav child) (nav.related node relation))
  | .relatedReverse relation child, node =>
    attest (.relatedReverse relation child)
      (firstMatch (evaluate nav child) (nav.relatedReverse node relation))

/-- Every child has to match; their evidence is put together. -/
def evaluateAll (nav : TreeNav) : List LocatorPlan → NodeId → List String → Evaluation
  | [], _, evidence => ⟨true, evidence⟩
  | child :: rest, node, evidence =>
    let result := evaluate nav child node
    if result.matched then evaluateAll nav rest node (evidence ++ result.evidence) else {}

/-- The first child that matches. -/
def evaluateAny (nav : TreeNav) : List LocatorPlan → NodeId → Evaluation
  | [], _ => {}
  | child :: rest, node =>
    let result := evaluate nav child node
    if result.matched then result else evaluateAny nav rest node

end

/-! ## Resolving a locator -/

structure LoweredCandidates where
  nodes : List NodeId
  provider : String

/-- What a provider that narrows a plan answers: an error, nothing, or candidates. -/
abbrev PlanLowerer := Locator → TreeNav → Except Error (Option LoweredCandidates)

structure QueryScope where
  navigation : TreeNav
  root : Option NodeId := none
  lowerer : Option PlanLowerer := none

def breadthFirstSearch (nav : TreeNav) (start : NodeId) : List NodeId :=
  if containsNode nav start then
    Traversal.breadthFirst nav.children nav.nodes.length [start] [start]
  else []

/-- Add the nodes a search visits that are not listed yet. -/
def visitCandidates (nav : TreeNav) : List NodeId → NodeId → List NodeId :=
  Traversal.sweep (breadthFirstSearch nav)

def enumerateScope (scope : QueryScope) : Except Error (List NodeId) :=
  let nav := scope.navigation
  match scope.root with
  | some root =>
    if containsNode nav root then .ok (visitCandidates nav [] root)
    else .error ⟨.noMatch, "query scope root is not present in the tree"⟩
  | none =>
    let fromRoots := nav.roots.foldl (visitCandidates nav) []
    .ok (nav.nodes.foldl
      (fun order node => if node ∈ order then order else visitCandidates nav order node)
      fromRoots)

structure EvaluatedMatch where
  node : NodeId
  evidence : List String
  candidateProvider : String
  deriving DecidableEq

/-- The candidates that remain and the provider that narrowed them. -/
def narrow (scope : QueryScope) (locator : Locator) (candidates : List NodeId) :
    Except Error (List NodeId × String) :=
  match scope.lowerer with
  | none => .ok (candidates, "")
  | some lower => do
      match ← lower locator scope.navigation with
      | none => return (candidates, "")
      | some narrowed => return (candidates.filter (· ∈ narrowed.nodes), narrowed.provider)

def evaluateMatches (locator : Locator) (scope : QueryScope) (maxNodes : Nat) :
    Except Error (List EvaluatedMatch) :=
  let complexity := locator.plan.nodeCount
  if maxNodes < complexity then
    .error ⟨.invalidArgument, "locator complexity " ++ toString complexity ++
      " exceeds max_nodes=" ++ toString maxNodes⟩
  else do
    validateNavigation scope.navigation locator.plan
    let candidates ← enumerateScope scope
    let narrowed ← narrow scope locator candidates
    return narrowed.1.filterMap fun candidate =>
      let result := evaluate scope.navigation locator.plan candidate
      if result.matched then some ⟨candidate, result.evidence, narrowed.2⟩ else none

structure WidgetRef where
  runtime : RuntimeId
  tree : UInt32
  epoch : TreeEpoch
  node : UInt64
  generation : NodeGeneration
  deriving DecidableEq

def makeRef (nav : TreeNav) (node : NodeId) : WidgetRef where
  runtime := nav.metadata.runtime
  tree := nav.metadata.tree
  epoch := nav.metadata.epoch
  node := node.value
  generation := nav.generation node

structure ProviderProvenance where
  provider : String
  candidateProvider : String
  runtime : RuntimeId
  revision : UInt64
  deriving DecidableEq

structure Match where
  ref : WidgetRef
  mode : ConsistencyMode
  snapshotRevision : UInt64
  matchedPredicates : List String
  provenance : ProviderProvenance
  deriving DecidableEq

def makeMatch (locator : Locator) (nav : TreeNav) (evaluated : EvaluatedMatch) : Match where
  ref := makeRef nav evaluated.node
  mode := locator.consistency
  snapshotRevision := nav.metadata.revision
  matchedPredicates := evaluated.evidence
  provenance :=
    { provider := nav.metadata.provider
      candidateProvider := evaluated.candidateProvider
      runtime := (nav.provenance evaluated.node).runtime
      revision := (nav.provenance evaluated.node).revision }

def resolveAll (locator : Locator) (scope : QueryScope) (maxNodes : Nat) :
    Except Error (List WidgetRef) := do
  let found ← evaluateMatches locator scope maxNodes
  return found.map fun evaluated => makeRef scope.navigation evaluated.node

def resolve (locator : Locator) (cardinality : Cardinality) (scope : QueryScope)
    (maxNodes : Nat) : Except Error Match :=
  if cardinality = .all then
    .error ⟨.invalidArgument, "Cardinality::All returns a NodeSet through resolve_all"⟩
  else do
    let found ← evaluateMatches locator scope maxNodes
    match found with
    | [] => .error ⟨.noMatch, "locator matched no nodes"⟩
    | first :: rest =>
      if cardinality = .exactlyOne ∧ rest ≠ [] then
        .error ⟨.ambiguousMatch, "locator matched " ++ toString (rest.length + 1) ++ " nodes"⟩
      else .ok (makeMatch locator scope.navigation first)

end Grab.Kernel.Query
