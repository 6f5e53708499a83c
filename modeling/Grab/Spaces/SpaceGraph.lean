import Grab.Sequence.Types
import Grab.Space
import Grab.Graph.Adjacency
import Grab.Lib.LayeredSearch

/-!
# The graph of coordinate spaces

Spaces are nodes and transforms are edges of one graph.  Every space has a
generation, and an edge that is older than one of its ends is stale.  A route
between two spaces is found by a breadth-first search whose visitor keeps a table
of routes, filled by the edges that lead to a space for the first time.

Coordinates are exact: an affine map has its entries in any commutative ring.
What `std::map::at` throws is `none`.
-/

namespace Grab.Spaces

open Std Grab.Graph Grab.Lib

instance ordCoordinateSpaceId : Ord CoordinateSpaceId where
  compare left right := compare left.value right.value

instance transOrdCoordinateSpaceId : TransOrd CoordinateSpaceId where
  eq_swap {left right} := @OrientedCmp.eq_swap UInt32 compare _ left.value right.value
  isLE_trans {first second third} :=
    @TransCmp.isLE_trans UInt32 compare _ first.value second.value third.value

instance lawfulEqOrdCoordinateSpaceId : LawfulEqOrd CoordinateSpaceId where
  eq_of_compare {_ _} equal :=
    congrArg CoordinateSpaceId.mk (@LawfulEqCmp.eq_of_compare UInt32 compare _ _ _ equal)

/-- From the most to the least trusted. -/
inductive TransformTrust where
  | exact | calibrated | heuristic | untrusted
  deriving DecidableEq, Repr

namespace TransformTrust

def rank : TransformTrust → Nat
  | .exact => 0
  | .calibrated => 1
  | .heuristic => 2
  | .untrusted => 3

def weakest (first second : TransformTrust) : TransformTrust :=
  if first.rank < second.rank then second else first

end TransformTrust

/-! ## Affine maps -/

structure Affine (α : Type) where
  xx : α
  xy : α
  tx : α
  yx : α
  yy : α
  ty : α
  deriving DecidableEq

namespace Affine

variable {α : Type} [CommRing α]

def identity : Affine α := ⟨1, 0, 0, 0, 1, 0⟩

def translation (x y : α) : Affine α := ⟨1, 0, x, 0, 1, y⟩

def compose (first second : Affine α) : Affine α where
  xx := second.xx * first.xx + second.xy * first.yx
  xy := second.xx * first.xy + second.xy * first.yy
  tx := second.xx * first.tx + second.xy * first.ty + second.tx
  yx := second.yx * first.xx + second.yy * first.yx
  yy := second.yx * first.xy + second.yy * first.yy
  ty := second.yx * first.tx + second.yy * first.ty + second.ty

/-- The image of a point. -/
def apply (transform : Affine α) (point : α × α) : α × α :=
  (transform.xx * point.1 + transform.xy * point.2 + transform.tx,
    transform.yx * point.1 + transform.yy * point.2 + transform.ty)

theorem identity_compose (transform : Affine α) : compose identity transform = transform := by
  simp [compose, identity]

@[simp]
theorem identity_apply (point : α × α) : (identity : Affine α).apply point = point := by
  simp [apply, identity]

theorem compose_apply (first second : Affine α) (point : α × α) :
    (compose first second).apply point = second.apply (first.apply point) := by
  simp only [apply, compose, Prod.mk.injEq]
  constructor <;> ring

end Affine

structure TransformRecord (α : Type) where
  source : CoordinateSpaceId
  destination : CoordinateSpaceId
  map : Affine α
  mappingId : UInt64
  generation : UInt32
  trust : TransformTrust
  deriving DecidableEq

/-- A point with the space it is measured in. -/
structure SpacePoint (α : Type) where
  x : α
  y : α
  space : CoordinateSpaceId
  deriving DecidableEq

abbrev TransformGraph (α : Type) := AdjacencyGraph CoordinateSpaceId (TransformRecord α)

abbrev GenerationLookup := ExtTreeMap CoordinateSpaceId UInt32 compare

/-! ## The graph -/

structure SpaceGraph (α : Type) where
  graph : TransformGraph α := {}
  generations : GenerationLookup := ∅
  nextSpace : UInt32 := 1

namespace SpaceGraph

variable {α : Type}

/-- The new space and the graph with it. -/
def addSpace (spaces : SpaceGraph α) (generation : UInt32) : CoordinateSpaceId × SpaceGraph α :=
  let space : CoordinateSpaceId := ⟨spaces.nextSpace⟩
  (space,
    { graph := (spaces.graph.addNode space).getD spaces.graph
      generations := spaces.generations.insertIfNew space generation
      nextSpace := spaces.nextSpace + 1 })

/-- A rejected transform is logged and leaves the graph as it was. -/
def addTransform (spaces : SpaceGraph α) (transform : TransformRecord α) : SpaceGraph α :=
  { spaces with
    graph := (spaces.graph.addEdge transform.source transform.destination transform).getD
      spaces.graph }

/-- `none`: the space is not registered. -/
def bumpGeneration (spaces : SpaceGraph α) (space : CoordinateSpaceId) : Option (SpaceGraph α) :=
  match spaces.generations[space]? with
  | none => none
  | some generation =>
    some { spaces with generations := spaces.generations.insert space (generation + 1) }

end SpaceGraph

/-! ## The route visitor -/

structure RouteState (α : Type) where
  transform : Affine α
  trust : TransformTrust
  stale : Bool
  deriving DecidableEq

abbrev Routes (α : Type) := ExtTreeMap CoordinateSpaceId (RouteState α) compare

/-- `RouteVisitor::is_stale`: the second generation is read when the first one does
not decide. -/
def isStale {α : Type} (generations : GenerationLookup) (transform : TransformRecord α)
    (source destination : CoordinateSpaceId) : Option Bool :=
  match generations[source]? with
  | none => none
  | some current =>
    if transform.generation < current then some true
    else
      (generations[destination]?).map fun current => decide (transform.generation < current)

/-- A stale route is an error. -/
def refuseStale {α : Type} (route : Except Error (RouteState α)) : Except Error (RouteState α) :=
  match route with
  | .error error => .error error
  | .ok route =>
    if route.stale then .error ⟨.topologyChanged, "coordinate transform route is stale"⟩
    else .ok route

section Search

variable {α : Type} [CommRing α]

/-- The route of a space to itself. -/
def RouteState.here : RouteState α := ⟨Affine.identity, .exact, false⟩

def visitEdge (graph : TransformGraph α) (generations : GenerationLookup) (routes : Routes α)
    (source destination : CoordinateSpaceId) : Option (Routes α) :=
  if routes.contains destination then some routes
  else
    match graph.edgePayload source destination with
    | none => some routes
    | some transform =>
      match routes[source]? with
      | none => none
      | some prior =>
        (if prior.stale then some true
          else isStale generations transform source destination).map fun stale =>
            routes.insertIfNew destination
              ⟨Affine.compose prior.transform transform.map,
                TransformTrust.weakest prior.trust transform.trust, stale⟩

/-- The targets of the edges leaving a space. -/
def targets (graph : TransformGraph α) (space : CoordinateSpaceId) : List CoordinateSpaceId :=
  (graph.outEdges space).map OutgoingEdge.target

/-- `breadth_first_search` with the route visitor. -/
def breadthFirstSearch (graph : TransformGraph α) (generations : GenerationLookup)
    (start : CoordinateSpaceId) (routes : Routes α) : Option (Routes α) :=
  if graph.containsNode start then
    Layered.layers (visitEdge graph generations) (targets graph) graph.nodes.length [start]
      ⟨routes, [start], []⟩
  else some routes

namespace SpaceGraph

def findRoute (spaces : SpaceGraph α) (source destination : CoordinateSpaceId) :
    Option (Except Error (RouteState α)) :=
  if spaces.graph.containsNode source && spaces.graph.containsNode destination then
    (breadthFirstSearch spaces.graph spaces.generations source
      ((∅ : Routes α).insertIfNew source RouteState.here)).map fun routes =>
        match routes[destination]? with
        | none => .error ⟨.routeUnavailable, "no coordinate transform route is available"⟩
        | some route => .ok route
  else
    some (.error ⟨.routeUnavailable, "coordinate space is not in the transform graph"⟩)

def resolveTransform (spaces : SpaceGraph α) (source destination : CoordinateSpaceId) :
    Option (Except Error (Affine α)) :=
  (spaces.findRoute source destination).map fun route =>
    (refuseStale route).map RouteState.transform

def map (spaces : SpaceGraph α) (point : SpacePoint α) (destination : CoordinateSpaceId) :
    Option (Except Error (SpacePoint α)) :=
  (spaces.resolveTransform point.space destination).map fun transform =>
    transform.map fun transform =>
      ⟨transform.xx * point.x + transform.xy * point.y + transform.tx,
        transform.yx * point.x + transform.yy * point.y + transform.ty, destination⟩

def routeTrust (spaces : SpaceGraph α) (source destination : CoordinateSpaceId) :
    Option (Except Error TransformTrust) :=
  (spaces.findRoute source destination).map fun route =>
    (refuseStale route).map RouteState.trust

end SpaceGraph

end Search

end Grab.Spaces
