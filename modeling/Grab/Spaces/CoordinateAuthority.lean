import Grab.Spaces.Resolution

/-!
# The authority over display coordinates

The authority keeps one space graph over its whole life.  A refresh that finds a
changed topology moves the generation of the global space and of the last outputs
on, and then adds a new space for every output with a transform to the global space.

Space numbers have 32 bits and start again when they run out, which the generation
counter does not: it refuses.  Where every rebuild finds enough unused numbers the
generations never mix; otherwise an output can be given the global space itself.
-/

namespace Grab.Spaces

open Std Grab.Graph AdjacencyGraph

/-! ## The authority -/

structure Rectangle where
  x : Int
  y : Int
  width : Nat
  height : Nat
  deriving DecidableEq, Repr

structure OutputInfo where
  name : String
  bounds : Rectangle
  deriving DecidableEq, Repr

structure OutputSpace (α : Type) where
  name : String
  bounds : Rectangle
  space : CoordinateSpaceId
  scale : α
  generation : UInt32
  deriving DecidableEq

def sameBounds (first second : Rectangle) : Bool :=
  first.x == second.x && first.y == second.y && first.width == second.width &&
    first.height == second.height

structure CoordinateAuthority (α : Type) where
  graph : Option (SpaceGraph α) := none
  globalSpace : CoordinateSpaceId := ⟨0⟩
  generation : UInt32 := 0
  outputs : List (OutputSpace α) := []
  transforms : List (TransformRecord α) := []

/-- What the loop over the outputs has made so far. -/
structure Building (α : Type) where
  graph : SpaceGraph α
  outputs : List (OutputSpace α) := []
  transforms : List (TransformRecord α) := []
  mappingId : UInt64 := 1

section Authority

variable {α : Type}

def topologyMatches (authority : CoordinateAuthority α) (outputs : List OutputInfo) : Bool :=
  if outputs.length ≠ authority.outputs.length then false
  else
    (outputs.zip authority.outputs).all fun both =>
      both.1.name == both.2.name && sameBounds both.1.bounds both.2.bounds

/-- The graph of the next generation and its global space, before any output.  `none`:
a space that is bumped is not registered. -/
def nextGraph (authority : CoordinateAuthority α) (generation : UInt32) :
    Option (SpaceGraph α × CoordinateSpaceId) :=
  match authority.graph with
  | none =>
    let added := ({} : SpaceGraph α).addSpace generation
    some (added.2, added.1)
  | some graph => do
      let bumped ← graph.bumpGeneration authority.globalSpace
      let bumped ← authority.outputs.foldlM
        (fun graph output => graph.bumpGeneration output.space) bumped
      some (bumped, authority.globalSpace)

variable [CommRing α]

def addOutput (globalSpace : CoordinateSpaceId) (generation : UInt32) (building : Building α)
    (output : OutputInfo) : Building α :=
  let added := building.graph.addSpace generation
  let transform : TransformRecord α :=
    { source := added.1
      destination := globalSpace
      map := Affine.translation (output.bounds.x : α) (output.bounds.y : α)
      mappingId := building.mappingId
      generation := generation
      trust := .exact }
  { graph := added.2.addTransform transform
    outputs := building.outputs ++ [⟨output.name, output.bounds, added.1, 1, generation⟩]
    transforms := building.transforms ++ [transform]
    mappingId := building.mappingId + 1 }

def rebuild (authority : CoordinateAuthority α) (outputs : List OutputInfo) :
    Option (CoordinateAuthority α) :=
  let generation := authority.generation + 1
  (nextGraph authority generation).map fun start =>
    let built := outputs.foldl (addOutput start.2 generation) { graph := start.1 }
    { graph := some built.graph
      globalSpace := start.2
      generation := generation
      outputs := built.outputs
      transforms := built.transforms }

def overflow : Error := ⟨.internalFault, "coordinate topology generation overflow"⟩

omit [CommRing α] in
/-- Whether a refresh with these outputs goes past its first test. -/
def changes (authority : CoordinateAuthority α) (outputs : List OutputInfo) (force : Bool) :
    Bool :=
  !(!force && authority.graph.isSome && topologyMatches authority outputs)

def refreshWith (authority : CoordinateAuthority α) (outputs : List OutputInfo) (force : Bool) :
    Option (Except Error Unit × CoordinateAuthority α) :=
  if changes authority outputs force then
    if authority.generation.toNat = UInt32.size - 1 then some (.error overflow, authority)
    else (rebuild authority outputs).map fun next => (.ok (), next)
  else some (.ok (), authority)

/-- A refresh, forced or not, with the outputs that were listed or given. -/
structure Call where
  listed : Except Error (List OutputInfo)
  force : Bool

def Call.run (call : Call) (authority : CoordinateAuthority α) :
    Option (Except Error Unit × CoordinateAuthority α) :=
  match call.listed with
  | .error error => some (.error error, authority)
  | .ok outputs => refreshWith authority outputs call.force

end Authority

/-! ## Runs -/

/-- An authority with the outputs of its earlier rebuilds. -/
structure History (α : Type) where
  authority : CoordinateAuthority α := {}
  retired : List (OutputSpace α) := []

/-- A rebuild moves the generation, and the outputs it replaces retire. -/
def History.next {α : Type} (history : History α) (authority : CoordinateAuthority α) :
    History α where
  authority := authority
  retired :=
    if authority.generation = history.authority.generation then history.retired
    else history.retired ++ history.authority.outputs

/-- Calls one after the other, each under a condition on the authority before it. -/
inductive Run {α : Type} [CommRing α] (Condition : CoordinateAuthority α → Call → Prop) :
    History α → Prop
  | start : Run Condition {}
  | call {history : History α} {result : Except Error Unit} {next : CoordinateAuthority α}
      (earlier : Run Condition history) (call : Call) (meets : Condition history.authority call)
      (ran : call.run history.authority = some (result, next)) :
      Run Condition (history.next next)

/-- The spaces of the graph, or the global space of the one to come. -/
def spaceCount {α : Type} (authority : CoordinateAuthority α) : Nat :=
  match authority.graph with
  | none => 1
  | some graph => graph.graph.nodeCount

/-- A call that rebuilds finds an unused space number for every output. -/
def Fits {α : Type} (authority : CoordinateAuthority α) (call : Call) : Prop :=
  ∀ outputs, call.listed = .ok outputs → changes authority outputs call.force = true →
    spaceCount authority + outputs.length ≤ UInt32.size

/-- The outputs of the last rebuild are placed by their origins, all earlier ones are
refused. -/
structure Apart {α : Type} [CommRing α] (history : History α) (graph : SpaceGraph α) : Prop where
  kept : history.authority.graph = some graph
  placed : ∀ output ∈ history.authority.outputs,
    graph.resolveTransform output.space history.authority.globalSpace =
      some (.ok (Affine.translation (output.bounds.x : α) (output.bounds.y : α)))
  refused : ∀ output ∈ history.retired,
    graph.resolveTransform output.space history.authority.globalSpace = some (.error changed)
  generation : graph.generations[history.authority.globalSpace]? = some history.authority.generation

end Grab.Spaces
