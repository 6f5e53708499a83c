import Mathlib.Data.List.Nodup
import Grab.Tree.Types
import Grab.Target.Registry

/-!
# The accessibility tree

`walk` of `drivers/semantic/atspi/atspi_enumerator.cpp` and the snapshots of
`drivers/semantic/atspi/atspi_tree_source.cpp`.  A walk numbers the objects of the accessibility bus
in the order in which it comes to them, from one on and anew each time; the source stamps every
snapshot with the same epoch and every node with the same generation, and keeps the target it bound
to a number.

What the bus answers is given: a list of references, or nothing, for the registry and for every
object that is asked, and the attributes that were read of it.  An object is its bus name and its
path; the source keeps only the path of it.
-/

namespace Grab.Semantic

open Grab.Kernel

/-! ## Accessibles -/

inductive AtspiRole where
  | unknown | application | window | frame | document | dialog | alert | panel | section_ | button
  | pushButton | toggleButton | checkBox | radioButton | entry | passwordText | text | paragraph
  | heading | link | image | list | listItem | table | tableCell | menu | menuBar | menuItem
  | pageTab | pageTabList | slider | spinButton | comboBox
  deriving DecidableEq

structure AtspiInterfaceSet where
  action : Bool := false
  text : Bool := false
  value : Bool := false
  selection : Bool := false
  deriving DecidableEq

/-- An object of the accessibility bus. -/
structure ObjectRef where
  busName : String
  path : String
  deriving DecidableEq

/-- The key of the map of a walk. -/
def ObjectRef.key (object : ObjectRef) : String := object.busName ++ "\n" ++ object.path

/-- What the calls of `build_accessible` read of an object; a failed one leaves its default. -/
structure Attributes where
  role : AtspiRole := .unknown
  states : UInt32 := 0
  interfaces : AtspiInterfaceSet := {}
  name : String := ""
  bounds : Option SpaceRect := none
  textContent : String := ""
  url : String := ""
  deriving DecidableEq

structure AtspiAccessible where
  node : NodeId
  generation : NodeGeneration := ⟨1⟩
  role : AtspiRole := .unknown
  interfaces : AtspiInterfaceSet := {}
  /-- The source keeps the path of it. -/
  object : ObjectRef
  parent : Option NodeId := none
  name : String := ""
  title : String := ""
  textContent : String := ""
  url : String := ""
  states : UInt32 := 0
  pid : Option UInt32 := none
  bounds : Option SpaceRect := none
  x11Window : Option UInt32 := none
  deriving DecidableEq

/-- The number of the object a walk comes to after some others. -/
def nodeAt (place : Nat) : NodeId := ⟨UInt64.ofNat (place + 1)⟩

def buildAccessible (attributes : Attributes) (object : ObjectRef) (place : Nat)
    (parent : Option NodeId) : AtspiAccessible where
  node := nodeAt place
  object := object
  parent := parent
  role := attributes.role
  states := attributes.states
  interfaces := attributes.interfaces
  name := attributes.name
  bounds := attributes.bounds
  textContent := attributes.textContent
  url := attributes.url

/-! ## The walk -/

structure EnumeratorOptions where
  maxNodes : UInt64 := 400000
  deriving DecidableEq

/-- What the accessibility bus answers during one walk. -/
structure Bus where
  connected : Bool := true
  /-- The registry first, then each object in the order of its number. -/
  children : Nat → Option (List ObjectRef)
  attributes : Nat → Attributes

structure Pending where
  object : ObjectRef
  parent : Option NodeId

/-- The references in an answer, with the object that was asked. -/
def pendingOf (parent : Option NodeId) (answer : Option (List ObjectRef)) : List Pending :=
  (answer.getD []).map fun object => { object, parent }

def assigned (nodes : List AtspiAccessible) (pending : Pending) : Bool :=
  nodes.any fun node => node.object.key == pending.object.key

/-- The loop of `walk` from a frontier on.  A round skips what has a number and takes the next; the
rounds that are left are the nodes that may still be added. -/
def visit (bus : Bus) : Nat → List Pending → List AtspiAccessible → List AtspiAccessible
  | 0, _, nodes => nodes
  | rounds + 1, frontier, nodes =>
    match frontier.dropWhile (assigned nodes) with
    | [] => nodes
    | pending :: rest =>
      let place := nodes.length
      visit bus rounds (rest ++ pendingOf (some (nodeAt place)) (bus.children (place + 1)))
        (nodes ++ [buildAccessible (bus.attributes place) pending.object place pending.parent])

def walk (options : EnumeratorOptions) (bus : Bus) : List AtspiAccessible :=
  if bus.connected then
    match bus.children 0 with
    | none => []
    | some roots => visit bus options.maxNodes.toNat (pendingOf none (some roots)) []
  else []

/-! ## Records -/

def roleOf : AtspiRole → RoleId
  | .application => ⟨1⟩
  | .window | .frame => ⟨2⟩
  | .document => ⟨3⟩
  | .dialog | .alert => ⟨4⟩
  | .panel | .section_ | .pageTabList => ⟨5⟩
  | .button | .pushButton | .toggleButton => ⟨15⟩
  | .checkBox => ⟨16⟩
  | .radioButton => ⟨17⟩
  | .entry | .passwordText => ⟨19⟩
  | .text | .paragraph | .heading => ⟨11⟩
  | .link => ⟨20⟩
  | .image => ⟨12⟩
  | .list => ⟨13⟩
  | .table => ⟨14⟩
  | .menu | .menuBar => ⟨9⟩
  | .menuItem => ⟨21⟩
  | .pageTab => ⟨6⟩
  | .slider | .spinButton => ⟨18⟩
  | .comboBox | .listItem | .tableCell => ⟨10⟩
  | .unknown => ⟨0⟩

def stringProperty (id : PropertyId) (value : String) : PropertyId × PropertyRead :=
  (id, if value = "" then {} else { state := .present, value := .string value })

def optionalProperty (id : PropertyId) (value : Option PropertyValue) : PropertyId × PropertyRead :=
  (id, value.elim {} fun value => { state := .present, value })

def facetsOf (interfaces : AtspiInterfaceSet) : UInt32 :=
  (if interfaces.action then 1 else 0) ||| (if interfaces.text then 2 else 0) |||
    (if interfaces.value then 4 else 0) ||| (if interfaces.selection then 8 else 0)

def mapAccessible (accessible : AtspiAccessible) (runtime : RuntimeId) (revision : UInt64) :
    UiNodeRecord where
  id := accessible.node
  generation := accessible.generation
  role := roleOf accessible.role
  states := accessible.states
  facets := facetsOf accessible.interfaces
  properties :=
    [stringProperty ⟨1⟩ accessible.name, stringProperty ⟨3⟩ accessible.title,
      stringProperty ⟨2⟩ accessible.textContent, stringProperty ⟨7⟩ accessible.url,
      optionalProperty ⟨5⟩ (accessible.pid.map fun pid => .int (Int64.ofNat pid.toNat)),
      optionalProperty ⟨6⟩ (accessible.bounds.map .rect)]
  provenance := { runtime, revision }

/-! ## Targets -/

def objectAlias (accessible : AtspiAccessible) (confidence : AliasConfidence) : AliasEdge where
  authority := "atspi.object"
  nativeId :=
    if accessible.object.path = "" then toString accessible.node.value.toNat
    else accessible.object.path
  confidence := confidence

def observation (accessible : AtspiAccessible) (edge : AliasEdge) : TargetObservation where
  grade := if accessible.role = .application then .application else .window
  aliasEdge := some edge
  title := if accessible.title = "" then accessible.name else accessible.title
  pid := accessible.pid
  bounds := accessible.bounds

def observeAtspiTarget (registry : TargetRegistry) (accessible : AtspiAccessible)
    (x11AliasAuthority : Option String) : Reply TargetId :=
  match accessible.x11Window, x11AliasAuthority.filter (fun authority => authority != "") with
  | some window, some authority =>
    let bridge : AliasEdge :=
      { authority, nativeId := toString window.toNat, confidence := .exact }
    match registry.observe (observation accessible bridge) with
    | (observed, .error error) => (observed, .error error)
    | (observed, .ok target) =>
      match observed.attachAlias target (objectAlias accessible .candidate) with
      | (attached, .error error) => (attached, .error error)
      | (attached, .ok ()) => (attached, .ok target)
  | _, _ => registry.observe (observation accessible (objectAlias accessible .candidate))

/-! ## The source -/

/-- A target bound to a number, with the object it was observed of. -/
structure TargetBinding where
  target : TargetId
  object : ObjectRef

structure AtspiTreeSource where
  runtime : RuntimeId
  x11AliasAuthority : Option String := none
  targetBindings : List (NodeId × TargetBinding) := []
  revision : UInt64 := 0

namespace AtspiTreeSource

def firstTree : UInt32 := 1

def firstEpoch : TreeEpoch := ⟨1⟩

def binding (source : AtspiTreeSource) (node : NodeId) : Option TargetBinding :=
  source.targetBindings.lookup node

/-- The targets of the nodes that have none; the first failure ends it. -/
def bindTargets (source : AtspiTreeSource) :
    List AtspiAccessible → TargetRegistry → AtspiTreeSource × TargetRegistry × Except Error Unit
  | [], registry => (source, registry, .ok ())
  | accessible :: rest, registry =>
    match source.binding accessible.node with
    | some _ => bindTargets source rest registry
    | none =>
      match observeAtspiTarget registry accessible source.x11AliasAuthority with
      | (observed, .error error) => (source, observed, .error error)
      | (observed, .ok target) =>
        bindTargets
          { source with
            targetBindings := source.targetBindings ++
              [(accessible.node, { target, object := accessible.object })] } rest observed

/-- A parent that the snapshot has. -/
def parentIn (accessibles : List AtspiAccessible) (accessible : AtspiAccessible) : Option NodeId :=
  accessible.parent.filter fun parent => accessibles.any fun other => other.node == parent

def snapshotOf (runtime : RuntimeId) (revision : UInt64) (accessibles : List AtspiAccessible) :
    UiSnapshot where
  metadata := { runtime, tree := firstTree, epoch := firstEpoch, revision }
  nodes := accessibles.map fun accessible => mapAccessible accessible runtime revision
  roots := accessibles.filterMap fun accessible =>
    if (parentIn accessibles accessible).isNone then some accessible.node else none
  relations := accessibles.filterMap fun accessible =>
    (parentIn accessibles accessible).map fun parent =>
      { source := parent, target := accessible.node, relation := Relation.contains }

def snapshot (source : AtspiTreeSource) (options : EnumeratorOptions) (tree : UInt32)
    (checked : Except Error Unit) (bus : Bus) (registry : TargetRegistry) :
    AtspiTreeSource × TargetRegistry × Except Error UiSnapshot :=
  match checked with
  | .error error => (source, registry, .error error)
  | .ok () =>
    if tree ≠ firstTree then
      (source, registry, .error ⟨.noMatch, "AT-SPI tree snapshot is not available"⟩)
    else if source.revision = UInt64.ofNat (2 ^ 64 - 1) then
      (source, registry, .error ⟨.overflowed, "AT-SPI tree revision space is exhausted"⟩)
    else
      let accessibles := walk options bus
      if ¬(accessibles.map AtspiAccessible.node).Nodup then
        (source, registry, .error ⟨.protocolError, "AT-SPI tree contains a duplicate node"⟩)
      else
        match source.bindTargets accessibles registry with
        | (bound, observed, .error error) => (bound, observed, .error error)
        | (bound, observed, .ok ()) =>
          let revision := source.revision + 1
          ({ bound with revision }, observed, .ok (snapshotOf source.runtime revision accessibles))

/-- The same with any enumerator. -/
def snapshotWith (source : AtspiTreeSource) (tree : UInt32) (checked : Except Error Unit)
    (enumeration : Except Error (List AtspiAccessible)) (registry : TargetRegistry) :
    AtspiTreeSource × TargetRegistry × Except Error UiSnapshot :=
  match checked with
  | .error error => (source, registry, .error error)
  | .ok () =>
    if tree ≠ firstTree then
      (source, registry, .error ⟨.noMatch, "AT-SPI tree snapshot is not available"⟩)
    else if source.revision = UInt64.ofNat (2 ^ 64 - 1) then
      (source, registry, .error ⟨.overflowed, "AT-SPI tree revision space is exhausted"⟩)
    else
      match enumeration with
      | .error error => (source, registry, .error error)
      | .ok accessibles =>
        if ¬(accessibles.map AtspiAccessible.node).Nodup then
          (source, registry, .error ⟨.protocolError, "AT-SPI tree contains a duplicate node"⟩)
        else
          match source.bindTargets accessibles registry with
          | (bound, observed, .error error) => (bound, observed, .error error)
          | (bound, observed, .ok ()) =>
            let revision := source.revision + 1
            ({ bound with revision }, observed,
              .ok (snapshotOf source.runtime revision accessibles))

end AtspiTreeSource

end Grab.Semantic
