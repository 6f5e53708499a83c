import Grab.Tree.Types

/-!
# Locator plans and tree navigation

A locator is a predicate over the nodes of a tree together with its boundary and
consistency policies.  The operators that take one predicate have exactly one
child here, as every plan that the combinators build or the parser reads has.
`TreeNav` is the read-only view a plan is evaluated on.
-/

namespace Grab

inductive Cardinality where
  | exactlyOne | first | all
  deriving DecidableEq, Repr

inductive BoundaryPolicy where
  | sameTree | sameProcess | crossEmbeds
  deriving DecidableEq, Repr

inductive ConsistencyMode where
  | live | revisioned | pinned
  deriving DecidableEq, Repr

/-- Policies ascend in the order of their enumerators. -/
def BoundaryPolicy.rank : BoundaryPolicy → Nat
  | .sameTree => 0
  | .sameProcess => 1
  | .crossEmbeds => 2

def ConsistencyMode.rank : ConsistencyMode → Nat
  | .live => 0
  | .revisioned => 1
  | .pinned => 2

def BoundaryPolicy.max (first second : BoundaryPolicy) : BoundaryPolicy :=
  if first.rank < second.rank then second else first

def ConsistencyMode.max (first second : ConsistencyMode) : ConsistencyMode :=
  if first.rank < second.rank then second else first

inductive LocatorPlan where
  | matchAll
  | matchNone
  | role (role : RoleId)
  | state (mask : UInt32)
  | property (property : PropertyId) (value : PropertyValue)
  | accessibleName (text : String)
  | text (text : String)
  | all (children : List LocatorPlan)
  | any (children : List LocatorPlan)
  | not (child : LocatorPlan)
  | childOf (child : LocatorPlan)
  | descendantOf (child : LocatorPlan)
  | ancestorOf (child : LocatorPlan)
  | related (relation : RelationId) (child : LocatorPlan)
  | relatedReverse (relation : RelationId) (child : LocatorPlan)

structure Locator where
  plan : LocatorPlan := .matchAll
  boundary : BoundaryPolicy := .sameTree
  consistency : ConsistencyMode := .live

/-! ## Size -/

/-- Addition that stays at the largest `size_t`. -/
def saturatingAdd (count more : Nat) : Nat :=
  if 2 ^ 64 - 1 - count < more then 2 ^ 64 - 1 else count + more

mutual

def LocatorPlan.nodeCount : LocatorPlan → Nat
  | .all children => countAll 1 children
  | .any children => countAll 1 children
  | .not child | .childOf child | .descendantOf child | .ancestorOf child
  | .related _ child | .relatedReverse _ child => saturatingAdd 1 child.nodeCount
  | _ => 1

def LocatorPlan.countAll (count : Nat) : List LocatorPlan → Nat
  | [] => count
  | child :: rest => countAll (saturatingAdd count child.nodeCount) rest

end

/-! ## Combinators -/

/-- A predicate of the same operator is spliced in. -/
def appendAll (predicates : List LocatorPlan) (predicate : LocatorPlan) : List LocatorPlan :=
  match predicate with
  | .all children => predicates ++ children
  | other => predicates ++ [other]

def appendAny (predicates : List LocatorPlan) (predicate : LocatorPlan) : List LocatorPlan :=
  match predicate with
  | .any children => predicates ++ children
  | other => predicates ++ [other]

namespace Locator

def conjoin (locator predicate : Locator) : Locator where
  plan := .all (appendAll (appendAll [] locator.plan) predicate.plan)
  boundary := locator.boundary.max predicate.boundary
  consistency := locator.consistency.max predicate.consistency

def withBoundary (locator : Locator) (boundary : BoundaryPolicy) : Locator :=
  { locator with boundary := boundary }

def withConsistency (locator : Locator) (consistency : ConsistencyMode) : Locator :=
  { locator with consistency := consistency }

end Locator

namespace Sel

def role (value : RoleId) : Locator := { plan := .role value }

def state (mask : UInt32) : Locator := { plan := .state mask }

def property (id : PropertyId) (value : PropertyValue) : Locator := { plan := .property id value }

def accessibleName (value : String) : Locator := { plan := .accessibleName value }

def text (value : String) : Locator := { plan := .text value }

/-- The widest policies among the predicates. -/
def policies (predicates : List Locator) : BoundaryPolicy × ConsistencyMode :=
  predicates.foldl
    (fun widest predicate => (widest.1.max predicate.boundary, widest.2.max predicate.consistency))
    (.sameTree, .live)

def all (predicates : List Locator) : Locator :=
  if predicates.isEmpty then { plan := .matchAll }
  else
    { plan := .all (predicates.foldl (fun plans predicate => appendAll plans predicate.plan) [])
      boundary := (policies predicates).1
      consistency := (policies predicates).2 }

def any (predicates : List Locator) : Locator :=
  if predicates.isEmpty then { plan := .matchNone }
  else
    { plan := .any (predicates.foldl (fun plans predicate => appendAny plans predicate.plan) [])
      boundary := (policies predicates).1
      consistency := (policies predicates).2 }

/-- An operator over one predicate keeps the predicate's policies. -/
def unary (operation : LocatorPlan → LocatorPlan) (child : Locator) : Locator :=
  { child with plan := operation child.plan }

def not (predicate : Locator) : Locator := unary .not predicate

def childOf (parent : Locator) : Locator := unary .childOf parent

def descendantOf (ancestor : Locator) : Locator := unary .descendantOf ancestor

def ancestorOf (descendant : Locator) : Locator := unary .ancestorOf descendant

def related (relation : RelationId) (target : Locator) : Locator := unary (.related relation) target

def relatedReverse (relation : RelationId) (source : Locator) : Locator :=
  unary (.relatedReverse relation) source

end Sel

/-! ## Navigation -/

/-- The first entry under an id, or a default. -/
def textOf (names : List (UInt32 × String)) (id : UInt32) (fallback : String) : String :=
  match names.find? fun entry => entry.1 == id with
  | some entry => entry.2
  | none => fallback

def roleNames : List (UInt32 × String) :=
  [(0, "unknown"), (1, "application"), (2, "window"), (3, "document"), (4, "dialog"),
    (5, "panel"), (6, "tab"), (7, "region"), (8, "popup"), (9, "menu"), (10, "control"),
    (11, "text"), (12, "image"), (13, "list"), (14, "table"), (15, "button"),
    (16, "checkbox"), (17, "radio_button"), (18, "slider"), (19, "entry"), (20, "link"),
    (21, "menu_item")]

def relationNames : List (UInt32 × String) :=
  [(0, "contains"), (1, "owns"), (2, "presented_on"), (3, "occupies"), (4, "overlays"),
    (5, "active_child"), (6, "focus_within"), (7, "embeds"), (8, "controls"),
    (9, "label_for"), (10, "labelled_by"), (11, "controlled_by"), (12, "popup_for"),
    (13, "flows_to")]

def roleName (role : RoleId) : String := textOf roleNames role.value "unknown"

def relationName (relation : RelationId) : String := textOf relationNames relation.value "unknown"

namespace PropertyId

def accessibleName : PropertyId := ⟨1⟩

def text : PropertyId := ⟨2⟩

end PropertyId

structure TreeNavMetadata where
  runtime : RuntimeId
  tree : UInt32
  epoch : TreeEpoch
  revision : UInt64
  provider : String

structure TreeNav where
  metadata : TreeNavMetadata
  nodes : List NodeId
  roots : List NodeId
  contains : NodeId → Bool
  role : NodeId → RoleId
  states : NodeId → UInt32
  property : NodeId → PropertyId → PropertyRead
  children : NodeId → List NodeId
  parents : NodeId → List NodeId
  related : NodeId → RelationId → List NodeId
  relatedReverse : NodeId → RelationId → List NodeId
  generation : NodeId → NodeGeneration
  provenance : NodeId → UiProvenance

end Grab
