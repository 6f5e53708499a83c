import Grab.Query.Evaluator
import Grab.Tree.Generation

/-!
# What a locator means

`Satisfies` is the declarative meaning of a plan at a node, for a notion of what
the two transitive operators walk to.  The evaluator decides it for `OtherOnChain`:
a walk never answers for the node it starts from, even when a cycle leads back to
it.
-/

open Relation

namespace Grab.Kernel.Query

open Grab Grab.Lib List

/-- A non-empty chain of edges. -/
def OnChain (out : NodeId → List NodeId) (origin node : NodeId) : Prop :=
  TransGen (Search.Edge out) origin node

/-- A non-empty chain of edges to another node. -/
def OtherOnChain (out : NodeId → List NodeId) (origin node : NodeId) : Prop :=
  TransGen (Search.Edge out) origin node ∧ node ≠ origin

mutual

def Satisfies (walk : (NodeId → List NodeId) → NodeId → NodeId → Prop) (nav : TreeNav) :
    LocatorPlan → NodeId → Prop
  | .matchAll, _ => True
  | .matchNone, _ => False
  | .role role, node => nav.role node = role
  | .state mask, node => nav.states node &&& mask = mask
  | .property property value, node => propertyHolds nav node property value = true
  | .accessibleName text, node =>
    propertyHolds nav node PropertyId.accessibleName (.string text) = true
  | .text text, node => propertyHolds nav node PropertyId.text (.string text) = true
  | .all children, node => SatisfiesAll walk nav children node
  | .any children, node => SatisfiesAny walk nav children node
  | .not child, node => ¬Satisfies walk nav child node
  | .childOf child, node => ∃ parent ∈ nav.parents node, Satisfies walk nav child parent
  | .descendantOf child, node =>
    ∃ ancestor, walk nav.parents node ancestor ∧ Satisfies walk nav child ancestor
  | .ancestorOf child, node =>
    ∃ descendant, walk nav.children node descendant ∧ Satisfies walk nav child descendant
  | .related relation child, node =>
    ∃ target ∈ nav.related node relation, Satisfies walk nav child target
  | .relatedReverse relation child, node =>
    ∃ source ∈ nav.relatedReverse node relation, Satisfies walk nav child source

/-- Every one of the plans holds. -/
def SatisfiesAll (walk : (NodeId → List NodeId) → NodeId → NodeId → Prop) (nav : TreeNav) :
    List LocatorPlan → NodeId → Prop
  | [], _ => True
  | child :: rest, node => Satisfies walk nav child node ∧ SatisfiesAll walk nav rest node

/-- Some one of the plans holds. -/
def SatisfiesAny (walk : (NodeId → List NodeId) → NodeId → NodeId → Prop) (nav : TreeNav) :
    List LocatorPlan → NodeId → Prop
  | [], _ => False
  | child :: rest, node => Satisfies walk nav child node ∨ SatisfiesAny walk nav rest node

end

/-! ## Accepted navigations -/

/-- What a navigation that was accepted for the given relation uses is like. -/
structure Accepted (nav : TreeNav) (uses : List RelationUse) : Prop where
  once : nav.nodes.Nodup
  available : ∀ node ∈ nav.nodes, nav.contains node = true
  children : ∀ node ∈ nav.nodes, nav.children node ⊆ nav.nodes
  parents : ∀ node ∈ nav.nodes, nav.parents node ⊆ nav.nodes
  roots : nav.roots ⊆ nav.nodes
  related : ∀ relation, ⟨relation, false⟩ ∈ uses → ∀ node ∈ nav.nodes,
    nav.related node relation ⊆ nav.nodes
  relatedReverse : ∀ relation, ⟨relation, true⟩ ∈ uses → ∀ node ∈ nav.nodes,
    nav.relatedReverse node relation ⊆ nav.nodes

section

variable {nav : TreeNav}

theorem validateEndpoints_ok {endpoints known : List NodeId} {edgeKind : String}
    (ok : validateEndpoints endpoints known edgeKind = .ok ()) : endpoints ⊆ known := by
  unfold validateEndpoints at ok
  split at ok
  · rename_i allKnown
    intro node member
    exact of_decide_eq_true (all_eq_true.mp allKnown node member)
  · cases ok

theorem forM_ok {ε α : Type} {check : α → Except ε PUnit} {items : List α}
    (ok : items.forM check = .ok ()) : ∀ item ∈ items, check item = .ok () := by
  induction items with
  | nil => simp
  | cons first rest ih =>
    change (check first >>= fun _ => rest.forM check) = .ok () at ok
    rcases bind_ok ok with ⟨⟨⟩, firstOk, restOk⟩
    intro item member
    rcases mem_cons.mp member with rfl | member
    · exact firstOk
    · exact ih restOk item member

variable {plan : LocatorPlan} {evaluation : NodeId → Evaluation} {out : NodeId → List NodeId}
  {meaning : NodeId → Prop} {origin : NodeId} {uses : List RelationUse} {result : Evaluation}
  {nodes : List NodeId}

theorem validateNavigation_ok (ok : validateNavigation nav plan = .ok ()) :
    Accepted nav (collectRelationUses plan) := by
  unfold validateNavigation at ok
  split at ok
  · cases ok
  rename_i once
  rcases bind_ok ok with ⟨⟨⟩, nodesOk, ok⟩
  rcases bind_ok ok with ⟨⟨⟩, rootsOk, usesOk⟩
  have nodeOk : ∀ node ∈ nav.nodes, nav.contains node = true ∧
      nav.children node ⊆ nav.nodes ∧ nav.parents node ⊆ nav.nodes := by
    intro node member
    have checked := forM_ok nodesOk node member
    unfold validateNode at checked
    split at checked
    · cases checked
    rename_i available
    rcases bind_ok checked with ⟨⟨⟩, childrenOk, parentsOk⟩
    exact ⟨not_not.mp available, validateEndpoints_ok childrenOk, validateEndpoints_ok parentsOk⟩
  have useOk : ∀ use ∈ collectRelationUses plan, ∀ node ∈ nav.nodes,
      validateUse nav (node, use) = .ok () := by
    intro use isUse node member
    apply forM_ok usesOk
    exact mem_flatMap.mpr ⟨node, member, mem_map_of_mem isUse⟩
  constructor
  case once => exact not_not.mp once
  case available => exact fun node member => (nodeOk node member).1
  case children => exact fun node member => (nodeOk node member).2.1
  case parents => exact fun node member => (nodeOk node member).2.2
  case roots => exact validateEndpoints_ok rootsOk
  case related =>
    exact fun relation isUse node member => validateEndpoints_ok (useOk _ isUse node member)
  case relatedReverse =>
    exact fun relation isUse node member => validateEndpoints_ok (useOk _ isUse node member)

theorem Accepted.mono {uses fewer : List RelationUse} (accepted : Accepted nav uses)
    (subset : fewer ⊆ uses) : Accepted nav fewer :=
  { accepted with
    related := fun relation isUse => accepted.related relation (subset isUse)
    relatedReverse := fun relation isUse => accepted.relatedReverse relation (subset isUse) }

theorem Accepted.containsNode_iff (accepted : Accepted nav uses) (node : NodeId) :
    containsNode nav node = true ↔ node ∈ nav.nodes := by
  rw [containsNode, Bool.and_eq_true, decide_eq_true_iff]
  exact and_iff_left_of_imp (accepted.available node)

/-! ## Evaluation decides the meaning -/

theorem matched_when {condition : Bool} :
    (when condition plan).matched = true ↔ condition = true := by
  unfold when
  split
  · rename_i holds
    exact iff_of_true rfl holds
  · rename_i fails
    exact iff_of_false (by simp) fails

theorem matched_attest : (attest plan result).matched = true ↔ result.matched = true := by
  unfold attest
  split
  · rename_i isMatch
    exact iff_of_true isMatch isMatch
  · exact Iff.rfl

theorem matched_firstMatch : (firstMatch evaluation nodes).matched = true ↔
      ∃ node ∈ nodes, (evaluation node).matched = true := by
  induction nodes with
  | nil => simp [firstMatch]
  | cons node rest ih =>
    rw [firstMatch]
    simp only [mem_cons, exists_eq_or_imp]
    split
    · rename_i isMatch
      exact iff_of_true isMatch (.inl isMatch)
    · rename_i noMatch
      rw [ih]
      exact (or_iff_right noMatch).symm

theorem matched_foldl_visit {visited : List NodeId} :
    (visited.foldl (visitRelation evaluation origin) result).matched = true ↔
      result.matched = true ∨
        ∃ node ∈ visited, node ≠ origin ∧ (evaluation node).matched = true := by
  induction visited generalizing result with
  | nil => simp
  | cons node rest ih =>
    rw [foldl_cons, ih]
    simp only [mem_cons, exists_eq_or_imp]
    unfold visitRelation
    split
    · rename_i skipped
      rcases skipped with isOrigin | isMatch
      · simp [isOrigin]
      · simp [isMatch]
    · rename_i considered
      rcases not_or.mp considered with ⟨other, noMatch⟩
      simp [noMatch, other]

theorem matched_evaluateWalk (accepted : Accepted nav uses)
    (closed : ∀ node ∈ nav.nodes, out node ⊆ nav.nodes) (inside : origin ∈ nav.nodes) :
    (evaluateWalk nav out evaluation origin).matched = true ↔
      ∃ node, OtherOnChain out origin node ∧ (evaluation node).matched = true := by
  have search := (Traversal.depthFirst_exact closed inside (Nat.le_refl _)).1
  rw [evaluateWalk, depthFirstSearch, if_pos ((accepted.containsNode_iff origin).mpr inside),
    matched_foldl_visit]
  simp only [search, Bool.false_eq_true, false_or, OtherOnChain, reflTransGen_iff_eq_or_transGen]
  constructor
  · rintro ⟨node, same | chain, other, isMatch⟩
    · exact absurd same other
    · exact ⟨node, ⟨chain, other⟩, isMatch⟩
  · rintro ⟨node, ⟨chain, other⟩, isMatch⟩
    exact ⟨node, .inr chain, other, isMatch⟩

/-- A chain stays among the nodes. -/
theorem mem_of_chain (closed : ∀ node ∈ nav.nodes, out node ⊆ nav.nodes) {origin node : NodeId}
    (inside : origin ∈ nav.nodes) (chain : TransGen (Search.Edge out) origin node) :
    node ∈ nav.nodes := by
  induction chain with
  | single edge => exact closed origin inside edge
  | tail _ edge reached => exact closed _ reached edge

theorem exists_matched_iff (agree : ∀ node ∈ nodes, (evaluation node).matched = true ↔ meaning node)
    : (∃ node ∈ nodes, (evaluation node).matched = true) ↔ ∃ node ∈ nodes, meaning node := by
  constructor
  · rintro ⟨node, member, isMatch⟩
    exact ⟨node, member, (agree node member).mp isMatch⟩
  · rintro ⟨node, member, holds⟩
    exact ⟨node, member, (agree node member).mpr holds⟩

theorem exists_onChain_iff (closed : ∀ node ∈ nav.nodes, out node ⊆ nav.nodes)
    (inside : origin ∈ nav.nodes)
    (agree : ∀ node ∈ nav.nodes, (evaluation node).matched = true ↔ meaning node) :
    (∃ node, OtherOnChain out origin node ∧ (evaluation node).matched = true) ↔
      ∃ node, OtherOnChain out origin node ∧ meaning node := by
  constructor
  · rintro ⟨node, onChain, isMatch⟩
    exact ⟨node, onChain, (agree node (mem_of_chain closed inside onChain.1)).mp isMatch⟩
  · rintro ⟨node, onChain, holds⟩
    exact ⟨node, onChain, (agree node (mem_of_chain closed inside onChain.1)).mpr holds⟩

mutual

theorem matched_evaluate_iff {plan : LocatorPlan}
    (accepted : Accepted nav (collectRelationUses plan)) {node : NodeId}
    (inside : node ∈ nav.nodes) :
    (evaluate nav plan node).matched = true ↔ Satisfies OtherOnChain nav plan node := by
  cases plan with
  | matchAll =>
    rw [evaluate, Satisfies]
    exact iff_of_true rfl trivial
  | matchNone =>
    rw [evaluate, Satisfies]
    exact iff_of_false (by simp) id
  | role role | state mask =>
    rw [evaluate, Satisfies, matched_when, beq_iff_eq]
  | property property value | accessibleName text | text text =>
    rw [evaluate, Satisfies, matched_when]
  | all children =>
    rw [evaluate, Satisfies]
    exact matched_evaluateAll_iff (accepted.mono (by simp [collectRelationUses])) inside
  | any children =>
    rw [evaluate, Satisfies]
    exact matched_evaluateAny_iff (accepted.mono (by simp [collectRelationUses])) inside
  | not child =>
    have childIff : (evaluate nav child node).matched = true ↔
        Satisfies OtherOnChain nav child node :=
      matched_evaluate_iff (accepted.mono (by simp [collectRelationUses])) inside
    rw [evaluate, Satisfies, ← childIff]
    split
    · rename_i isMatch
      exact iff_of_false (by simp) (not_not.mpr isMatch)
    · rename_i noMatch
      exact iff_of_true rfl noMatch
  | childOf child =>
    rw [evaluate, Satisfies, matched_attest, matched_firstMatch]
    exact exists_matched_iff fun parent isParent =>
      matched_evaluate_iff (accepted.mono (by simp [collectRelationUses]))
        (accepted.parents node inside isParent)
  | descendantOf child =>
    rw [evaluate, Satisfies, matched_attest, matched_evaluateWalk accepted accepted.parents inside]
    exact exists_onChain_iff accepted.parents inside fun other otherInside =>
      matched_evaluate_iff (accepted.mono (by simp [collectRelationUses])) otherInside
  | ancestorOf child =>
    rw [evaluate, Satisfies, matched_attest, matched_evaluateWalk accepted accepted.children inside]
    exact exists_onChain_iff accepted.children inside fun other otherInside =>
      matched_evaluate_iff (accepted.mono (by simp [collectRelationUses])) otherInside
  | related relation child =>
    rw [evaluate, Satisfies, matched_attest, matched_firstMatch]
    exact exists_matched_iff fun target isTarget =>
      matched_evaluate_iff (accepted.mono (by simp [collectRelationUses]))
        (accepted.related relation (by simp [collectRelationUses]) node inside isTarget)
  | relatedReverse relation child =>
    rw [evaluate, Satisfies, matched_attest, matched_firstMatch]
    exact exists_matched_iff fun source isSource =>
      matched_evaluate_iff (accepted.mono (by simp [collectRelationUses]))
        (accepted.relatedReverse relation (by simp [collectRelationUses]) node inside isSource)

theorem matched_evaluateAll_iff {children : List LocatorPlan}
    (accepted : Accepted nav (collectAllUses children)) {node : NodeId}
    (inside : node ∈ nav.nodes) {evidence : List String} :
    (evaluateAll nav children node evidence).matched = true ↔
      SatisfiesAll OtherOnChain nav children node := by
  cases children with
  | nil =>
    rw [evaluateAll, SatisfiesAll]
    exact iff_of_true rfl trivial
  | cons child rest =>
    have childIff : (evaluate nav child node).matched = true ↔
        Satisfies OtherOnChain nav child node :=
      matched_evaluate_iff (accepted.mono (by simp [collectAllUses])) inside
    have restAccepted : Accepted nav (collectAllUses rest) :=
      accepted.mono (by simp [collectAllUses])
    rw [evaluateAll, SatisfiesAll, ← childIff]
    split
    · rename_i isMatch
      rw [matched_evaluateAll_iff restAccepted inside]
      exact (and_iff_right isMatch).symm
    · rename_i noMatch
      exact iff_of_false (by simp) fun both => noMatch both.1

theorem matched_evaluateAny_iff {children : List LocatorPlan}
    (accepted : Accepted nav (collectAllUses children)) {node : NodeId}
    (inside : node ∈ nav.nodes) : (evaluateAny nav children node).matched = true ↔
      SatisfiesAny OtherOnChain nav children node := by
  cases children with
  | nil =>
    rw [evaluateAny, SatisfiesAny]
    exact iff_of_false (by simp) id
  | cons child rest =>
    have childIff : (evaluate nav child node).matched = true ↔
        Satisfies OtherOnChain nav child node :=
      matched_evaluate_iff (accepted.mono (by simp [collectAllUses])) inside
    have restAccepted : Accepted nav (collectAllUses rest) :=
      accepted.mono (by simp [collectAllUses])
    rw [evaluateAny, SatisfiesAny, ← childIff]
    split
    · rename_i isMatch
      exact iff_of_true isMatch (.inl isMatch)
    · rename_i noMatch
      rw [matched_evaluateAny_iff restAccepted inside]
      exact (or_iff_right noMatch).symm

end

end

end Grab.Kernel.Query
