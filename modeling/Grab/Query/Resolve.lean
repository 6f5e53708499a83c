import Grab.Query.Meaning

/-!
# What resolving a locator returns

The candidates of a scope in breadth-first order, then the exact list of matches
and what `resolve` makes of its length.
-/

open Relation

namespace Grab.Kernel.Query

open Grab Grab.Lib List

/-- All nodes, or those reachable from the root of the scope. -/
def InScope (scope : QueryScope) (node : NodeId) : Prop :=
  match scope.root with
  | some root => ReflTransGen (Search.Edge scope.navigation.children) root node
  | none => node ∈ scope.navigation.nodes

/-- Where the enumeration of a scope starts its searches. -/
def QueryScope.starts (scope : QueryScope) : List NodeId :=
  match scope.root with
  | some root => [root]
  | none => scope.navigation.roots ++ scope.navigation.nodes

/-- The root of the scope, if it has one, is a node of the tree. -/
def QueryScope.RootPresent (scope : QueryScope) : Prop :=
  ∀ root, scope.root = some root → containsNode scope.navigation root = true

/-- What the lowerer of a scope answers. -/
def QueryScope.lowered (scope : QueryScope) (locator : Locator) :
    Except Error (Option LoweredCandidates) :=
  match scope.lowerer with
  | none => .ok none
  | some lower => lower locator scope.navigation

/-- The node is among the lowerer's candidates, when it gives some. -/
def Allowed (answer : Option LoweredCandidates) (node : NodeId) : Prop :=
  ∀ narrowed, answer = some narrowed → node ∈ narrowed.nodes

section

variable {nav : TreeNav} {uses : List RelationUse}

/-! ## Candidates -/

variable (accepted : Accepted nav uses)

include accepted

theorem breadthFirstSearch_exact {start : NodeId} (inside : start ∈ nav.nodes) :
    (∀ node, node ∈ breadthFirstSearch nav start ↔
        ReflTransGen (Search.Edge nav.children) start node) ∧
      (breadthFirstSearch nav start).Nodup ∧
      (breadthFirstSearch nav start).Pairwise (Traversal.NoFurther nav.children start) := by
  rw [breadthFirstSearch, if_pos ((accepted.containsNode_iff start).mpr inside)]
  exact Traversal.breadthFirst_exact accepted.children inside (Nat.le_refl _)

/-- Reachable nodes are nodes of the tree. -/
theorem mem_of_reaches {start node : NodeId} (inside : start ∈ nav.nodes)
    (path : ReflTransGen (Search.Edge nav.children) start node) : node ∈ nav.nodes := by
  rcases reflTransGen_iff_eq_or_transGen.mp path with rfl | chain
  · exact inside
  · exact mem_of_chain accepted.children inside chain

/-- A search from a node another search visits finds nothing more. -/
theorem breadthFirstSearch_subset (start node : NodeId)
    (visited : node ∈ breadthFirstSearch nav start) :
    breadthFirstSearch nav node ⊆ breadthFirstSearch nav start := by
  by_cases inside : start ∈ nav.nodes
  · have fromStart := (breadthFirstSearch_exact accepted inside).1
    have path := (fromStart node).mp visited
    have fromNode := (breadthFirstSearch_exact accepted (mem_of_reaches accepted inside path)).1
    intro other found
    exact (fromStart other).mpr (path.trans ((fromNode other).mp found))
  · rw [breadthFirstSearch, if_neg (mt (accepted.containsNode_iff start).mp inside)] at visited
    cases visited

/-- Skipping the starts that are listed already changes nothing. -/
theorem foldl_unlisted {starts order : List NodeId}
    (closed : ∀ node ∈ order, breadthFirstSearch nav node ⊆ order) :
    starts.foldl
        (fun order node => if node ∈ order then order else visitCandidates nav order node)
        order =
      starts.foldl (visitCandidates nav) order := by
  induction starts generalizing order with
  | nil => rfl
  | cons start rest ih =>
    rw [foldl_cons, foldl_cons]
    by_cases listed : start ∈ order
    · rw [if_pos listed, ih closed]
      exact congrArg (rest.foldl (visitCandidates nav))
        (Traversal.sweep_of_mem (closed start listed)).symm
    rw [if_neg listed]
    apply ih
    intro node member
    rcases mem_append.mp member with old | new
    · exact fun other found => mem_append_left _ (closed node old found)
    intro other found
    have fromStart : other ∈ breadthFirstSearch nav start :=
      breadthFirstSearch_subset accepted start node (Search.mem_fresh_iff.mp new).1 found
    by_cases old : other ∈ order
    · exact mem_append_left _ old
    · exact mem_append_right _ (Search.mem_fresh_iff.mpr ⟨fromStart, old⟩)

end

variable {scope : QueryScope}

theorem enumerateScope_exact {uses : List RelationUse} (accepted : Accepted scope.navigation uses)
    (present : scope.RootPresent) :
    ∃ order, enumerateScope scope = .ok order ∧
      Traversal.BreadthFirstOrder scope.navigation.children scope.starts [] order ∧
      order.Nodup ∧ ∀ node, node ∈ order ↔ InScope scope node := by
  have starts_subset : scope.starts ⊆ scope.navigation.nodes := by
    unfold QueryScope.starts
    split
    · rename_i root isRoot
      exact cons_subset.mpr ⟨(accepted.containsNode_iff root).mp (present root isRoot),
        nil_subset _⟩
    · exact append_subset.mpr ⟨accepted.roots, Subset.refl _⟩
  rcases @Traversal.breadthFirstOrder_sweep _ _ (breadthFirstSearch scope.navigation)
      scope.navigation.children scope.starts []
      (fun start isStart => breadthFirstSearch_exact accepted (starts_subset isStart)) with
    ⟨order, swept, isOrder⟩
  rw [nil_append] at swept
  rcases isOrder.exact with ⟨once, orderIff⟩
  refine ⟨order, ?_, isOrder, once, ?_⟩
  · unfold enumerateScope
    unfold QueryScope.starts at swept
    cases isRoot : scope.root with
    | some root =>
      rw [isRoot] at swept
      exact (if_pos (present root isRoot)).trans (congrArg Except.ok swept)
    | none =>
      rw [isRoot, foldl_append] at swept
      apply congrArg Except.ok
      rw [foldl_unlisted accepted]
      · exact swept
      -- what the roots reach is closed under the search
      rcases @Traversal.breadthFirstOrder_sweep _ _ (breadthFirstSearch scope.navigation)
          scope.navigation.children scope.navigation.roots []
          (fun start isStart =>
            breadthFirstSearch_exact accepted (accepted.roots isStart)) with
        ⟨fromRoots, rootsSwept, rootsOrder⟩
      have rootsIff := rootsOrder.exact.2
      rw [nil_append] at rootsSwept
      intro node member other found
      rw [visitCandidates, rootsSwept] at member ⊢
      rcases (rootsIff node).mp member with ⟨⟨root, isRoot, path⟩, _⟩
      have inside := mem_of_reaches accepted (accepted.roots isRoot) path
      have further := ((breadthFirstSearch_exact accepted inside).1 other).mp found
      exact (rootsIff other).mpr ⟨⟨root, isRoot, path.trans further⟩, not_mem_nil⟩
  · intro node
    rw [orderIff]
    unfold InScope QueryScope.starts at *
    cases isRoot : scope.root with
    | some root => simp
    | none =>
      rw [isRoot] at starts_subset
      constructor
      · rintro ⟨⟨start, isStart, path⟩, _⟩
        exact mem_of_reaches accepted (starts_subset isStart) path
      · intro member
        exact ⟨⟨node, mem_append_right _ member, .refl⟩, not_mem_nil⟩

/-! ## Matches -/

theorem narrow_eq (scope : QueryScope) (locator : Locator) (candidates : List NodeId) :
    narrow scope locator candidates = scope.lowered locator >>= fun answer =>
      match answer with
      | none => .ok (candidates, "")
      | some narrowed => .ok (candidates.filter (· ∈ narrowed.nodes), narrowed.provider) := by
  unfold narrow QueryScope.lowered
  cases scope.lowerer with
  | none => rfl
  | some lower =>
    simp only
    cases lower locator scope.navigation with
    | error error => rfl
    | ok answer => cases answer <;> rfl

theorem narrow_exact {locator : Locator} {candidates : List NodeId}
    {answer : Option LoweredCandidates} (answered : scope.lowered locator = .ok answer) :
    ∃ remaining provider, narrow scope locator candidates = .ok (remaining, provider) ∧
      remaining.Sublist candidates ∧
      ∀ node, node ∈ remaining ↔ node ∈ candidates ∧ Allowed answer node := by
  rw [narrow_eq, answered]
  cases answer with
  | none => exact ⟨candidates, "", rfl, Sublist.refl _, by simp [Allowed]⟩
  | some narrowed =>
    exact ⟨_, _, rfl, filter_sublist, by simp [Allowed]⟩

/-- The matches among some candidates. -/
def matchesOf (nav : TreeNav) (plan : LocatorPlan) (provider : String)
    (candidates : List NodeId) : List EvaluatedMatch :=
  candidates.filterMap fun candidate =>
    let result := evaluate nav plan candidate
    if result.matched then some ⟨candidate, result.evidence, provider⟩ else none

theorem matchesOf_nodes (nav : TreeNav) (plan : LocatorPlan) (provider : String)
    (candidates : List NodeId) : (matchesOf nav plan provider candidates).map EvaluatedMatch.node =
      candidates.filter fun candidate => (evaluate nav plan candidate).matched := by
  induction candidates with
  | nil => rfl
  | cons candidate rest ih =>
    unfold matchesOf at ih ⊢
    rw [filterMap_cons, filter_cons]
    by_cases isMatch : (evaluate nav plan candidate).matched = true
    · simp [isMatch, ih]
    · simp [isMatch, ih]

section

variable {locator : Locator} {scope : QueryScope} {maxNodes : Nat}
  (budget : locator.plan.nodeCount ≤ maxNodes)

include budget

variable (valid : validateNavigation scope.navigation locator.plan = .ok ()) {error : Error}

include valid

theorem evaluateMatches_eq :
    evaluateMatches locator scope maxNodes = enumerateScope scope >>= fun candidates =>
      narrow scope locator candidates >>= fun narrowed =>
        .ok (matchesOf scope.navigation locator.plan narrowed.2 narrowed.1) := by
  unfold evaluateMatches
  rw [if_neg (Nat.not_lt.mpr budget)]
  simp only [valid]
  rfl

theorem evaluateMatches_exact (present : scope.RootPresent) {answer : Option LoweredCandidates}
    (answered : scope.lowered locator = .ok answer) :
    ∃ order found, evaluateMatches locator scope maxNodes = .ok found ∧
      Traversal.BreadthFirstOrder scope.navigation.children scope.starts [] order ∧
      (found.map EvaluatedMatch.node).Sublist order ∧
      (found.map EvaluatedMatch.node).Nodup ∧
      ∀ node, node ∈ found.map EvaluatedMatch.node ↔
        InScope scope node ∧ Allowed answer node ∧
          Satisfies OtherOnChain scope.navigation locator.plan node := by
  have accepted := validateNavigation_ok valid
  rcases enumerateScope_exact accepted present with ⟨order, enumerated, isOrder, once, orderIff⟩
  rcases @narrow_exact scope locator order answer answered with
    ⟨remaining, provider, narrowed, kept, keptIff⟩
  have sublist : (remaining.filter fun candidate =>
      (evaluate scope.navigation locator.plan candidate).matched).Sublist order :=
    filter_sublist.trans kept
  refine ⟨order, matchesOf scope.navigation locator.plan provider remaining, ?_, isOrder, ?_⟩
  · rw [evaluateMatches_eq budget valid, enumerated]
    change (narrow scope locator order >>= _) = _
    rw [narrowed]
    rfl
  rw [matchesOf_nodes]
  refine ⟨sublist, once.sublist sublist, ?_⟩
  intro node
  rw [mem_filter, keptIff, orderIff, and_assoc]
  apply and_congr_right
  intro inScope
  apply and_congr_right
  intro _
  have member : node ∈ scope.navigation.nodes := by
    unfold InScope at inScope
    split at inScope
    · rename_i root isRoot
      exact mem_of_reaches accepted
        ((accepted.containsNode_iff root).mp (present root isRoot)) inScope
    · exact inScope
  exact matched_evaluate_iff accepted member

theorem evaluateMatches_absent (absent : ¬scope.RootPresent) :
    evaluateMatches locator scope maxNodes =
      .error ⟨.noMatch, "query scope root is not present in the tree"⟩ := by
  rw [evaluateMatches_eq budget valid, enumerateScope]
  cases isRoot : scope.root with
  | none =>
    exact absurd (fun root isSome => absurd (isRoot.symm.trans isSome) (by simp)) absent
  | some root =>
    have outside : ¬containsNode scope.navigation root = true := by
      intro inside
      apply absent
      intro other isOther
      rw [isRoot] at isOther
      rw [← Option.some.inj isOther]
      exact inside
    simp only [if_neg outside]
    rfl

theorem evaluateMatches_refused (present : scope.RootPresent)
    (refused : scope.lowered locator = .error error) :
    evaluateMatches locator scope maxNodes = .error error := by
  rcases enumerateScope_exact (validateNavigation_ok valid) present with ⟨order, enumerated, _⟩
  rw [evaluateMatches_eq budget valid, enumerated]
  change (narrow scope locator order >>= _) = _
  rw [narrow_eq, refused]
  rfl

omit valid budget

theorem resolve_of_error (failed : evaluateMatches locator scope maxNodes = .error error)
    {cardinality : Cardinality} (one : cardinality ≠ .all) :
    resolve locator cardinality scope maxNodes = .error error := by
  rw [resolve, if_neg one, failed]
  rfl

/-- What the size of the list of matches makes of a resolution. -/
theorem resolve_of_ok {found : List EvaluatedMatch}
    (ok : evaluateMatches locator scope maxNodes = .ok found) :
    (found = [] → ∀ cardinality, cardinality ≠ .all →
      resolve locator cardinality scope maxNodes = .error ⟨.noMatch, "locator matched no nodes"⟩) ∧
    (∀ first, found = [first] → resolve locator .exactlyOne scope maxNodes =
      .ok (makeMatch locator scope.navigation first)) ∧
    (2 ≤ found.length → resolve locator .exactlyOne scope maxNodes =
      .error ⟨.ambiguousMatch, "locator matched " ++ toString found.length ++ " nodes"⟩) ∧
    ∀ first rest, found = first :: rest → resolve locator .first scope maxNodes =
      .ok (makeMatch locator scope.navigation first) := by
  refine ⟨?_, ?_, ?_, ?_⟩
  · rintro rfl cardinality one
    rw [resolve, if_neg one, ok]
    rfl
  · rintro first rfl
    rw [resolve, if_neg (by simp), ok]
    rfl
  · intro several
    rw [resolve, if_neg (by simp), ok]
    match found, several with
    | _ :: _ :: _, _ => rfl
  · rintro first rest rfl
    rw [resolve, if_neg (by simp), ok]
    rfl

end

/-- `resolve_all` returns exactly the nodes in scope that the lowerer allows and that
satisfy the plan, each once and in breadth-first order, and `resolve` answers by the
length of that list.  A walk up or down answers for the other nodes on its chain.  A
root that is not in the tree and a refusing lowerer are errors. -/
theorem locator_evaluation_exact (locator : Locator) (scope : QueryScope) (maxNodes : Nat)
    (budget : locator.plan.nodeCount ≤ maxNodes)
    (valid : validateNavigation scope.navigation locator.plan = .ok ()) :
    (¬scope.RootPresent →
      resolveAll locator scope maxNodes =
          .error ⟨.noMatch, "query scope root is not present in the tree"⟩ ∧
        ∀ cardinality, cardinality ≠ .all → resolve locator cardinality scope maxNodes =
          .error ⟨.noMatch, "query scope root is not present in the tree"⟩) ∧
    (scope.RootPresent → ∀ error, scope.lowered locator = .error error →
      resolveAll locator scope maxNodes = .error error ∧
        ∀ cardinality, cardinality ≠ .all →
          resolve locator cardinality scope maxNodes = .error error) ∧
    (scope.RootPresent → ∀ answer, scope.lowered locator = .ok answer →
      ∃ order nodes,
        Traversal.BreadthFirstOrder scope.navigation.children scope.starts [] order ∧
        nodes.Sublist order ∧ nodes.Nodup ∧
        (∀ node, node ∈ nodes ↔ InScope scope node ∧ Allowed answer node ∧
          Satisfies OtherOnChain scope.navigation locator.plan node) ∧
        resolveAll locator scope maxNodes = .ok (nodes.map (makeRef scope.navigation)) ∧
        (nodes = [] → ∀ cardinality, cardinality ≠ .all →
          resolve locator cardinality scope maxNodes =
            .error ⟨.noMatch, "locator matched no nodes"⟩) ∧
        (∀ node, nodes = [node] → ∃ result,
          resolve locator .exactlyOne scope maxNodes = .ok result ∧
            result.ref = makeRef scope.navigation node) ∧
        (2 ≤ nodes.length → resolve locator .exactlyOne scope maxNodes =
          .error ⟨.ambiguousMatch, "locator matched " ++ toString nodes.length ++ " nodes"⟩) ∧
        ∀ first rest, nodes = first :: rest → ∃ result,
          resolve locator .first scope maxNodes = .ok result ∧
            result.ref = makeRef scope.navigation first) := by
  refine ⟨?_, ?_, ?_⟩
  · intro absent
    have failed := evaluateMatches_absent budget valid absent
    constructor
    · rw [resolveAll, failed]
      rfl
    · exact fun cardinality one => resolve_of_error failed one
  · intro present error refused
    have failed := evaluateMatches_refused budget valid present refused
    constructor
    · rw [resolveAll, failed]
      rfl
    · exact fun cardinality one => resolve_of_error failed one
  intro present answer answered
  rcases evaluateMatches_exact budget valid present answered with
    ⟨order, found, ok, isOrder, sublist, once, foundIff⟩
  rcases resolve_of_ok ok with ⟨whenNone, whenOne, whenSeveral, whenSome⟩
  refine ⟨order, found.map EvaluatedMatch.node, isOrder, sublist, once, foundIff,
    ?_, ?_, ?_, ?_, ?_⟩
  · rw [resolveAll, ok, List.map_map]
    rfl
  · intro empty
    exact whenNone (map_eq_nil_iff.mp empty)
  · intro node single
    rcases map_eq_singleton_iff.mp single with ⟨first, rfl, rfl⟩
    exact ⟨_, whenOne first rfl, rfl⟩
  · intro several
    rw [length_map] at several ⊢
    exact whenSeveral several
  · intro node rest isCons
    rcases map_eq_cons_iff.mp isCons with ⟨first, later, rfl, rfl, _⟩
    exact ⟨_, whenSome first later rfl, rfl⟩

/-! ## A node that is its own ancestor -/

/-- Two nodes that contain each other. -/
def mutualNav : TreeNav where
  metadata := ⟨⟨1⟩, 1, ⟨1⟩, 1, "test"⟩
  nodes := [⟨1⟩, ⟨2⟩]
  roots := []
  contains node := node == ⟨1⟩ || node == ⟨2⟩
  role node := if node = ⟨1⟩ then ⟨15⟩ else ⟨2⟩
  states _ := 0
  property _ _ := {}
  children node := if node = ⟨1⟩ then [⟨2⟩] else [⟨1⟩]
  parents node := if node = ⟨1⟩ then [⟨2⟩] else [⟨1⟩]
  related _ _ := []
  relatedReverse _ _ := []
  generation _ := ⟨1⟩
  provenance _ := ⟨⟨1⟩, 1⟩

/-- The nodes that have a button above them. -/
def belowButton : Locator := Sel.descendantOf (Sel.role ⟨15⟩)

theorem locator_evaluation_exact_mutual :
    ∃ nodes : List NodeId, (∀ node, node ∈ nodes ↔ InScope { navigation := mutualNav } node ∧
          Allowed none node ∧ Satisfies OtherOnChain mutualNav belowButton.plan node) ∧
      resolveAll belowButton { navigation := mutualNav } 8192 =
        .ok (nodes.map (makeRef mutualNav)) := by
  have budget : belowButton.plan.nodeCount ≤ 8192 := by decide
  have valid : validateNavigation mutualNav belowButton.plan = .ok () := by decide
  have present : QueryScope.RootPresent { navigation := mutualNav } := by
    intro root isRoot
    cases isRoot
  rcases (locator_evaluation_exact belowButton { navigation := mutualNav } 8192 budget
    valid).2.2 present none rfl with ⟨_, nodes, _, _, _, nodesIff, resolved, _⟩
  exact ⟨nodes, nodesIff, resolved⟩

/-- The button contains a window that contains the button, so a chain of parents leads
from it to a button, itself; it is not among the matches. -/
theorem own_ancestor_omitted :
    validateNavigation mutualNav belowButton.plan = .ok () ∧
      Satisfies OnChain mutualNav belowButton.plan ⟨1⟩ ∧
      resolveAll belowButton { navigation := mutualNav } 8192 = .ok [makeRef mutualNav ⟨2⟩] := by
  have up : Search.Edge mutualNav.parents ⟨1⟩ ⟨2⟩ :=
    show (⟨2⟩ : NodeId) ∈ mutualNav.parents ⟨1⟩ by decide
  have back : Search.Edge mutualNav.parents ⟨2⟩ ⟨1⟩ :=
    show (⟨1⟩ : NodeId) ∈ mutualNav.parents ⟨2⟩ by decide
  have isButton : Satisfies OnChain mutualNav (.role ⟨15⟩) ⟨1⟩ := by
    rw [Satisfies]
    rfl
  refine ⟨by decide, ?_, by decide⟩
  rw [show belowButton.plan = .descendantOf (.role ⟨15⟩) from rfl, Satisfies]
  exact ⟨⟨1⟩, (TransGen.single up).tail back, isButton⟩

end Grab.Kernel.Query
