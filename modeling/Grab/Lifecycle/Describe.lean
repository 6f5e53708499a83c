import Grab.Lifecycle.SessionCore

/-!
# Describing what was resolved

A match carries the runtime id its tree is stamped with, and a session looks for
the binding to describe it from by the ids it assigned itself.  The loops below
return the position of the binding they answer from together with the answer, so
that the two can be compared; the session's own functions drop it.
-/

namespace Grab.Kernel.Lifecycle

open Grab.Lib Grab.Spi Grab.Kernel.Query List Option

structure NodeInfo where
  bounds : SpaceRect
  states : UInt32
  facets : UInt32
  role : RoleId
  name : String
  title : String
  text : String
  url : String
  provenance : UiProvenance
  deriving DecidableEq

def zeroRect : SpaceRect :=
  let zero := Binary.ofInt binary64 0
  ⟨zero, zero, zero, zero, ⟨0⟩⟩

/-- A property that is not a present string is read as the empty one. -/
def readString (record : UiNodeRecord) (id : PropertyId) : String :=
  match record.property id with
  | ⟨.present, .string value⟩ => value
  | _ => ""

def nodeInfoFromRecord (record : UiNodeRecord) : NodeInfo where
  bounds :=
    match record.property PropertyId.bounds with
    | ⟨.present, .rect rect⟩ => rect
    | _ => zeroRect
  states := record.states
  facets := record.facets
  role := record.role
  name := readString record PropertyId.accessibleName
  title := readString record PropertyId.title
  text := readString record PropertyId.text
  url := readString record PropertyId.url
  provenance := record.provenance

def RuntimeBinding.snapshot (binding : RuntimeBinding) : Option UiSnapshot :=
  binding.store.current.map Generation.snapshot

namespace SessionCore

/-- Locators are resolved under the default limit. -/
def defaultMaxNodes : Nat := 8192

def noSnapshot : Error := ⟨.capabilityUnavailable, "session has no tree snapshot"⟩

/-! ## Resolving -/

/-- Only a tree without a match is passed over for the next one. -/
def resolveFrom (locator : Locator) (cardinality : Cardinality) (position : Nat)
    (anySnapshot : Bool) : List RuntimeBinding → Except Error (Nat × Match)
  | [] =>
    if anySnapshot then .error ⟨.noMatch, "locator matched no node in any tree"⟩
    else .error noSnapshot
  | binding :: rest =>
    match binding.snapshot with
    | none => resolveFrom locator cardinality (position + 1) anySnapshot rest
    | some snapshot =>
      match Query.resolve locator cardinality { navigation := snapshotTreeNav snapshot }
          defaultMaxNodes with
      | .ok found => .ok (position, found)
      | .error error =>
        if error.code ≠ .noMatch then .error error
        else resolveFrom locator cardinality (position + 1) true rest

def resolve (session : SessionCore) (locator : Locator) (cardinality : Cardinality) :
    Except Error Match :=
  (resolveFrom locator cardinality 0 false session.bindings).map Prod.snd

/-- A match that has only its ref. -/
def matchOfRef (ref : WidgetRef) : Match where
  ref := ref
  mode := .live
  snapshotRevision := 0
  matchedPredicates := []
  provenance := ⟨"", "", ⟨0⟩, 0⟩

def resolveAllFrom (locator : Locator) (position : Nat) (anySnapshot : Bool)
    (found : List (Nat × Match)) : List RuntimeBinding → Except Error (List (Nat × Match))
  | [] => if anySnapshot then .ok found else .error noSnapshot
  | binding :: rest =>
    match binding.snapshot with
    | none => resolveAllFrom locator (position + 1) anySnapshot found rest
    | some snapshot =>
      match Query.resolveAll locator { navigation := snapshotTreeNav snapshot }
          defaultMaxNodes with
      | .error error => .error error
      | .ok refs =>
        resolveAllFrom locator (position + 1) true
          (found ++ refs.map fun ref => (position, matchOfRef ref)) rest

def resolveAll (session : SessionCore) (locator : Locator) : Except Error (List Match) :=
  (resolveAllFrom locator 0 false [] session.bindings).map (List.map Prod.snd)

/-! ## Describing -/

def describeFrom (ref : WidgetRef) (position : Nat) (anySnapshot staleSeen : Bool) :
    List RuntimeBinding → Except Error (Nat × UiNodeRecord)
  | [] =>
    if staleSeen then .error ⟨.staleNode, "resolved node generation is stale"⟩
    else if !anySnapshot then .error noSnapshot
    else .error ⟨.noMatch, "resolved node is not present in the current snapshot"⟩
  | binding :: rest =>
    if binding.assignedRuntime ≠ ref.runtime ∧ ref.runtime ≠ ⟨0⟩ then
      describeFrom ref (position + 1) anySnapshot staleSeen rest
    else
      match binding.snapshot with
      | none => describeFrom ref (position + 1) anySnapshot staleSeen rest
      | some snapshot =>
        match snapshot.node ⟨ref.node⟩ with
        | none => describeFrom ref (position + 1) true staleSeen rest
        | some record =>
          if record.generation ≠ ref.generation then
            describeFrom ref (position + 1) true true rest
          else .ok (position, record)

/-- The binding that describes a match, and the record it has. -/
def describedBy (session : SessionCore) (found : Match) : Except Error (Nat × UiNodeRecord) :=
  describeFrom found.ref 0 false false session.bindings

def describe (session : SessionCore) (found : Match) : Except Error NodeInfo :=
  (session.describedBy found).map fun answer => nodeInfoFromRecord answer.2

/-! ## Who answers -/

/-- The binding's tree has the node of a ref, at its generation. -/
def Has (binding : RuntimeBinding) (ref : WidgetRef) (record : UiNodeRecord) : Prop :=
  ∃ snapshot, binding.snapshot = some snapshot ∧ snapshot.node ⟨ref.node⟩ = some record ∧
    record.generation = ref.generation

/-- A ref addresses the bindings its runtime id was assigned to, or all of them when
it has none. -/
def Addresses (ref : WidgetRef) (binding : RuntimeBinding) : Prop :=
  ref.runtime = ⟨0⟩ ∨ binding.assignedRuntime = ref.runtime

/-- The binding at a position is addressed and has the node. -/
def Claims (session : SessionCore) (ref : WidgetRef) (position : Nat) : Prop :=
  ∃ binding record, session.bindings[position]? = some binding ∧ Addresses ref binding ∧
    Has binding ref record

section

variable {ref : WidgetRef} {binding : RuntimeBinding} {record : UiNodeRecord}

theorem Has.unique {other : UiNodeRecord} (first : Has binding ref record)
    (second : Has binding ref other) : record = other := by
  rcases first with ⟨snapshot, isSnapshot, isNode, _⟩
  rcases second with ⟨snapshot', isSnapshot', isNode', _⟩
  rw [isSnapshot] at isSnapshot'
  rw [← some.inj isSnapshot', isNode] at isNode'
  exact some.inj isNode'

/-- One turn of the loop answers, or passes over a binding that cannot. -/
theorem describeFrom_cons (position : Nat) (anySnapshot staleSeen : Bool)
    (rest : List RuntimeBinding) : (∃ record, Addresses ref binding ∧ Has binding ref record ∧
      describeFrom ref position anySnapshot staleSeen (binding :: rest) = .ok (position, record)) ∨
    (¬(Addresses ref binding ∧ ∃ record, Has binding ref record) ∧
      ∃ anyLater staleLater,
        describeFrom ref position anySnapshot staleSeen (binding :: rest) =
          describeFrom ref (position + 1) anyLater staleLater rest) := by
  rw [describeFrom]
  split
  · rename_i elsewhere
    refine .inr ⟨?_, _, _, rfl⟩
    rintro ⟨unnamed | assigned, _⟩
    · exact elsewhere.2 unnamed
    · exact elsewhere.1 assigned
  rename_i here
  have addressed : Addresses ref binding := by
    unfold Addresses
    tauto
  split
  · rename_i noTree
    refine .inr ⟨?_, _, _, rfl⟩
    rintro ⟨_, _, snapshot, isSnapshot, _⟩
    rw [noTree] at isSnapshot
    cases isSnapshot
  rename_i snapshot isSnapshot
  split
  · rename_i noNode
    refine .inr ⟨?_, _, _, rfl⟩
    rintro ⟨_, _, other, isOther, isNode, _⟩
    rw [isSnapshot] at isOther
    rw [← some.inj isOther, noNode] at isNode
    cases isNode
  rename_i record isNode
  split
  · rename_i stale
    refine .inr ⟨?_, _, _, rfl⟩
    rintro ⟨_, other, otherTree, isOther, isOtherNode, fresh⟩
    rw [isSnapshot] at isOther
    rw [← some.inj isOther, isNode] at isOtherNode
    rw [← some.inj isOtherNode] at fresh
    exact stale fresh
  · rename_i fresh
    exact .inl ⟨record, addressed, ⟨snapshot, isSnapshot, isNode, not_not.mp fresh⟩, rfl⟩

/-- The first binding that is addressed and has the node answers, and when there is
none the session fails. -/
theorem describeFrom_cases (position : Nat) (anySnapshot staleSeen : Bool)
    (bindings : List RuntimeBinding) :
    (∃ offset binding record, bindings[offset]? = some binding ∧ Addresses ref binding ∧
      Has binding ref record ∧
      (∀ earlier < offset, ∀ other, bindings[earlier]? = some other →
        ¬(Addresses ref other ∧ ∃ record, Has other ref record)) ∧
      describeFrom ref position anySnapshot staleSeen bindings = .ok (position + offset, record)) ∨
    ((∀ other ∈ bindings, ¬(Addresses ref other ∧ ∃ record, Has other ref record)) ∧
      ∃ error, describeFrom ref position anySnapshot staleSeen bindings = .error error) := by
  induction bindings generalizing position anySnapshot staleSeen with
  | nil =>
    refine .inr ⟨by simp, ?_⟩
    unfold describeFrom
    split
    · exact ⟨_, rfl⟩
    · split <;> exact ⟨_, rfl⟩
  | cons binding rest ih =>
    rcases @describeFrom_cons ref binding position anySnapshot staleSeen rest with
      ⟨record, addressed, has, answers⟩ | ⟨passed, anyLater, staleLater, continues⟩
    · exact .inl ⟨0, binding, record, rfl, addressed, has, by simp, answers⟩
    rw [continues]
    rcases ih (position + 1) anyLater staleLater with
      ⟨offset, found, record, isFound, addressed, has, first, answers⟩ | ⟨none, fails⟩
    · refine .inl ⟨offset + 1, found, record, isFound, addressed, has, ?_, ?_⟩
      · intro earlier before other isOther
        cases earlier with
        | zero =>
          rw [getElem?_cons_zero] at isOther
          rw [← some.inj isOther]
          exact passed
        | succ earlier => exact first earlier (Nat.lt_of_succ_lt_succ before) other isOther
      · rw [answers, Nat.add_right_comm, Nat.add_assoc]
    · refine .inr ⟨?_, fails⟩
      intro other member
      rcases mem_cons.mp member with rfl | inRest
      · exact passed
      · exact none other inRest

end

/-- The record the binding at a position has of the node of a ref. -/
def HasAt (session : SessionCore) (ref : WidgetRef) (position : Nat) (record : UiNodeRecord) :
    Prop :=
  ∃ binding, session.bindings[position]? = some binding ∧ Has binding ref record

theorem describedBy_cases (session : SessionCore) (found : Match) :
    (∃ position record, session.Claims found.ref position ∧
      session.HasAt found.ref position record ∧
      (∀ earlier < position, ¬session.Claims found.ref earlier) ∧
      session.describedBy found = .ok (position, record)) ∨
    ((∀ position, ¬session.Claims found.ref position) ∧
      ∃ error, session.describedBy found = .error error) := by
  rcases @describeFrom_cases found.ref 0 false false session.bindings with
    ⟨position, binding, record, isBinding, addressed, has, first, answers⟩ | ⟨none, fails⟩
  · rw [Nat.zero_add] at answers
    refine .inl ⟨position, record, ⟨binding, record, isBinding, addressed, has⟩,
      ⟨binding, isBinding, has⟩, ?_, answers⟩
    rintro earlier before ⟨other, otherRecord, isOther, otherAddressed, otherHas⟩
    exact first earlier before other isOther ⟨otherAddressed, otherRecord, otherHas⟩
  · refine .inr ⟨?_, fails⟩
    rintro position ⟨binding, record, isBinding, addressed, has⟩
    exact none binding (mem_of_getElem? isBinding) ⟨addressed, record, has⟩

/-! ## What was matched -/

section

variable {locator : Locator} {snapshot : UiSnapshot}

/-- What a whole tree is searched for is a node of it. -/
theorem mem_of_evaluateMatches {matched : List EvaluatedMatch}
    (ok : evaluateMatches locator { navigation := snapshotTreeNav snapshot } defaultMaxNodes =
      .ok matched) {evaluated : EvaluatedMatch} (member : evaluated ∈ matched) :
    evaluated.node ∈ (snapshotTreeNav snapshot).nodes := by
  have small : locator.plan.nodeCount ≤ defaultMaxNodes := by
    by_contra large
    rw [evaluateMatches, if_pos (Nat.lt_of_not_le large)] at ok
    cases ok
  have valid : validateNavigation (snapshotTreeNav snapshot) locator.plan = .ok () := by
    rw [evaluateMatches, if_neg (Nat.not_lt.mpr small)] at ok
    cases checked : validateNavigation (snapshotTreeNav snapshot) locator.plan with
    | ok => rfl
    | error error =>
      simp only [checked] at ok
      cases ok
  have noRoot : QueryScope.RootPresent { navigation := snapshotTreeNav snapshot } := by
    intro root isRoot
    cases isRoot
  rcases @evaluateMatches_exact locator { navigation := snapshotTreeNav snapshot }
      defaultMaxNodes small valid noRoot none rfl with
    ⟨_, exact, same, _, _, _, matchedIff⟩
  rw [ok] at same
  rw [← Except.ok.inj same] at matchedIff
  exact ((matchedIff evaluated.node).mp (mem_map_of_mem member)).1

/-- A ref to a node of a snapshot, stamped as the snapshot is. -/
def RefersTo (ref : WidgetRef) (snapshot : UiSnapshot) (record : UiNodeRecord) : Prop :=
  snapshot.node ⟨ref.node⟩ = some record ∧
    ref = ⟨snapshot.metadata.runtime, snapshot.metadata.tree, snapshot.metadata.epoch, ref.node,
      record.generation⟩

theorem refersTo_makeRef {node : NodeId} (member : node ∈ (snapshotTreeNav snapshot).nodes) :
    ∃ record, RefersTo (makeRef (snapshotTreeNav snapshot) node) snapshot record := by
  rcases node_of_mem member with ⟨record, isNode⟩
  refine ⟨record, isNode, ?_⟩
  simp [makeRef, snapshotTreeNav, isNode]

theorem refersTo_of_resolve {cardinality : Cardinality} {found : Match}
    (ok : Query.resolve locator cardinality { navigation := snapshotTreeNav snapshot }
      defaultMaxNodes = .ok found) : ∃ record, RefersTo found.ref snapshot record := by
  unfold Query.resolve at ok
  split at ok
  · cases ok
  rcases bind_ok ok with ⟨matched, evaluatedOk, ok⟩
  cases matched with
  | nil => cases ok
  | cons first rest =>
    dsimp only at ok
    split at ok
    · cases ok
    · rw [← Except.ok.inj ok]
      exact refersTo_makeRef (mem_of_evaluateMatches evaluatedOk mem_cons_self)

theorem refersTo_of_resolveAll {refs : List WidgetRef}
    (ok : Query.resolveAll locator { navigation := snapshotTreeNav snapshot } defaultMaxNodes =
      .ok refs) {ref : WidgetRef} (member : ref ∈ refs) :
    ∃ record, RefersTo ref snapshot record := by
  unfold Query.resolveAll at ok
  rcases bind_ok ok with ⟨matched, evaluatedOk, ok⟩
  rw [← Except.ok.inj ok] at member
  rcases mem_map.mp member with ⟨evaluated, isEvaluated, rfl⟩
  exact refersTo_makeRef (mem_of_evaluateMatches evaluatedOk isEvaluated)

end

/-- The binding at a position has the tree that a match was found in. -/
def FoundAt (bindings : List RuntimeBinding) (position : Nat) (found : Match) : Prop :=
  ∃ binding snapshot record, bindings[position]? = some binding ∧
    binding.snapshot = some snapshot ∧ RefersTo found.ref snapshot record

variable {bindings : List RuntimeBinding} {found : Match} {session : SessionCore}
  {start position : Nat} {anySnapshot : Bool} {locator : Locator}

theorem foundAt_of_resolveFrom {cardinality : Cardinality}
    (ok : resolveFrom locator cardinality start anySnapshot bindings = .ok (position, found)) :
    ∃ offset, position = start + offset ∧ FoundAt bindings offset found := by
  induction bindings generalizing start anySnapshot with
  | nil =>
    unfold resolveFrom at ok
    split at ok <;> cases ok
  | cons binding rest ih =>
    have later : ∀ anyLater,
        resolveFrom locator cardinality (start + 1) anyLater rest = .ok (position, found) →
        ∃ offset, position = start + offset ∧ FoundAt (binding :: rest) offset found := by
      intro anyLater restOk
      rcases ih restOk with ⟨offset, isAt, foundAt⟩
      refine ⟨offset + 1, ?_, foundAt⟩
      rw [isAt, Nat.add_right_comm, Nat.add_assoc]
    unfold resolveFrom at ok
    split at ok
    · exact later _ ok
    rename_i snapshot isSnapshot
    split at ok
    · rename_i here resolved
      cases ok
      rcases refersTo_of_resolve resolved with ⟨record, refers⟩
      exact ⟨0, rfl, binding, snapshot, record, rfl, isSnapshot, refers⟩
    · split at ok
      · cases ok
      · exact later _ ok

theorem foundAt_of_resolveAllFrom {earlier all : List (Nat × Match)}
    (ok : resolveAllFrom locator start anySnapshot earlier bindings = .ok all)
    (member : (position, found) ∈ all) : (position, found) ∈ earlier ∨
      ∃ offset, position = start + offset ∧ FoundAt bindings offset found := by
  induction bindings generalizing start anySnapshot earlier with
  | nil =>
    unfold resolveAllFrom at ok
    split at ok
    · rw [← Except.ok.inj ok] at member
      exact .inl member
    · cases ok
  | cons binding rest ih =>
    have later : ∀ {anyLater : Bool} {gathered : List (Nat × Match)},
        resolveAllFrom locator (start + 1) anyLater gathered rest = .ok all →
        (position, found) ∈ gathered ∨
          ∃ offset, position = start + offset ∧ FoundAt (binding :: rest) offset found := by
      intro anyLater gathered restOk
      rcases ih restOk with isEarlier | ⟨offset, isAt, foundAt⟩
      · exact .inl isEarlier
      · refine .inr ⟨offset + 1, ?_, foundAt⟩
        rw [isAt, Nat.add_right_comm, Nat.add_assoc]
    unfold resolveAllFrom at ok
    split at ok
    · exact later ok
    rename_i snapshot isSnapshot
    split at ok
    · cases ok
    rename_i refs resolved
    rcases later ok with gathered | isLater
    · rcases mem_append.mp gathered with isEarlier | isHere
      · exact .inl isEarlier
      · rcases mem_map.mp isHere with ⟨ref, isRef, made⟩
        cases made
        rcases refersTo_of_resolveAll resolved isRef with ⟨record, refers⟩
        exact .inr ⟨0, rfl, binding, snapshot, record, rfl, isSnapshot, refers⟩
    · exact .inr isLater

/-- A match that the session returned, with the position of the binding whose tree
was matched. -/
def MatchedAt (session : SessionCore) (position : Nat) (found : Match) : Prop :=
  (∃ locator cardinality,
      resolveFrom locator cardinality 0 false session.bindings = .ok (position, found)) ∨
    ∃ locator all, resolveAllFrom locator 0 false [] session.bindings = .ok all ∧
      (position, found) ∈ all

theorem MatchedAt.foundAt (matched : session.MatchedAt position found) :
    FoundAt session.bindings position found := by
  rcases matched with ⟨locator, cardinality, ok⟩ | ⟨locator, all, ok, member⟩
  · rcases foundAt_of_resolveFrom ok with ⟨offset, isAt, foundAt⟩
    rw [isAt, Nat.zero_add]
    exact foundAt
  rcases foundAt_of_resolveAllFrom ok member with isEarlier | ⟨offset, isAt, foundAt⟩
  · cases isEarlier
  · rw [isAt, Nat.zero_add]
    exact foundAt

/-! ## The answer -/

/-- What the session's stores show, under the ids it assigned. -/
def trees (session : SessionCore) : List (RuntimeId × Option UiSnapshot) :=
  session.bindings.map fun binding => (binding.assignedRuntime, binding.snapshot)

/-- The ref addresses its binding, and no binding before that has the node too. -/
def Routed (session : SessionCore) (ref : WidgetRef) (position : Nat) : Prop :=
  (∃ binding, session.bindings[position]? = some binding ∧ Addresses ref binding) ∧
    ∀ earlier < position, ¬session.Claims ref earlier

/-- Whenever a binding could answer, the one at the position can and comes first. -/
def Unrivalled (session : SessionCore) (ref : WidgetRef) (position : Nat) : Prop :=
  ∀ other, session.Claims ref other → position ≤ other ∧ session.Claims ref position

/-- The tree at a position is of the runtime, tree and epoch of the ref. -/
def SameTree (session : SessionCore) (ref : WidgetRef) (position : Nat) : Prop :=
  ∃ binding snapshot, session.bindings[position]? = some binding ∧
    binding.snapshot = some snapshot ∧ snapshot.metadata.runtime = ref.runtime ∧
    snapshot.metadata.tree = ref.tree ∧ snapshot.metadata.epoch = ref.epoch

section

variable {later : SessionCore} {ref : WidgetRef} {record : UiNodeRecord}

theorem HasAt.unique {other : UiNodeRecord} (first : session.HasAt ref position record)
    (second : session.HasAt ref position other) : record = other := by
  rcases first with ⟨binding, isBinding, has⟩
  rcases second with ⟨binding', isBinding', has'⟩
  rw [isBinding] at isBinding'
  rw [← some.inj isBinding'] at has'
  exact has.unique has'

variable (same : later.trees = session.trees)

include same

/-- A binding shows in another session what stands at its position here. -/
theorem binding_of_trees {binding : RuntimeBinding}
    (isBinding : session.bindings[position]? = some binding) :
    ∃ other, later.bindings[position]? = some other ∧
      other.assignedRuntime = binding.assignedRuntime ∧ other.snapshot = binding.snapshot := by
  have shown : later.trees[position]? = some (binding.assignedRuntime, binding.snapshot) := by
    rw [same, trees, getElem?_map, isBinding]
    rfl
  rw [trees, getElem?_map] at shown
  cases isOther : later.bindings[position]? with
  | none =>
    rw [isOther] at shown
    cases shown
  | some other =>
    rw [isOther] at shown
    rcases Prod.mk.inj (some.inj shown) with ⟨assignedEq, snapshotEq⟩
    exact ⟨other, rfl, assignedEq, snapshotEq⟩

theorem Claims.of_trees (claims : session.Claims ref position) : later.Claims ref position := by
  rcases claims with ⟨binding, record, isBinding, addressed, snapshot, isSnapshot, node⟩
  rcases binding_of_trees same isBinding with ⟨other, isOther, assignedEq, snapshotEq⟩
  refine ⟨other, record, isOther, ?_, snapshot, snapshotEq.trans isSnapshot, node⟩
  unfold Addresses at addressed ⊢
  rw [assignedEq]
  exact addressed

theorem HasAt.of_trees (has : session.HasAt ref position record) :
    later.HasAt ref position record := by
  rcases has with ⟨binding, isBinding, snapshot, isSnapshot, node⟩
  rcases binding_of_trees same isBinding with ⟨other, isOther, _, snapshotEq⟩
  exact ⟨other, isOther, snapshot, snapshotEq.trans isSnapshot, node⟩

/-- As long as the trees are those that were matched, the node is described from its
binding exactly when the ref is routed there. -/
theorem describedBy_iff_routed (has : session.HasAt found.ref position record) :
    later.describedBy found = .ok (position, record) ↔ session.Routed found.ref position := by
  constructor
  · intro described
    rcases later.describedBy_cases found with
      ⟨first, answer, claims, _, noEarlier, answers⟩ | ⟨_, error, fails⟩
    · rw [described] at answers
      cases answers
      rcases claims.of_trees same.symm with ⟨binding, _, isBinding, addressed, _⟩
      refine ⟨⟨binding, isBinding, addressed⟩, ?_⟩
      exact fun earlier before sooner => noEarlier earlier before (sooner.of_trees same)
    · rw [described] at fails
      cases fails
  · rintro ⟨⟨binding, isBinding, addressed⟩, noEarlier⟩
    rcases has with ⟨binding', isBinding', hasNode⟩
    rw [isBinding] at isBinding'
    cases isBinding'
    have claims : session.Claims found.ref position :=
      ⟨binding, record, isBinding, addressed, hasNode⟩
    rcases later.describedBy_cases found with
      ⟨first, answer, firstClaims, hasFirst, firstNoEarlier, answers⟩ | ⟨none, _⟩
    · rcases Nat.lt_trichotomy first position with before | rfl | behind
      · exact absurd (firstClaims.of_trees same.symm) (noEarlier first before)
      · have here : later.HasAt found.ref first record :=
          HasAt.of_trees same ⟨binding, isBinding, hasNode⟩
        rw [answers, hasFirst.unique here]
      · exact absurd (claims.of_trees same) (firstNoEarlier position behind)
    · exact absurd (claims.of_trees same) (none position)

omit same

/-- No other binding answers exactly when the one at the position is unrivalled. -/
theorem answers_only_iff_unrivalled :
    (∀ other answer, session.describedBy found = .ok (other, answer) → other = position) ↔
      session.Unrivalled found.ref position := by
  rcases session.describedBy_cases found with
    ⟨first, record, claims, _, noEarlier, answers⟩ | ⟨none, error, fails⟩
  · constructor
    · intro only other otherClaims
      rw [← only first record answers]
      refine ⟨?_, claims⟩
      by_contra before
      exact noEarlier other (Nat.lt_of_not_le before) otherClaims
    · intro unrivalled other answer isAnswer
      rw [answers] at isAnswer
      cases isAnswer
      rcases unrivalled first claims with ⟨behind, positionClaims⟩
      apply Nat.le_antisymm _ behind
      by_contra before
      exact noEarlier position (Nat.lt_of_not_le before) positionClaims
  · constructor
    · exact fun _ other otherClaims => absurd otherClaims (none other)
    · intro _ other answer isAnswer
      rw [fails] at isAnswer
      cases isAnswer

/-- The answer is the present record of the same node exactly when besides that the
tree at the position, if it answers, is still of the ref's scope. -/
theorem answers_same_iff : (∀ other answer, session.describedBy found = .ok (other, answer) →
      other = position ∧ session.SameTree found.ref position ∧
        session.HasAt found.ref position answer) ↔
      session.Unrivalled found.ref position ∧
        (session.Claims found.ref position → session.SameTree found.ref position) := by
  rw [← answers_only_iff_unrivalled]
  constructor
  · intro answersSame
    have only : ∀ other answer, session.describedBy found = .ok (other, answer) →
        other = position := fun other answer isAnswer => (answersSame other answer isAnswer).1
    refine ⟨only, ?_⟩
    intro claims
    rcases session.describedBy_cases found with
      ⟨first, record, _, _, _, answers⟩ | ⟨none, _⟩
    · exact (answersSame first record answers).2.1
    · exact absurd claims (none position)
  · rintro ⟨only, sameTree⟩ other answer isAnswer
    have isPosition := only other answer isAnswer
    subst isPosition
    rcases session.describedBy_cases found with
      ⟨first, record, claims, has, _, answers⟩ | ⟨_, error, fails⟩
    · rw [isAnswer] at answers
      cases answers
      exact ⟨rfl, sameTree claims, has⟩
    · rw [isAnswer] at fails
      cases fails

theorem FoundAt.hasAt (foundAt : FoundAt session.bindings position found) :
    ∃ record, session.HasAt found.ref position record := by
  rcases foundAt with ⟨binding, snapshot, record, isBinding, isSnapshot, isNode, refEq⟩
  exact ⟨record, binding, isBinding, snapshot, isSnapshot, isNode,
    (congrArg WidgetRef.generation refEq).symm⟩

end

/-- A match of any session, whatever was attached, pumped and resynced before and
after.  Until a tree changes, the match is described by the record that was matched
exactly when its runtime id is that of its binding and no earlier binding with that id
has a node of the same id and generation.  Later no other binding's record is returned
exactly when none that could answer comes before its own, and the record returned is
the node's own exactly when moreover its binding still shows the tree of the match. -/
theorem describe_answers_matched (actions more : List Action) {position : Nat} {found : Match}
    (matched : (after actions).MatchedAt position found) :
    ∃ record, (after actions).HasAt found.ref position record ∧
      ((after (actions ++ more)).trees = (after actions).trees →
        ((after (actions ++ more)).describedBy found = .ok (position, record) ↔
          (after actions).Routed found.ref position)) ∧
      ((∀ other answer, (after (actions ++ more)).describedBy found = .ok (other, answer) →
          other = position) ↔
        (after (actions ++ more)).Unrivalled found.ref position) ∧
      ((∀ other answer, (after (actions ++ more)).describedBy found = .ok (other, answer) →
          other = position ∧ (after (actions ++ more)).SameTree found.ref position ∧
            (after (actions ++ more)).HasAt found.ref position answer) ↔
        (after (actions ++ more)).Unrivalled found.ref position ∧
          ((after (actions ++ more)).Claims found.ref position →
            (after (actions ++ more)).SameTree found.ref position)) := by
  rcases matched.foundAt.hasAt with ⟨record, has⟩
  refine ⟨record, has, ?_, answers_only_iff_unrivalled, answers_same_iff⟩
  exact fun same => describedBy_iff_routed same has

/-! ## Two runtimes with each other's ids -/

/-- A node of a runtime, at generation one. -/
def stampedNode (id : UInt64) (runtime : UInt32) (role : UInt32) : UiNodeRecord :=
  ⟨⟨id⟩, ⟨1⟩, ⟨role⟩, 0, 0, [], ⟨⟨runtime⟩, 1⟩⟩

/-- A source that stamps a tree of one node. -/
def sourceOf (runtime : UInt32) (role : UInt32) : TreeSource where
  drained := {}
  snapshot := .ok ⟨⟨⟨runtime⟩, 1, ⟨1⟩, 1, true⟩, [stampedNode 7 runtime role], [⟨7⟩], []⟩

/-- The first runtime is assigned the id one and stamps two, the second the other way
round. -/
def crossed : List Action :=
  [.attach 0 (some (sourceOf 2 1)) none, .attach 1 (some (sourceOf 1 2)) none]

def crossedMatch : Match := matchOfRef ⟨⟨2⟩, 1, ⟨1⟩, 7, ⟨1⟩⟩

/-- Both nodes match, each in its tree. -/
def crossedMatches : List (Nat × Match) :=
  [(0, crossedMatch), (1, matchOfRef ⟨⟨1⟩, 1, ⟨1⟩, 7, ⟨1⟩⟩)]

theorem resolveAll_crossed :
    resolveAllFrom {} 0 false [] (after crossed).bindings = .ok crossedMatches := by
  decide +kernel

theorem hasAt_of_node {ref : WidgetRef} {record : UiNodeRecord}
    (isNode : (session.bindings[position]?.bind RuntimeBinding.snapshot).bind
      (fun snapshot => snapshot.node ⟨ref.node⟩) = some record)
    (fresh : record.generation = ref.generation) : session.HasAt ref position record := by
  rcases bind_eq_some_iff.mp isNode with ⟨snapshot, shown, isNode⟩
  rcases bind_eq_some_iff.mp shown with ⟨binding, isBinding, isSnapshot⟩
  exact ⟨binding, isBinding, snapshot, isSnapshot, isNode, fresh⟩

/-- The node of the first tree is described by that of the second, which has the same
id, although nothing was updated in between. -/
theorem describe_answers_crossed :
    (attach {} 0 (some (sourceOf 2 1)) none).2 = .ok () ∧
      (attach (after [.attach 0 (some (sourceOf 2 1)) none]) 1 (some (sourceOf 1 2)) none).2 =
        .ok () ∧
      (after crossed).MatchedAt 0 crossedMatch ∧
      (after crossed).HasAt crossedMatch.ref 0 (stampedNode 7 2 1) ∧
      (after crossed).describedBy crossedMatch = .ok (1, stampedNode 7 1 2) ∧
      (after crossed).describe crossedMatch = .ok (nodeInfoFromRecord (stampedNode 7 1 2)) ∧
      nodeInfoFromRecord (stampedNode 7 1 2) ≠ nodeInfoFromRecord (stampedNode 7 2 1) := by
  refine ⟨by decide +kernel, by decide +kernel, ?_, ?_, by decide +kernel, by decide +kernel,
    by decide +kernel⟩
  · exact .inr ⟨{}, crossedMatches, resolveAll_crossed, by simp [crossedMatches]⟩
  · exact hasAt_of_node (by decide +kernel) rfl

/-- A runtime attached under the id it stamps. -/
def aligned : List Action := [.attach 0 (some (sourceOf 2 1)) (some ⟨2⟩)]

theorem resolveAll_aligned :
    resolveAllFrom {} 0 false [] (after aligned).bindings = .ok [(0, crossedMatch)] := by
  decide +kernel

theorem describe_answers_aligned :
    (after aligned).MatchedAt 0 crossedMatch ∧
      ∃ record, (after aligned).HasAt crossedMatch.ref 0 record ∧
        ((after (aligned ++ [])).trees = (after aligned).trees →
          ((after (aligned ++ [])).describedBy crossedMatch = .ok (0, record) ↔
            (after aligned).Routed crossedMatch.ref 0)) ∧
        ((∀ other answer, (after (aligned ++ [])).describedBy crossedMatch = .ok (other, answer) →
            other = 0) ↔
          (after (aligned ++ [])).Unrivalled crossedMatch.ref 0) ∧
        ((∀ other answer, (after (aligned ++ [])).describedBy crossedMatch = .ok (other, answer) →
            other = 0 ∧ (after (aligned ++ [])).SameTree crossedMatch.ref 0 ∧
              (after (aligned ++ [])).HasAt crossedMatch.ref 0 answer) ↔
          (after (aligned ++ [])).Unrivalled crossedMatch.ref 0 ∧
            ((after (aligned ++ [])).Claims crossedMatch.ref 0 →
              (after (aligned ++ [])).SameTree crossedMatch.ref 0)) := by
  have matched : (after aligned).MatchedAt 0 crossedMatch :=
    .inr ⟨{}, [(0, crossedMatch)], resolveAll_aligned, mem_singleton.mpr rfl⟩
  exact ⟨matched, describe_answers_matched aligned [] matched⟩

/-! ## The first match and all of them -/

section

variable {locator : Locator}

theorem resolve_first_cases {scope : QueryScope} {refs : List WidgetRef} {maxNodes : Nat}
    (ok : Query.resolveAll locator scope maxNodes = .ok refs) :
    (refs = [] ∧ Query.resolve locator .first scope maxNodes =
        .error ⟨.noMatch, "locator matched no nodes"⟩) ∨
      ∃ found rest, refs = found.ref :: rest ∧
        Query.resolve locator .first scope maxNodes = .ok found := by
  unfold Query.resolveAll at ok
  rcases bind_ok ok with ⟨matched, evaluated, ok⟩
  rw [← Except.ok.inj ok]
  have resolved := resolve_of_ok evaluated
  cases matched with
  | nil => exact .inl ⟨rfl, resolved.1 rfl .first (by decide)⟩
  | cons first rest => exact .inr ⟨_, _, rfl, resolved.2.2.2 first rest rfl⟩

def noMatch : Error := ⟨.noMatch, "locator matched no node in any tree"⟩

theorem resolveFrom_first {start : Nat} {anySnapshot : Bool} {bindings : List RuntimeBinding}
    {earlier all : List (Nat × Match)}
    (ok : resolveAllFrom locator start anySnapshot earlier bindings = .ok all) :
    ∃ more, all = earlier ++ more ∧
      (resolveFrom locator .first start anySnapshot bindings).map (·.2.ref) =
        (more.map (·.2.ref)).head?.elim (.error noMatch) .ok := by
  induction bindings generalizing start anySnapshot earlier with
  | nil =>
    unfold resolveAllFrom at ok
    unfold resolveFrom
    split at ok
    · next taken =>
      rw [← Except.ok.inj ok, if_pos taken]
      exact ⟨[], (append_nil _).symm, rfl⟩
    · cases ok
  | cons binding rest ih =>
    unfold resolveAllFrom at ok
    unfold resolveFrom
    split at ok
    · exact ih ok
    next snapshot _ =>
    split at ok
    · cases ok
    next resolved =>
    rcases ih ok with ⟨more, allEq, first⟩
    refine ⟨_, allEq.trans (append_assoc ..), ?_⟩
    rcases resolve_first_cases resolved with ⟨rfl, none⟩ | ⟨found, others, rfl, one⟩
    · rw [none]
      exact first
    · rw [one]
      rfl

/-- When all matches of a session's trees can be gathered, a resolution of the first answers the
first of them, or that there is none. -/
theorem resolve_first_of_resolveAll (session : SessionCore) {found : List Match}
    (ok : session.resolveAll locator = .ok found) :
    (session.resolve locator .first).map Match.ref =
      (found.map Match.ref).head?.elim (.error noMatch) .ok := by
  unfold resolveAll at ok
  cases gathered : resolveAllFrom locator 0 false [] session.bindings with
  | error error =>
    rw [gathered] at ok
    cases ok
  | ok all =>
    rw [gathered] at ok
    rcases resolveFrom_first gathered with ⟨more, rfl, first⟩
    rw [← Except.ok.inj ok, List.map_map, resolve]
    refine Eq.trans ?_ first
    cases resolveFrom locator .first 0 false session.bindings <;> rfl

end

theorem resolve_first_crossed :
    ((after crossed).resolve {} .first).map Match.ref = .ok crossedMatch.ref :=
  resolve_first_of_resolveAll _ (congrArg (Except.map (map Prod.snd)) resolveAll_crossed)

end SessionCore

end Grab.Kernel.Lifecycle
