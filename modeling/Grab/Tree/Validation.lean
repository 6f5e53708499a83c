import Grab.Lib.Kahn
import Grab.Tree.Generation

/-!
# Which records make a snapshot

Validation accepts exactly the well-formed records.  Every loop of it adds keys to a list that
holds none twice, and visiting the contained nodes reaches all of them exactly when containment
has no cycle.
-/

namespace Grab.Kernel

open Std Grab.Lib List

/-! ## Well-formed records -/

/-- The first node contains the second. -/
def Contains (relations : List UiRelation) (parent child : NodeId) : Prop :=
  ⟨parent, child, Relation.contains⟩ ∈ relations

structure NodeFine (record : UiNodeRecord) : Prop where
  nonzero : record.id.value ≠ 0
  few : record.propertyIds.length ≤ maxPropertiesPerNode
  once : record.propertyIds.Nodup

structure RelationFine (known : List NodeId) (relation : UiRelation) : Prop where
  source : relation.source ∈ known
  target : relation.target ∈ known
  different : relation.source ≠ relation.target
  permitted : relation.relation.value < Relation.coreCount ∨
    Relation.coreBitCount ≤ relation.relation.value

structure RootFine (known : List NodeId) (relations : List UiRelation) (root : NodeId) : Prop where
  known : root ∈ known
  free : ∀ parent, ¬Contains relations parent root

structure WellFormed (nodes : List UiNodeRecord) (suppliedRoots : List NodeId)
    (relations : List UiRelation) : Prop where
  nodesOnce : (nodes.map UiNodeRecord.id).Nodup
  nodesFine : ∀ record ∈ nodes, NodeFine record
  relationsOnce : relations.Nodup
  relationsFine : ∀ relation ∈ relations, RelationFine (nodes.map UiNodeRecord.id) relation
  rootsOnce : suppliedRoots.Nodup
  rootsFine : ∀ root ∈ suppliedRoots, RootFine (nodes.map UiNodeRecord.id) relations root
  acyclic : ∀ node, ¬Relation.TransGen (Contains relations) node node

/-! ## The loops -/

variable {relations : List UiRelation} {known : List NodeId} {state : Containment}
  {parent child : NodeId}

section

variable {metadata : UiSnapshotMetadata} {result : List NodeId}

theorem checkNode_ok_iff {record : UiNodeRecord} :
    checkNode metadata known record = .ok result ↔
      (NodeFine record ∧ record.id ∉ known) ∧ result = known ++ [record.id] := by
  unfold checkNode rejected
  constructor
  · intro accepted
    repeat' split at accepted
    all_goals cases accepted
    rename_i nonzero fresh few once
    exact ⟨⟨⟨nonzero, Nat.not_lt.mp few, not_not.mp once⟩, fresh⟩, rfl⟩
  · rintro ⟨⟨⟨nonzero, few, once⟩, fresh⟩, rfl⟩
    rw [if_neg nonzero, if_neg fresh, if_neg (Nat.not_lt.mpr few), if_neg (not_not.mpr once)]

theorem foldl_ids (nodes : List UiNodeRecord) (start : List NodeId) :
    nodes.foldl (fun known record => known ++ [record.id]) start =
      start ++ nodes.map UiNodeRecord.id := by
  induction nodes generalizing start with
  | nil => simp
  | cons record rest ih => simp [ih]

theorem checkNodes_ok_iff {nodes : List UiNodeRecord} :
    checkNodes metadata nodes = .ok result ↔
      ((∀ record ∈ nodes, NodeFine record) ∧ (nodes.map UiNodeRecord.id).Nodup) ∧
        result = nodes.map UiNodeRecord.id := by
  have ids := foldl_ids nodes []
  rw [nil_append] at ids
  have loop := @foldlM_ok_iff _ _ _ _ (checkNode metadata) (fun known => known) UiNodeRecord.id
    NodeFine (fun known record => known ++ [record.id]) (fun _ _ _ => checkNode_ok_iff)
    (fun _ _ => rfl) nodes [] result nodup_nil
  rw [ids, nil_append] at loop
  exact loop

/-- Take a relation in. -/
def Containment.add (state : Containment) (relation : UiRelation) : Containment :=
  if relation.relation = Relation.contains then
    { seen := state.seen ++ [relation]
      incoming := state.incoming.insert relation.target (state.incoming.getD relation.target 0 + 1)
      children := state.children.insert relation.source
        (state.children.getD relation.source [] ++ [relation.target]) }
  else { state with seen := state.seen ++ [relation] }

theorem seen_add (state : Containment) (relation : UiRelation) :
    (state.add relation).seen = state.seen ++ [relation] := by
  unfold Containment.add
  split <;> rfl

theorem checkRelation_ok_iff {state result : Containment} {relation : UiRelation} :
    checkRelation metadata known state relation = .ok result ↔
      (RelationFine known relation ∧ relation ∉ state.seen) ∧ result = state.add relation := by
  have permittedIff : (relation.relation.value < Relation.coreCount ∨
      Relation.coreBitCount ≤ relation.relation.value) ↔
      ¬(Relation.coreCount ≤ relation.relation.value ∧
        relation.relation.value < Relation.coreBitCount) := by
    rw [not_and_or, UInt32.not_le, UInt32.not_lt]
  have taken : (if relation.relation = Relation.contains then
      (Except.ok { seen := state.seen ++ [relation]
                   incoming := state.incoming.insert relation.target
                     (state.incoming.getD relation.target 0 + 1)
                   children := state.children.insert relation.source
                     (state.children.getD relation.source [] ++ [relation.target]) } :
        Except Rejection Containment)
      else .ok { state with seen := state.seen ++ [relation] }) = .ok (state.add relation) := by
    unfold Containment.add
    split <;> rfl
  unfold checkRelation rejected
  rw [taken]
  constructor
  · intro accepted
    repeat' split at accepted
    all_goals cases accepted
    rename_i endpoints different fresh permitted
    rcases not_or.mp endpoints with ⟨source, target⟩
    exact ⟨⟨⟨not_not.mp source, not_not.mp target, different, permittedIff.mpr permitted⟩,
      fresh⟩, rfl⟩
  · rintro ⟨⟨⟨source, target, different, permitted⟩, fresh⟩, rfl⟩
    rw [if_neg (by simp [source, target]), if_neg different, if_neg fresh,
      if_neg (permittedIff.mp permitted)]

theorem foldlM_checkRelation_iff {result : Containment} :
    relations.foldlM (checkRelation metadata known) (Containment.start known) = .ok result ↔
      ((∀ relation ∈ relations, RelationFine known relation) ∧ relations.Nodup) ∧
        result = relations.foldl Containment.add (Containment.start known) := by
  have loop := @foldlM_ok_iff _ _ _ _ (checkRelation metadata known) Containment.seen
    (fun relation => relation) (RelationFine known) Containment.add
    (fun _ _ _ => checkRelation_ok_iff) seen_add relations (Containment.start known) result
    nodup_nil
  rw [map_id'] at loop
  exact loop

variable {incoming : ExtTreeMap NodeId Nat compare}

theorem checkRoot_ok_iff {earlier result : List NodeId} {root : NodeId} :
    checkRoot metadata known incoming earlier root = .ok result ↔
      ((root ∈ known ∧ incoming.getD root 0 = 0) ∧ root ∉ earlier) ∧
        result = earlier ++ [root] := by
  unfold checkRoot rejected
  constructor
  · intro accepted
    repeat' split at accepted
    all_goals cases accepted
    rename_i isKnown fresh free
    exact ⟨⟨⟨not_not.mp isKnown, not_not.mp free⟩, fresh⟩, rfl⟩
  · rintro ⟨⟨⟨isKnown, free⟩, fresh⟩, rfl⟩
    rw [if_neg (not_not.mpr isKnown), if_neg fresh, if_neg (not_not.mpr free)]

theorem foldlM_checkRoot_iff {supplied result : List NodeId} :
    supplied.foldlM (checkRoot metadata known incoming) [] = .ok result ↔
      ((∀ root ∈ supplied, root ∈ known ∧ incoming.getD root 0 = 0) ∧ supplied.Nodup) ∧
        result = supplied.foldl (fun earlier root => earlier ++ [root]) [] := by
  have loop := @foldlM_ok_iff _ _ _ _ (checkRoot metadata known incoming)
    (fun earlier => earlier) (fun root => root)
    (fun root => root ∈ known ∧ incoming.getD root 0 = 0)
    (fun earlier root => earlier ++ [root]) (fun _ _ _ => checkRoot_ok_iff) (fun _ _ => rfl)
    supplied [] result nodup_nil
  rw [map_id'] at loop
  exact loop

end

/-! ## The containment relation -/

/-- Does a relation say that some node contains this one? -/
def contained (node : NodeId) (relation : UiRelation) : Bool :=
  relation.relation == Relation.contains && relation.target == node

/-- Does a relation say that this node contains some one? -/
def containing (node : NodeId) (relation : UiRelation) : Bool :=
  relation.relation == Relation.contains && relation.source == node

def parentsOf (relations : List UiRelation) (node : NodeId) : List NodeId :=
  (relations.filter (contained node)).map UiRelation.source

def childrenOf (relations : List UiRelation) (node : NodeId) : List NodeId :=
  (relations.filter (containing node)).map UiRelation.target

/-- A relation is listed when its far end is among those of the relations that fit. -/
theorem mem_farEnds {fits : UiRelation → Bool} {far : UiRelation → NodeId} (relation : UiRelation)
    (only : ∀ other, (fits other = true ∧ far other = far relation) ↔ other = relation) :
    far relation ∈ (relations.filter fits).map far ↔ relation ∈ relations := by
  rw [mem_map]
  constructor
  · rintro ⟨other, member, same⟩
    rw [mem_filter] at member
    exact (only other).mp ⟨member.2, same⟩ ▸ member.1
  · intro member
    exact ⟨relation, mem_filter.mpr ⟨member, ((only relation).mpr rfl).1⟩, rfl⟩

theorem mem_parentsOf : parent ∈ parentsOf relations child ↔ Contains relations parent child := by
  apply mem_farEnds ⟨parent, child, Relation.contains⟩
  rintro ⟨source, target, kind⟩
  simp [contained, and_comm]

theorem mem_childrenOf : child ∈ childrenOf relations parent ↔ Contains relations parent child := by
  apply mem_farEnds ⟨parent, child, Relation.contains⟩
  rintro ⟨source, target, kind⟩
  simp [containing, and_comm, and_left_comm]

/-- Containment as the visit follows it. -/
theorem links_of_fine (fine : ∀ relation ∈ relations, RelationFine known relation)
    (once : relations.Nodup) : Links known (childrenOf relations) (parentsOf relations) := by
  constructor
  case childrenOnce =>
    intro node
    apply Nodup.map_on _ (once.filter _)
    rintro ⟨source, target, kind⟩ first ⟨source', target', kind'⟩ second same
    simp only [containing, mem_filter, Bool.and_eq_true, beq_iff_eq] at first second
    rcases first with ⟨_, rfl, rfl⟩
    rcases second with ⟨_, rfl, rfl⟩
    exact congrArg (fun other => UiRelation.mk _ other _) same
  case parentsOnce =>
    intro node
    apply Nodup.map_on _ (once.filter _)
    rintro ⟨source, target, kind⟩ first ⟨source', target', kind'⟩ second same
    simp only [contained, mem_filter, Bool.and_eq_true, beq_iff_eq] at first second
    rcases first with ⟨_, rfl, rfl⟩
    rcases second with ⟨_, rfl, rfl⟩
    exact congrArg (fun other => UiRelation.mk other _ _) same
  case mirror =>
    intro parent child
    rw [mem_childrenOf, mem_parentsOf]
  case inside =>
    intro parent child edge
    have both := fine _ (mem_parentsOf.mp edge)
    exact ⟨both.source, both.target⟩

/-- The counts of containment edges into each known node. -/
structure Counted (known : List NodeId) (relations : List UiRelation) (state : Containment) :
    Prop where
  count : ∀ node, state.incoming.getD node 0 = relations.countP (contained node)
  keys : ∀ node, node ∈ state.incoming ↔ node ∈ known

theorem counted_start (known : List NodeId) : Counted known [] (Containment.start known) := by
  have zeros : ∀ counts : ExtTreeMap NodeId Nat compare, (∀ node, counts.getD node 0 = 0) →
      (∀ node, (known.foldl (fun counts node => counts.insertIfNew node 0) counts).getD
        node 0 = 0) ∧
      ∀ node, node ∈ known.foldl (fun counts node => counts.insertIfNew node 0) counts ↔
        node ∈ counts ∨ node ∈ known := by
    induction known with
    | nil => exact fun counts zero => ⟨zero, by simp⟩
    | cons first rest ih =>
      intro counts zero
      have zero' : ∀ node, (counts.insertIfNew first 0).getD node 0 = 0 := by
        intro node
        rw [ExtTreeMap.getD_insertIfNew]
        split
        · rfl
        · exact zero node
      rcases ih _ zero' with ⟨values, keys⟩
      refine ⟨values, ?_⟩
      intro node
      rw [foldl_cons, keys, ExtTreeMap.mem_insertIfNew, LawfulEqCmp.compare_eq_iff_eq,
        mem_cons, eq_comm]
      tauto
  rcases zeros ∅ (by simp) with ⟨values, keys⟩
  exact ⟨values, fun node => (keys node).trans (by simp)⟩

theorem counted_add {relation : UiRelation} (fine : RelationFine known relation)
    (counted : Counted known relations state) :
    Counted known (relations ++ [relation]) (state.add relation) := by
  unfold Containment.add
  split
  · rename_i isContains
    constructor
    case count =>
      intro node
      rw [ExtTreeMap.getD_insert, countP_append, countP_singleton]
      by_cases here : relation.target = node
      · subst here
        simp [contained, isContains, counted.count]
      · simp [contained, here, counted.count]
    case keys =>
      intro node
      rw [ExtTreeMap.mem_insert, counted.keys, LawfulEqCmp.compare_eq_iff_eq]
      apply or_iff_right_of_imp
      rintro rfl
      exact fine.target
  · rename_i notContains
    constructor
    case count =>
      intro node
      rw [countP_append, countP_singleton, ← counted.count]
      simp [contained, notContains]
    case keys => exact counted.keys

theorem counted_foldl {earlier relations : List UiRelation}
    (fine : ∀ relation ∈ relations, RelationFine known relation)
    (counted : Counted known earlier state) :
    Counted known (earlier ++ relations) (relations.foldl Containment.add state) := by
  induction relations generalizing earlier state with
  | nil => simpa using counted
  | cons relation rest ih =>
    rw [forall_mem_cons] at fine
    have restCounted := ih fine.2 (counted_add fine.1 counted)
    simpa using restCounted

theorem children_start (known : List NodeId) (node : NodeId) :
    (Containment.start known).children.getD node [] = [] := by
  have empty : ∀ lists : ExtTreeMap NodeId (List NodeId) compare, lists.getD node [] = [] →
      (known.foldl (fun lists other => lists.insertIfNew other []) lists).getD node [] = [] := by
    induction known with
    | nil => exact fun _ nothing => nothing
    | cons first rest ih =>
      intro lists nothing
      apply ih
      rw [ExtTreeMap.getD_insertIfNew]
      split
      · rfl
      · exact nothing
  exact empty ∅ (by simp)

theorem children_add (state : Containment) (relation : UiRelation) (node : NodeId) :
    (state.add relation).children.getD node [] =
      state.children.getD node [] ++ childrenOf [relation] node := by
  unfold Containment.add
  split
  · rename_i isContains
    rw [ExtTreeMap.getD_insert]
    by_cases here : relation.source = node
    · subst here
      simp [childrenOf, containing, isContains]
    · simp [childrenOf, containing, here]
  · rename_i notContains
    simp [childrenOf, containing, notContains]

theorem children_foldl (relations : List UiRelation) (state : Containment) (node : NodeId) :
    (relations.foldl Containment.add state).children.getD node [] =
      state.children.getD node [] ++ childrenOf relations node := by
  induction relations generalizing state with
  | nil => simp [childrenOf]
  | cons relation rest ih =>
    rw [foldl_cons, ih, children_add, append_assoc, childrenOf, childrenOf, childrenOf,
      ← map_append, ← filter_append, singleton_append]

/-! ## The visit -/

theorem foldl_releaseChild (children ready : List NodeId)
    (remaining : ExtTreeMap NodeId Nat compare) :
    children.foldl release (ready, fun node => remaining.getD node 0) =
      ((children.foldl releaseChild (ready, remaining)).1,
        fun node => (children.foldl releaseChild (ready, remaining)).2.getD node 0) := by
  induction children generalizing ready remaining with
  | nil => rfl
  | cons child rest ih =>
    rw [foldl_cons, foldl_cons, releaseChild, ← ih, release, getD_insert_eq_update]

theorem visitContained_eq (lists : ExtTreeMap NodeId (List NodeId) compare) (fuel : Nat)
    (walked ready : List NodeId) (remaining : ExtTreeMap NodeId Nat compare) :
    visitContained lists fuel ready remaining walked.length =
      (visit (fun node => lists.getD node []) fuel walked ready
        fun node => remaining.getD node 0).length := by
  induction fuel generalizing walked ready remaining with
  | zero => rfl
  | succ fuel ih =>
    cases ready with
    | nil => rfl
    | cons current ready =>
      rw [visitContained, visit, foldl_releaseChild, ← ih, length_append, length_singleton]

/-- The entries of a counting map that are zero, in order. -/
def zeroKeys (counts : ExtTreeMap NodeId Nat compare) : List NodeId :=
  (counts.toList.filter fun entry => entry.2 == 0).map Prod.fst

theorem mem_zeroKeys {counts : ExtTreeMap NodeId Nat compare} {node : NodeId} :
    node ∈ zeroKeys counts ↔ node ∈ counts ∧ counts.getD node 0 = 0 := by
  simp only [zeroKeys, mem_map, mem_filter, beq_iff_eq, Prod.exists,
    ExtTreeMap.mem_toList_iff_getElem?_eq_some]
  constructor
  · rintro ⟨key, count, ⟨entry, rfl⟩, rfl⟩
    exact ⟨ExtTreeMap.mem_iff_isSome_getElem?.mpr (by simp [entry]),
      by simp [ExtTreeMap.getD_eq_getD_getElem?, entry]⟩
  rintro ⟨member, zero⟩
  rw [ExtTreeMap.getD_eq_getD_getElem?] at zero
  have present := ExtTreeMap.mem_iff_isSome_getElem?.mp member
  rcases Option.isSome_iff_exists.mp present with ⟨count, entry⟩
  rw [entry, Option.getD_some] at zero
  exact ⟨node, count, ⟨entry, zero⟩, rfl⟩

theorem zeroKeys_ascending (counts : ExtTreeMap NodeId Nat compare) :
    (zeroKeys counts).Pairwise fun first second => compare first second = .lt := by
  rw [zeroKeys, pairwise_map]
  exact counts.ordered_keys_toList.filter _

theorem nodup_of_ascending {nodes : List NodeId}
    (ascending : nodes.Pairwise fun first second => compare first second = .lt) : nodes.Nodup := by
  apply ascending.imp
  rintro first _ before rfl
  rw [@ReflCmp.compare_self NodeId compare] at before
  cases before

section

variable {metadata : UiSnapshotMetadata} {nodes : List UiNodeRecord} {supplied roots : List NodeId}

theorem not_contains_iff {node : NodeId} :
    relations.countP (contained node) = 0 ↔ ∀ parent, ¬Contains relations parent node := by
  rw [countP_eq_length_filter, ← length_map UiRelation.source, length_eq_zero_iff,
    ← parentsOf, eq_nil_iff_forall_not_mem]
  simp only [mem_parentsOf]

/-- What validation does with records whose parts are fine. -/
theorem visited_iff (nodesOnce : (nodes.map UiNodeRecord.id).Nodup)
    (fine : ∀ relation ∈ relations, RelationFine (nodes.map UiNodeRecord.id) relation)
    (once : relations.Nodup) (stateEq : state =
      relations.foldl Containment.add (Containment.start (nodes.map UiNodeRecord.id))) :
    visitContained state.children nodes.length (zeroKeys state.incoming) state.incoming 0 =
        nodes.length ↔
      ∀ node, ¬Relation.TransGen (Contains relations) node node := by
  have counted := counted_foldl fine (counted_start (nodes.map UiNodeRecord.id))
  rw [nil_append, ← stateEq] at counted
  have childrenEq : (fun node => state.children.getD node []) = childrenOf relations := by
    funext node
    rw [stateEq, children_foldl, children_start, nil_append]
  have countsEq : (fun node => state.incoming.getD node 0) =
      fun node => (parentsOf relations node).length := by
    funext node
    rw [counted.count, parentsOf, length_map, countP_eq_length_filter]
  have isRoots : ∀ node, node ∈ zeroKeys state.incoming ↔
      node ∈ nodes.map UiNodeRecord.id ∧ (parentsOf relations node).length = 0 := by
    intro node
    rw [mem_zeroKeys, counted.keys, ← congrFun countsEq node]
  have visited := (visit_spec (links_of_fine fine once) nodesOnce
    (nodup_of_ascending (zeroKeys_ascending state.incoming)) isRoots rfl).2.2.2
  rw [length_map] at visited
  simp only [mem_parentsOf] at visited
  rw [← visited, ← childrenEq, ← countsEq]
  rw [← visitContained_eq state.children nodes.length []]
  rfl

/-- Validation accepts the well-formed records, and answers the nodes that nothing contains. -/
theorem validateAndFindRoots_ok_iff :
    validateAndFindRoots metadata nodes supplied relations = .ok roots ↔
      WellFormed nodes supplied relations ∧
        roots = zeroKeys (relations.foldl Containment.add
          (Containment.start (nodes.map UiNodeRecord.id))).incoming := by
  have counted : (∀ relation ∈ relations,
      RelationFine (nodes.map UiNodeRecord.id) relation) →
      Counted (nodes.map UiNodeRecord.id) relations (relations.foldl Containment.add
        (Containment.start (nodes.map UiNodeRecord.id))) := by
    intro fine
    simpa using counted_foldl fine (counted_start (nodes.map UiNodeRecord.id))
  constructor
  · intro accepted
    unfold validateAndFindRoots at accepted
    rcases bind_ok accepted with ⟨known, nodesOk, afterNodes⟩
    rcases bind_ok afterNodes with ⟨state, relationsOk, afterRelations⟩
    rcases bind_ok afterRelations with ⟨_, rootsOk, answered⟩
    rcases checkNodes_ok_iff.mp nodesOk with ⟨⟨nodesFine, nodesOnce⟩, rfl⟩
    rcases foldlM_checkRelation_iff.mp relationsOk with ⟨⟨relationsFine, relationsOnce⟩, stateEq⟩
    rcases (foldlM_checkRoot_iff.mp rootsOk).1 with ⟨rootsFine, rootsOnce⟩
    dsimp only at answered
    split at answered
    · cases answered
    rename_i all
    have acyclic := (visited_iff nodesOnce relationsFine relationsOnce stateEq).mp (not_not.mp all)
    rw [← stateEq]
    refine ⟨⟨nodesOnce, nodesFine, relationsOnce, relationsFine, rootsOnce, ?_, acyclic⟩,
      (Except.ok.inj answered).symm⟩
    intro root member
    rcases rootsFine root member with ⟨isKnown, zero⟩
    rw [stateEq, (counted relationsFine).count, not_contains_iff] at zero
    exact ⟨isKnown, zero⟩
  · rintro ⟨fine, rfl⟩
    unfold validateAndFindRoots
    have rootsFine : ∀ root ∈ supplied, root ∈ nodes.map UiNodeRecord.id ∧
        (relations.foldl Containment.add
          (Containment.start (nodes.map UiNodeRecord.id))).incoming.getD root 0 = 0 := by
      intro root member
      rw [(counted fine.relationsFine).count, not_contains_iff]
      exact ⟨(fine.rootsFine root member).known, (fine.rootsFine root member).free⟩
    rw [bind_of_ok (checkNodes_ok_iff.mpr ⟨⟨fine.nodesFine, fine.nodesOnce⟩, rfl⟩),
      bind_of_ok (foldlM_checkRelation_iff.mpr ⟨⟨fine.relationsFine, fine.relationsOnce⟩, rfl⟩),
      bind_of_ok (foldlM_checkRoot_iff.mpr ⟨⟨rootsFine, fine.rootsOnce⟩, rfl⟩)]
    have all := (visited_iff fine.nodesOnce fine.relationsFine fine.relationsOnce rfl).mpr
      fine.acyclic
    exact if_neg (not_not.mpr all)

theorem wellFormed_of_ok
    (accepted : validateAndFindRoots metadata nodes supplied relations = .ok roots) :
    WellFormed nodes supplied relations :=
  (validateAndFindRoots_ok_iff.mp accepted).1

/-- Validation accepts exactly the well-formed records, and its roots are exactly the nodes that
nothing contains, in ascending order. -/
theorem validateAndFindRoots_exact (metadata : UiSnapshotMetadata) (nodes : List UiNodeRecord)
    (supplied : List NodeId) (relations : List UiRelation) :
    ((∃ roots, validateAndFindRoots metadata nodes supplied relations = .ok roots) ↔
      WellFormed nodes supplied relations) ∧
    ∀ roots, validateAndFindRoots metadata nodes supplied relations = .ok roots →
      (roots.Pairwise fun first second => first.value < second.value) ∧
      ∀ node, node ∈ roots ↔
        node ∈ nodes.map UiNodeRecord.id ∧ ∀ parent, ¬Contains relations parent node := by
  simp only [validateAndFindRoots_ok_iff]
  constructor
  · constructor
    · rintro ⟨_, fine, _⟩
      exact fine
    · intro fine
      exact ⟨_, fine, rfl⟩
  rintro roots ⟨fine, rfl⟩
  have counted := counted_foldl fine.relationsFine (counted_start (nodes.map UiNodeRecord.id))
  rw [nil_append] at counted
  constructor
  · apply (zeroKeys_ascending _).imp
    intro first second before
    exact Std.compare_eq_lt.mp before
  · intro node
    rw [mem_zeroKeys, counted.keys, counted.count, not_contains_iff]

end

end Grab.Kernel
