import Grab.Tree.Store

/-!
# Deltas and snapshots agree

A delta is a compressed snapshot.  `patched` says which one: the records of the
staged generation with the delta's additions, changes and removals, the relations
that lose no endpoint with the delta's relation changes, and the nodes that no
other node contains as roots.  Staging the delta and staging that snapshot do the
same to a store.
-/

namespace Grab.Kernel

open Std Grab.Graph Grab.Lib Grab.Spi List

/-! ## The patched snapshot -/

/-- The record that stands in the place of a record after the changes. -/
def changedRecord (changes : List UiNodeRecord) (record : UiNodeRecord) : UiNodeRecord :=
  (changes.find? fun changed => changed.id == record.id).getD record

def patchedNodes (nodes : List UiNodeRecord) (delta : UiDelta) : List UiNodeRecord :=
  ((nodes ++ delta.addedNodes).map (changedRecord delta.changedNodes)).filter fun record =>
    record.id ∉ delta.removedNodes

def patchRelation (relations : List UiRelation) (change : RelationChange) : List UiRelation :=
  match change.kind with
  | .add => relations ++ [change.change]
  | .remove => relations.erase change.change

def patchedRelations (relations : List UiRelation) (delta : UiDelta) : List UiRelation :=
  delta.relationChanges.foldl patchRelation
    (relations.filter fun relation =>
      relation.source ∉ delta.removedNodes ∧ relation.target ∉ delta.removedNodes)

/-- The nodes that no node contains. -/
def topNodes (nodes : List UiNodeRecord) (relations : List UiRelation) : List NodeId :=
  (nodes.map UiNodeRecord.id).filter fun node =>
    ¬∃ relation ∈ relations, relation.relation = Relation.contains ∧ relation.target = node

/-- A snapshot patched by a delta, with its roots listed in some order. -/
def patched (before : UiSnapshot) (delta : UiDelta) (roots : List NodeId) (complete : Bool) :
    UiSnapshot where
  metadata := { delta.metadata with complete := complete }
  nodes := patchedNodes before.nodes delta
  roots := roots
  relations := patchedRelations before.relations delta

/-! ## The code's patch -/

variable {relations : List UiRelation} {nodes : List UiNodeRecord}

section

variable {metadata : UiSnapshotMetadata} {ids : List NodeId}
  {result : List NodeId × List UiNodeRecord}

variable (distinct : (nodes.map UiNodeRecord.id).Nodup) {changed : UiNodeRecord}

include distinct

theorem foldlM_addDeltaNode {added : List UiNodeRecord}
    (grown : added.foldlM (addDeltaNode metadata) (ids, nodes) = .ok result) :
    result.2 = nodes ++ added ∧ (result.2.map UiNodeRecord.id).Nodup := by
  induction added generalizing ids nodes with
  | nil =>
    obtain rfl : (ids, nodes) = result := Except.ok.inj grown
    exact ⟨(append_nil nodes).symm, distinct⟩
  | cons record rest ih =>
    rw [foldlM_cons] at grown
    rcases bind_ok grown with ⟨state, first, later⟩
    unfold addDeltaNode at first
    split at first
    · cases first
    rename_i fresh
    rcases not_or.mp fresh with ⟨_, unknown⟩
    rw [← Except.ok.inj first] at later
    have grownDistinct : ((nodes ++ [record]).map UiNodeRecord.id).Nodup := by
      rw [map_append, map_singleton]
      apply distinct.append (nodup_singleton _)
      intro id isOld isNew
      rw [mem_singleton.mp isNew] at isOld
      rcases mem_map.mp isOld with ⟨existing, member, same⟩
      exact unknown (any_eq_true.mpr ⟨existing, member, beq_iff_eq.mpr same⟩)
    rcases ih grownDistinct later with ⟨resultEq, resultDistinct⟩
    exact ⟨by rw [resultEq, append_assoc, singleton_append], resultDistinct⟩

/-- Overwriting the node with an id is a map when ids are distinct. -/
theorem set_eq_map {index : Nat}
    (found : (nodes.findIdx? fun record => record.id == changed.id) = some index) :
    nodes.set index changed =
      nodes.map fun record => if changed.id == record.id then changed else record := by
  rcases findIdx?_eq_some_iff_getElem.mp found with ⟨inside, same, _⟩
  rw [beq_iff_eq] at same
  apply ext_getElem
  · simp
  intro position _ inside'
  rw [length_map] at inside'
  rw [getElem_map, getElem_set]
  by_cases here : index = position
  · subst here
    simp [same]
  have differs : changed.id ≠ nodes[position].id := by
    intro sameId
    have first : index < (nodes.map UiNodeRecord.id).length := by simpa using inside
    have second : position < (nodes.map UiNodeRecord.id).length := by simpa using inside'
    have once : (nodes.map UiNodeRecord.id)[index] = (nodes.map UiNodeRecord.id)[position] ↔
        index = position := distinct.getElem_inj_iff
    apply here
    rw [← once, getElem_map, getElem_map]
    exact same.trans sameId
  simp [here, differs]

theorem changeDeltaNode_ok (accepted : changeDeltaNode metadata (ids, nodes) changed = .ok result) :
    changed.id ∉ ids ∧ result = (ids ++ [changed.id],
      nodes.map fun record => if changed.id == record.id then changed else record) := by
  unfold changeDeltaNode at accepted
  split at accepted
  · cases accepted
  rename_i fresh
  split at accepted
  · cases accepted
  rename_i index found
  refine ⟨fresh, ?_⟩
  rw [← set_eq_map distinct found]
  exact (Except.ok.inj accepted).symm

omit distinct in
theorem map_id_changed (changed : UiNodeRecord) (nodes : List UiNodeRecord) :
    (nodes.map fun record => if changed.id == record.id then changed else record).map
      UiNodeRecord.id = nodes.map UiNodeRecord.id := by
  rw [map_map]
  apply map_congr_left
  intro record _
  simp only [Function.comp_apply]
  split
  · rename_i same
    exact beq_iff_eq.mp same
  · rfl

theorem foldlM_changeDeltaNode {changes : List UiNodeRecord}
    (accepted : changes.foldlM (changeDeltaNode metadata) (ids, nodes) = .ok result) :
    (∀ changed ∈ changes, changed.id ∉ ids) ∧ result.2 = nodes.map (changedRecord changes) := by
  induction changes generalizing ids nodes with
  | nil =>
    obtain rfl : (ids, nodes) = result := Except.ok.inj accepted
    exact ⟨by simp, (map_id' nodes).symm⟩
  | cons changed rest ih =>
    rw [foldlM_cons] at accepted
    rcases bind_ok accepted with ⟨state, first, later⟩
    rcases changeDeltaNode_ok distinct first with ⟨fresh, rfl⟩
    have restDistinct := distinct
    rw [← map_id_changed changed nodes] at restDistinct
    rcases ih restDistinct later with ⟨restFresh, resultEq⟩
    constructor
    · intro other member
      rcases mem_cons.mp member with rfl | member
      · exact fresh
      · exact fun old => restFresh other member (mem_append_left _ old)
    rw [resultEq, map_map]
    apply map_congr_left
    intro record _
    simp only [Function.comp_apply, changedRecord, find?_cons]
    cases same : changed.id == record.id with
    | false => rfl
    | true =>
      -- No later change has the id of this one.
      have unchanged : (rest.find? fun other => other.id == changed.id) = none := by
        rw [find?_eq_none]
        intro other member otherSame
        apply restFresh other member
        rw [beq_iff_eq.mp otherSame]
        exact mem_append_right _ (mem_singleton_self _)
      simp [unchanged]

omit distinct

theorem foldlM_removeDeltaNode {removed ids : List NodeId}
    {result : List NodeId × List UiNodeRecord × List UiRelation}
    (accepted : removed.foldlM (removeDeltaNode metadata) (ids, nodes, relations) = .ok result) :
    result.2 = (nodes.filter fun record => record.id ∉ removed,
      relations.filter fun relation =>
        relation.source ∉ removed ∧ relation.target ∉ removed) := by
  induction removed generalizing ids nodes relations with
  | nil =>
    obtain rfl : (ids, nodes, relations) = result := Except.ok.inj accepted
    simp
  | cons node rest ih =>
    rw [foldlM_cons] at accepted
    rcases bind_ok accepted with ⟨state, first, later⟩
    unfold removeDeltaNode at first
    dsimp only at first
    split at first
    · cases first
    split at first
    · cases first
    rw [← Except.ok.inj first] at later
    rw [ih later, filter_filter, filter_filter]
    congr 1
    · apply filter_congr
      intro record _
      by_cases here : record.id = node <;> simp [here]
    apply filter_congr
    intro relation _
    by_cases source : relation.source = node <;>
      by_cases target : relation.target = node <;> simp [source, target]

theorem foldlM_changeDeltaRelation {changes : List RelationChange}
    {relations result : List UiRelation}
    (accepted : changes.foldlM (changeDeltaRelation metadata) relations = .ok result) :
    result = changes.foldl patchRelation relations := by
  induction changes generalizing relations with
  | nil => exact (Except.ok.inj accepted).symm
  | cons change rest ih =>
    rw [foldlM_cons] at accepted
    rcases bind_ok accepted with ⟨state, first, later⟩
    have stateEq : state = patchRelation relations change := by
      rcases change with ⟨kind, relation⟩
      cases kind with
      | add | remove =>
        simp only [changeDeltaRelation] at first
        split at first
        · cases first
        · exact (Except.ok.inj first).symm
    rw [foldl_cons, ← stateEq]
    exact ih later

end

/-- What the code builds from a delta is the patched records, normalized. -/
theorem snapshotFromDelta_ok {current : Generation} {delta : UiDelta} {candidate : UiSnapshot}
    (valid : current.Valid) (built : snapshotFromDelta current delta = .ok candidate) :
    normalizedSnapshot delta.metadata (patchedNodes current.snapshot.nodes delta) []
      (patchedRelations current.snapshot.relations delta) = .ok candidate := by
  unfold snapshotFromDelta at built
  rcases bind_ok built with ⟨grown, growing, built⟩
  rcases bind_ok built with ⟨changed, changing, built⟩
  rcases bind_ok built with ⟨kept, removing, built⟩
  rcases bind_ok built with ⟨relations, relating, normalizes⟩
  rcases foldlM_addDeltaNode valid.nodesOnce growing with ⟨grownEq, grownOnce⟩
  have changedEq := (foldlM_changeDeltaNode grownOnce changing).2
  have keptEq := foldlM_removeDeltaNode removing
  have relationsEq := foldlM_changeDeltaRelation relating
  rw [keptEq] at normalizes relationsEq
  rw [changedEq, grownEq, relationsEq] at normalizes
  exact normalizes

/-! ## Roots -/

theorem mem_topNodes {node : NodeId} :
    node ∈ topNodes nodes relations ↔
      node ∈ nodes.map UiNodeRecord.id ∧ relations.countP (contained node) = 0 := by
  rw [topNodes, mem_filter, decide_eq_true_iff, countP_eq_zero]
  simp [contained]

/-- The roots of accepted records are the nodes that nothing contains, and
supplying these as roots changes nothing. -/
theorem validateAndFindRoots_topNodes {metadata : UiSnapshotMetadata} {roots supplied : List NodeId}
    (accepted : validateAndFindRoots metadata nodes [] relations = .ok roots)
    (listed : supplied.Perm (topNodes nodes relations)) :
    validateAndFindRoots metadata nodes supplied relations = .ok roots ∧
      roots.Perm (topNodes nodes relations) := by
  rcases validateAndFindRoots_ok_iff.mp accepted with ⟨fine, rfl⟩
  have topOnce : (topNodes nodes relations).Nodup := fine.nodesOnce.filter _
  constructor
  · apply validateAndFindRoots_ok_iff.mpr
    refine ⟨{ fine with rootsOnce := listed.nodup_iff.mpr topOnce, rootsFine := ?_ }, rfl⟩
    intro root member
    rcases mem_topNodes.mp (listed.mem_iff.mp member) with ⟨isNode, isFree⟩
    exact ⟨isNode, not_contains_iff.mp isFree⟩
  rw [perm_ext_iff_of_nodup (nodup_of_ascending (zeroKeys_ascending _)) topOnce]
  intro node
  have counted := counted_foldl fine.relationsFine (counted_start (nodes.map UiNodeRecord.id))
  rw [nil_append] at counted
  rw [mem_topNodes, mem_zeroKeys, counted.count, counted.keys]

/-! ## The completeness mark -/

def UiSnapshot.marked (snapshot : UiSnapshot) (complete : Bool) : UiSnapshot :=
  { snapshot with metadata := { snapshot.metadata with complete := complete } }

def Generation.marked (generation : Generation) (complete : Bool) : Generation :=
  { generation with snapshot := UiSnapshot.marked generation.snapshot complete }

section

variable {complete : Bool} {metadata : UiSnapshotMetadata} {snapshot : UiSnapshot}

theorem normalizedSnapshot_marked {roots : List NodeId} {relations : List UiRelation}
    (normalizes : normalizedSnapshot metadata nodes roots relations = .ok snapshot) :
    normalizedSnapshot { metadata with complete := complete } nodes roots relations =
      .ok (UiSnapshot.marked snapshot complete) := by
  rcases normalizedSnapshot_ok normalizes with ⟨rootsOk, snapshotEq⟩
  have rootsOk' : validateAndFindRoots { metadata with complete := complete } nodes roots
      relations = .ok snapshot.roots := rootsOk
  rw [normalizedSnapshot, rootsOk', snapshotEq]
  rfl

theorem addRecord_marked {generation grown : Generation} {record : UiNodeRecord}
    (added : addRecord metadata generation record = .ok grown) :
    addRecord { metadata with complete := complete } (generation.marked complete) record =
      .ok (grown.marked complete) := by
  unfold addRecord at added ⊢
  dsimp only at added ⊢
  split at added
  · cases added
  rename_i graph isAdded
  have isAdded' : (generation.marked complete).relations.addNode record.id = some graph := isAdded
  rw [isAdded', ← Except.ok.inj added]
  rfl

theorem foldlM_addRecord_marked {generation indexed : Generation}
    (added : nodes.foldlM (addRecord metadata) generation = .ok indexed) :
    nodes.foldlM (addRecord { metadata with complete := complete })
      (generation.marked complete) = .ok (indexed.marked complete) := by
  induction nodes generalizing generation with
  | nil =>
    obtain rfl : generation = indexed := Except.ok.inj added
    rfl
  | cons record rest ih =>
    rw [foldlM_cons] at added ⊢
    rcases bind_ok added with ⟨grown, first, later⟩
    rw [addRecord_marked first]
    exact ih later

/-- The mark of a snapshot stands in no index. -/
theorem buildGeneration_marked {generation : Generation}
    (built : buildGeneration snapshot = .ok generation) :
    buildGeneration (UiSnapshot.marked snapshot complete) = .ok (generation.marked complete) := by
  unfold buildGeneration at built ⊢
  have sameNodes : (UiSnapshot.marked snapshot complete).nodes = snapshot.nodes := rfl
  rw [sameNodes]
  split at built
  · cases built
  rename_i small
  rw [if_neg small]
  rcases bind_ok built with ⟨indexed, nodesAdded, built⟩
  rcases bind_ok built with ⟨graph, edgesAdded, made⟩
  have nodesAdded' := @foldlM_addRecord_marked _ complete _ _ _ nodesAdded
  change (snapshot.nodes.foldlM _ _ >>= _) = _
  rw [show ({ snapshot := UiSnapshot.marked snapshot complete } : Generation) =
    ({ snapshot := snapshot } : Generation).marked complete from rfl]
  change (snapshot.nodes.foldlM
    (addRecord { snapshot.metadata with complete := complete }) _ >>= _) = _
  rw [nodesAdded']
  change (List.foldlM (addCoreEdge snapshot.metadata) indexed.relations _ >>= _) = _
  have edgesAdded' : List.foldlM (addCoreEdge snapshot.metadata) indexed.relations
      ((UiSnapshot.marked snapshot complete).relations.foldl collectRelation
        (∅, [])).1.toList = .ok graph := edgesAdded
  rw [edgesAdded', ← Except.ok.inj made]
  rfl

end

/-! ## Agreement -/

namespace TreeStore

variable {store : TreeStore} {sequence : UInt64} {delta : UiDelta}

/-- Past the checks both kinds of update share, an accepted delta is queued as
prepared. -/
theorem stage_delta_ok {applied : AppliedDelta}
    (accepted : (store.stage ⟨sequence, .delta delta⟩).2 = .ok applied) :
    ∃ prepared, prepareDelta store.stagedGeneration delta sequence = .ok prepared ∧
      prepared.applied = applied ∧
      store.requiresResnapshot = false ∧
      store.stage ⟨sequence, .delta delta⟩ = (store.enqueue prepared false, .ok applied) ∧
      ∀ snapshot : UiSnapshot, snapshot.metadata.runtime = delta.metadata.runtime →
        store.stage ⟨sequence, .snapshot snapshot⟩ =
          store.settle (prepareSnapshot store.stagedGeneration snapshot sequence)
            snapshot.metadata.complete := by
  unfold stage at accepted ⊢
  dsimp only [metadataOf] at accepted ⊢
  split at accepted
  · cases accepted
  rename_i notRetired
  split at accepted
  · cases accepted
  rename_i advances
  split at accepted
  · cases accepted
  rename_i notWaiting
  rw [Bool.not_eq_true] at notWaiting
  cases attempt : prepareDelta store.stagedGeneration delta sequence with
  | error refusal =>
    rw [attempt] at accepted
    cases accepted
  | ok prepared =>
    rw [attempt] at accepted
    have appliedEq : prepared.applied = applied := Except.ok.inj accepted
    refine ⟨prepared, rfl, appliedEq, notWaiting, ?_, ?_⟩
    · rw [if_neg notRetired, if_neg advances, if_neg (by simp [notWaiting]), ← appliedEq]
      rfl
    · intro snapshot sameRuntime
      rw [sameRuntime, if_neg notRetired, if_neg advances, if_neg (by simp [notWaiting])]

theorem prepareSnapshot_patched {before : Generation} {prepared : PreparedUpdate}
    {roots : List NodeId} {complete : Bool} (valid : before.Valid)
    (isPrepared : prepareDelta (some before) delta sequence = .ok prepared)
    (listed : roots.Perm (topNodes (patchedNodes before.snapshot.nodes delta)
      (patchedRelations before.snapshot.relations delta))) :
    prepareSnapshot (some before) (patched before.snapshot delta roots complete) sequence =
      .ok ⟨prepared.generation.marked complete, prepared.applied, sequence⟩ := by
  rcases prepareDelta_ok isPrepared with
    ⟨base, candidate, generation, baseEq, scope, advances, isPatched, built, rfl⟩
  obtain rfl : before = base := Option.some.inj baseEq
  have normalizes := snapshotFromDelta_ok valid isPatched
  rcases normalizedSnapshot_ok normalizes with ⟨rootsOk, candidateEq⟩
  have rootsOk' := (validateAndFindRoots_topNodes rootsOk listed).1
  have normalizes' : normalizedSnapshot delta.metadata
      (patchedNodes before.snapshot.nodes delta) roots
      (patchedRelations before.snapshot.relations delta) = .ok candidate := by
    rw [normalizedSnapshot, rootsOk', candidateEq]
    rfl
  have normalizesMarked := @normalizedSnapshot_marked _ complete _ _ _ _ normalizes'
  have builtMarked := @buildGeneration_marked complete _ _ built
  have metadataEq := (valid_of_built normalizes built).2
  have notStale : isStale (some before)
      (patched before.snapshot delta roots complete).metadata = false := by
    simp only [isStale, patched, Bool.and_eq_false_iff]
    exact .inr (decide_eq_false advances)
  have scope' : sameScope before.snapshot.metadata
      (generation.marked complete).snapshot.metadata = true := by
    rw [← metadataEq] at scope
    exact scope
  unfold prepareSnapshot
  dsimp only
  rw [notStale, if_neg Bool.false_ne_true]
  change (normalizedSnapshot { delta.metadata with complete := complete }
    (patchedNodes before.snapshot.nodes delta) roots
    (patchedRelations before.snapshot.relations delta) >>= _) = _
  rw [normalizesMarked]
  change (buildGeneration (UiSnapshot.marked candidate complete) >>= _) = _
  rw [builtMarked]
  change Except.ok _ = _
  simp only [deriveReplacementEvents, scope', if_true]
  rfl

/-- For every accepted delta the snapshot it stands for, with its roots listed in
any order and either completeness mark, is accepted in its place with the same
batch of events and stages the same generation; with the delta's own mark the
store is the same. -/
theorem delta_agrees_with_snapshot {sequence : UInt64} {delta : UiDelta}
    {applied : AppliedDelta} (reachable : store.Reachable)
    (accepted : (store.stage ⟨sequence, .delta delta⟩).2 = .ok applied) :
    ∃ before after, store.stagedGeneration = some before ∧
      (store.stage ⟨sequence, .delta delta⟩).1.stagedGeneration = some after ∧
      after.snapshot.roots.Perm (topNodes after.snapshot.nodes after.snapshot.relations) ∧
      ∀ roots complete,
        roots.Perm (topNodes (patchedNodes before.snapshot.nodes delta)
          (patchedRelations before.snapshot.relations delta)) →
        let other := store.stage
          ⟨sequence, .snapshot (patched before.snapshot delta roots complete)⟩
        other.2 = .ok applied ∧
          other.1.stagedGeneration = some (after.marked complete) ∧
          (complete = delta.metadata.complete →
            other.1 = (store.stage ⟨sequence, .delta delta⟩).1) := by
  rcases stage_delta_ok accepted with
    ⟨prepared, isPrepared, rfl, notWaiting, staged, asSnapshot⟩
  rcases prepareDelta_ok isPrepared with
    ⟨before, candidate, generation, beforeEq, _, _, isPatched, built, preparedEq⟩
  have valid := reachable.sound.staged beforeEq
  have normalizes := snapshotFromDelta_ok valid isPatched
  rcases normalizedSnapshot_ok normalizes with ⟨rootsOk, candidateEq⟩
  have snapshotEq := (buildGeneration_ok built).1
  have generationEq : prepared.generation = generation := by rw [preparedEq]
  refine ⟨before, prepared.generation, beforeEq, ?_, ?_, ?_⟩
  · rw [staged]
    exact stagedGeneration_enqueue store prepared false
  · have isTop := (validateAndFindRoots_topNodes rootsOk (Perm.refl _)).2
    rw [generationEq, snapshotEq, candidateEq]
    exact isTop
  intro roots complete listed
  rw [beforeEq] at isPrepared
  have asPrepared : prepareSnapshot store.stagedGeneration
      (patched before.snapshot delta roots complete) sequence =
      .ok ⟨prepared.generation.marked complete, prepared.applied, sequence⟩ := by
    rw [beforeEq]
    exact prepareSnapshot_patched valid isPrepared listed
  have settled := asSnapshot (patched before.snapshot delta roots complete) rfl
  rw [asPrepared] at settled
  dsimp only
  rw [settled]
  refine ⟨rfl, stagedGeneration_enqueue store _ _, ?_⟩
  rintro rfl
  have unmarked : prepared.generation.marked delta.metadata.complete =
      prepared.generation := by
    have metadataEq := (valid_of_built normalizes built).2
    rw [generationEq, Generation.marked, UiSnapshot.marked, ← metadataEq]
  have sequenceEq : prepared.sourceSequence = sequence := by rw [preparedEq]
  have same : (⟨prepared.generation.marked delta.metadata.complete, prepared.applied,
      sequence⟩ : PreparedUpdate) = prepared := by
    rw [unmarked, ← sequenceEq]
  rw [staged]
  change store.enqueue _ _ = store.enqueue prepared false
  rw [same]
  simp only [enqueue, notWaiting, ite_self]

/-- The snapshot of the root and its new leaf stages what the delta stages. -/
theorem delta_agrees_with_snapshot_replaceLeaf :
    ∃ before, storeOfTwo.stagedGeneration = some before ∧
      storeOfTwo.stage ⟨2, .snapshot (patched before.snapshot replaceLeaf
        (topNodes (patchedNodes before.snapshot.nodes replaceLeaf)
          (patchedRelations before.snapshot.relations replaceLeaf)) true)⟩ =
        ((storeOfTwo.stage ⟨2, .delta replaceLeaf⟩).1, .ok leafReplaced) := by
  rcases delta_agrees_with_snapshot reachable_storeOfTwo stage_replaceLeaf with
    ⟨before, after, beforeEq, _, _, agrees⟩
  rcases agrees _ true (Perm.refl _) with ⟨appliedEq, _, storeEq⟩
  exact ⟨before, beforeEq, Prod.ext (storeEq rfl) appliedEq⟩

end TreeStore

end Grab.Kernel
