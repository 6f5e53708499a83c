import Grab.Tree.Store

/-!
# Changed nodes

A generation keeps the facts of its records in columns, and an update of the same
scope reports the nodes whose columns differ.  The columns have no place for the
facets of a record, so the report is exact unless a node differs in these alone.
-/

namespace Grab.Kernel

open Std Grab.Graph Grab.Lib Grab.Spi List

/-! ## Columns -/

/-- The columns of a generation hold the facts of a record at an index. -/
structure Stands (generation : Generation) (index : Nat) (record : UiNodeRecord) : Prop where
  generations : generation.nodeGenerations[index]? = some record.generation
  roles : generation.roles[index]? = some record.role
  states : generation.states[index]? = some record.states
  properties : ∃ offset,
    generation.propertySlices[index]? = some ⟨offset, record.propertyIds.length⟩ ∧
    ∀ position id, record.propertyIds[position]? = some id →
      generation.propertyIds[offset + position]? = some id ∧
      generation.propertyValueIndexes[offset + position]? = some position ∧
      generation.propertyValues[offset + position]? = some (record.property id)

/-- The columns after some records were appended to them. -/
structure Tabled (nodes : List UiNodeRecord) (generation : Generation) : Prop where
  roles : generation.roles.length = generation.nodeGenerations.length
  states : generation.states.length = generation.nodeGenerations.length
  slices : generation.propertySlices.length = generation.nodeGenerations.length
  valueIndexes : generation.propertyValueIndexes.length = generation.propertyIds.length
  values : generation.propertyValues.length = generation.propertyIds.length
  indexed : ∀ node index, generation.nodeIndexes[node]? = some index →
    ∃ record ∈ nodes, record.id = node ∧ Stands generation index record
  known : ∀ record ∈ nodes, record.id ∈ generation.nodeIndexes

theorem getElem?_append_of_some {α : Type} {items : List α} {index : Nat} {item : α}
    (present : items[index]? = some item) (more : List α) :
    (items ++ more)[index]? = some item := by
  rw [getElem?_append_left (List.getElem?_eq_some_iff.mp present).1]
  exact present

theorem getElem?_append_add {α : Type} (items more : List α) (position : Nat) :
    (items ++ more)[items.length + position]? = more[position]? := by
  rw [getElem?_append_right (Nat.le_add_right _ _), Nat.add_sub_cancel_left]

section

variable {metadata : UiSnapshotMetadata} {nodes : List UiNodeRecord}
  {generation grown : Generation} {record : UiNodeRecord}

/-- What `addRecord` appends to the columns. -/
theorem addRecord_columns (added : addRecord metadata generation record = .ok grown) :
    grown.nodeIndexes =
        generation.nodeIndexes.insertIfNew record.id generation.nodeGenerations.length ∧
      grown.nodeGenerations = generation.nodeGenerations ++ [record.generation] ∧
      grown.roles = generation.roles ++ [record.role] ∧
      grown.states = generation.states ++ [record.states] ∧
      grown.propertySlices = generation.propertySlices ++
        [⟨generation.propertyIds.length, record.propertyIds.length⟩] ∧
      grown.propertyIds = generation.propertyIds ++ record.propertyIds ∧
      grown.propertyValueIndexes =
        generation.propertyValueIndexes ++ List.range record.propertyIds.length ∧
      grown.propertyValues =
        generation.propertyValues ++ record.propertyIds.map record.property := by
  unfold addRecord at added
  dsimp only at added
  split at added
  · cases added
  · rw [← Except.ok.inj added]
    simp

/-- A record keeps its place when another one is appended. -/
theorem Stands.addRecord {index : Nat} {other : UiNodeRecord}
    (stands : Stands generation index other)
    (added : addRecord metadata generation record = .ok grown) : Stands grown index other := by
  rcases addRecord_columns added with ⟨_, generations, roles, states, slices, ids, indexes, values⟩
  rcases stands.properties with ⟨offset, slice, entries⟩
  constructor
  case generations =>
    rw [generations]
    exact getElem?_append_of_some stands.generations _
  case roles =>
    rw [roles]
    exact getElem?_append_of_some stands.roles _
  case states =>
    rw [states]
    exact getElem?_append_of_some stands.states _
  case properties =>
    rw [slices, ids, indexes, values]
    refine ⟨offset, getElem?_append_of_some slice _, ?_⟩
    intro position id isAt
    rcases entries position id isAt with ⟨idAt, indexAt, valueAt⟩
    exact ⟨getElem?_append_of_some idAt _, getElem?_append_of_some indexAt _,
      getElem?_append_of_some valueAt _⟩

/-- The appended record stands behind the others. -/
theorem Tabled.stands (tabled : Tabled nodes generation)
    (added : addRecord metadata generation record = .ok grown) :
    Stands grown generation.nodeGenerations.length record := by
  rcases addRecord_columns added with ⟨_, generations, roles, states, slices, ids, indexes, values⟩
  constructor
  case generations => simp [generations]
  case roles => simp [roles, ← tabled.roles]
  case states => simp [states, ← tabled.states]
  case properties =>
    rw [slices, ids, indexes, values]
    refine ⟨generation.propertyIds.length, by simp [← tabled.slices], ?_⟩
    intro position id isAt
    have inside : position < record.propertyIds.length := (List.getElem?_eq_some_iff.mp isAt).1
    refine ⟨?_, ?_, ?_⟩
    · rw [getElem?_append_add]
      exact isAt
    · rw [← tabled.valueIndexes, getElem?_append_add]
      exact getElem?_range inside
    · rw [← tabled.values, getElem?_append_add]
      simp [isAt]

theorem Tabled.addRecord (tabled : Tabled nodes generation)
    (added : addRecord metadata generation record = .ok grown) :
    Tabled (nodes ++ [record]) grown := by
  have stands := tabled.stands added
  rcases addRecord_columns added with ⟨places, generations, roles, states, slices, ids, indexes,
    values⟩
  constructor
  case roles => simp [roles, generations, tabled.roles]
  case states => simp [states, generations, tabled.states]
  case slices => simp [slices, generations, tabled.slices]
  case valueIndexes => simp [indexes, ids, tabled.valueIndexes]
  case values => simp [values, ids, tabled.values]
  case indexed =>
    intro node index isAt
    rw [places, ExtTreeMap.getElem?_insertIfNew] at isAt
    split at isAt
    · rename_i isNew
      rw [← LawfulEqCmp.eq_of_compare isNew.1, ← Option.some.inj isAt]
      exact ⟨record, by simp, rfl, stands⟩
    · rcases tabled.indexed node index isAt with ⟨other, member, idEq, otherStands⟩
      exact ⟨other, by simp [member], idEq, otherStands.addRecord added⟩
  case known =>
    intro other member
    rw [places, ExtTreeMap.mem_insertIfNew]
    rcases mem_append.mp member with earlier | isNew
    · exact .inr (tabled.known other earlier)
    · rw [mem_singleton.mp isNew]
      exact .inl ReflCmp.compare_self

theorem foldlM_addRecord_tabled {earlier : List UiNodeRecord} (tabled : Tabled earlier generation)
    (added : nodes.foldlM (addRecord metadata) generation = .ok grown) :
    Tabled (earlier ++ nodes) grown := by
  induction nodes generalizing earlier generation with
  | nil =>
    obtain rfl : generation = grown := Except.ok.inj added
    simpa using tabled
  | cons record rest ih =>
    rw [foldlM_cons] at added
    rcases bind_ok added with ⟨next, first, later⟩
    simpa using ih (tabled.addRecord first) later

/-- A built generation holds the facts of its records. -/
theorem tabled_of_built {snapshot : UiSnapshot}
    (built : buildGeneration snapshot = .ok generation) :
    Tabled generation.snapshot.nodes generation := by
  have snapshotEq := (buildGeneration_ok built).1
  unfold buildGeneration at built
  split at built
  · cases built
  rcases bind_ok built with ⟨indexed, nodesAdded, built⟩
  rcases bind_ok built with ⟨graph, _, made⟩
  have start : Tabled [] ({ snapshot := snapshot } : Generation) := by
    constructor <;> simp
  have tabled := foldlM_addRecord_tabled start nodesAdded
  rw [snapshotEq, ← Except.ok.inj made]
  exact ⟨tabled.roles, tabled.states, tabled.slices, tabled.valueIndexes, tabled.values,
    fun node index isAt => by
      rcases tabled.indexed node index isAt with ⟨record, member, idEq, stands⟩
      exact ⟨record, member, idEq,
        ⟨stands.generations, stands.roles, stands.states, stands.properties⟩⟩,
    tabled.known⟩

end

/-! ## Facts of two records -/

/-- Two records have the same properties, in whatever order. -/
def SameProperties (first second : UiNodeRecord) : Prop :=
  (∀ id, id ∈ first.propertyIds ↔ id ∈ second.propertyIds) ∧
    ∀ id ∈ first.propertyIds, propertyReadEqual (first.property id) (second.property id) = true

/-- Two records agree in everything that has a column. -/
structure SameFacts (first second : UiNodeRecord) : Prop where
  generation : first.generation = second.generation
  role : first.role = second.role
  states : first.states = second.states
  properties : SameProperties first second

structure SameRecord (first second : UiNodeRecord) : Prop extends SameFacts first second where
  facets : first.facets = second.facets

section

variable {before after : Generation} {beforeIndex afterIndex : Nat} {first second : UiNodeRecord}

theorem sameProperty_iff {beforeOffset afterOffset position : Nat} {id : PropertyId}
    (isAt : first.propertyIds[position]? = some id)
    (entries : ∀ position id, first.propertyIds[position]? = some id →
      before.propertyIds[beforeOffset + position]? = some id ∧
      before.propertyValueIndexes[beforeOffset + position]? = some position ∧
      before.propertyValues[beforeOffset + position]? = some (first.property id))
    (others : ∀ position id, second.propertyIds[position]? = some id →
      after.propertyIds[afterOffset + position]? = some id ∧
      after.propertyValueIndexes[afterOffset + position]? = some position ∧
      after.propertyValues[afterOffset + position]? = some (second.property id)) :
    sameProperty before after ⟨beforeOffset, first.propertyIds.length⟩
        ⟨afterOffset, second.propertyIds.length⟩ position = true ↔
      id ∈ second.propertyIds ∧
        propertyReadEqual (first.property id) (second.property id) = true := by
  rcases entries position id isAt with ⟨idAt, indexAt, valueAt⟩
  have candidateAt : ∀ candidate < second.propertyIds.length, ∃ other,
      second.propertyIds[candidate]? = some other ∧
        after.propertyIds[afterOffset + candidate]? = some other := by
    intro candidate inside
    exact ⟨_, getElem?_eq_getElem inside, (others candidate _ (getElem?_eq_getElem inside)).1⟩
  unfold sameProperty
  simp only [getD_eq_getElem?_getD, idAt, Option.getD_some]
  cases found : (List.range second.propertyIds.length).find? fun candidate =>
      (after.propertyIds[afterOffset + candidate]?.getD default == id) with
  | none =>
    have missing : id ∉ second.propertyIds := by
      intro member
      rcases getElem?_of_mem member with ⟨candidate, secondAt⟩
      have inside := (List.getElem?_eq_some_iff.mp secondAt).1
      have differs := find?_eq_none.mp found candidate (mem_range.mpr inside)
      simp [(others candidate id secondAt).1] at differs
    simp [missing]
  | some candidate =>
    have inside := mem_range.mp (mem_of_find?_eq_some found)
    rcases candidateAt candidate inside with ⟨other, secondAt, afterAt⟩
    have same := find?_some found
    rw [afterAt, Option.getD_some, beq_iff_eq] at same
    subst same
    rcases others candidate other secondAt with ⟨_, otherIndex, otherValue⟩
    simp [propertyAt, getD_eq_getElem?_getD, indexAt, valueAt, otherIndex, otherValue,
      mem_of_getElem? secondAt]

/-- With distinct ids on both sides, equal counts and one inclusion are enough. -/
theorem sameProperties_iff (firstOnce : first.propertyIds.Nodup)
    (secondOnce : second.propertyIds.Nodup) :
    SameProperties first second ↔
      first.propertyIds.length = second.propertyIds.length ∧
        ∀ id ∈ first.propertyIds, id ∈ second.propertyIds ∧
          propertyReadEqual (first.property id) (second.property id) = true := by
  constructor
  · rintro ⟨sameIds, sameReads⟩
    have permuted := (perm_ext_iff_of_nodup firstOnce secondOnce).mpr sameIds
    exact ⟨permuted.length_eq, fun id member => ⟨(sameIds id).mp member, sameReads id member⟩⟩
  rintro ⟨lengthEq, sameReads⟩
  have included := subperm_of_subset firstOnce fun id member => (sameReads id member).1
  have permuted := included.perm_of_length_le lengthEq.ge
  exact ⟨fun _ => permuted.mem_iff, fun id member => (sameReads id member).2⟩

/-- The columns of two records compare equal when the records agree in them. -/
theorem sameNodeFacts_iff (beforeStands : Stands before beforeIndex first)
    (afterStands : Stands after afterIndex second) (firstOnce : first.propertyIds.Nodup)
    (secondOnce : second.propertyIds.Nodup) :
    sameNodeFacts before beforeIndex after afterIndex = true ↔ SameFacts first second := by
  rcases beforeStands.properties with ⟨beforeOffset, beforeSlice, entries⟩
  rcases afterStands.properties with ⟨afterOffset, afterSlice, others⟩
  have reads : (∀ position < first.propertyIds.length,
      sameProperty before after ⟨beforeOffset, first.propertyIds.length⟩
        ⟨afterOffset, second.propertyIds.length⟩ position = true) ↔
      ∀ id ∈ first.propertyIds, id ∈ second.propertyIds ∧
        propertyReadEqual (first.property id) (second.property id) = true := by
    constructor
    · intro same id member
      rcases getElem?_of_mem member with ⟨position, isAt⟩
      exact (sameProperty_iff isAt entries others).mp
        (same position (List.getElem?_eq_some_iff.mp isAt).1)
    · intro same position inside
      exact (sameProperty_iff (getElem?_eq_getElem inside) entries others).mpr
        (same _ (getElem_mem inside))
  have facts : SameFacts first second ↔ first.generation = second.generation ∧
      first.role = second.role ∧ first.states = second.states ∧ SameProperties first second :=
    ⟨fun same => ⟨same.generation, same.role, same.states, same.properties⟩,
      fun ⟨generation, role, states, properties⟩ => ⟨generation, role, states, properties⟩⟩
  rw [facts, sameProperties_iff firstOnce secondOnce, ← reads]
  simp [sameNodeFacts, getD_eq_getElem?_getD, beforeStands.generations,
    afterStands.generations, beforeStands.roles, afterStands.roles, beforeStands.states,
    afterStands.states, beforeSlice, afterSlice, and_assoc]

end

/-! ## The events of an update -/

/-- The nodes a batch reports as changed. -/
def changesOf (events : List TreeEvent) : List NodeId :=
  (events.filter fun event => event.kind == .nodeChanged).map TreeEvent.node

/-- A batch reports each node of both generations whose record differs, once. -/
structure ChangesExact (before after : Generation) (events : List TreeEvent) : Prop where
  once : (changesOf events).Nodup
  exact : ∀ node, node ∈ changesOf events ↔
    ∃ first ∈ before.snapshot.nodes, ∃ second ∈ after.snapshot.nodes,
      first.id = node ∧ second.id = node ∧ ¬SameRecord first second

theorem changesOf_append (events others : List TreeEvent) :
    changesOf (events ++ others) = changesOf events ++ changesOf others := by
  simp [changesOf]

theorem changesOf_other {events : List TreeEvent}
    (other : ∀ event ∈ events, event.kind ≠ .nodeChanged) : changesOf events = [] := by
  simpa [changesOf] using other

theorem changesOf_changed (generation : Generation) (nodes : List NodeId) :
    changesOf (nodes.map (nodeEvent .nodeChanged generation)) = nodes := by
  induction nodes with
  | nil => rfl
  | cons node rest ih => simpa [changesOf, nodeEvent] using ih

theorem changesOf_derived (before after : Generation) :
    changesOf (deriveSameScopeEvents before after) = changedNodes before after := by
  have nodes : ∀ kind generation (items : List NodeId), kind ≠ .nodeChanged →
      changesOf (items.map (nodeEvent kind generation)) = [] := by
    intro kind generation items other
    apply changesOf_other
    simpa [nodeEvent] using fun _ _ => other
  have relations : ∀ kind generation (items : List UiRelation), kind ≠ .nodeChanged →
      changesOf (items.map (relationEvent kind generation)) = [] := by
    intro kind generation items other
    apply changesOf_other
    simpa [relationEvent, nodeEvent] using fun _ _ => other
  have edges : ∀ items : List (NodeId × NodeId),
      changesOf (items.flatMap (changedEdgeEvents before after)) = [] := by
    intro items
    induction items with
    | nil => rfl
    | cons edge rest ih =>
      simp [changesOf_append, changedEdgeEvents, relations, ih]
  simp [deriveSameScopeEvents, changesOf_append, changesOf_changed, nodes, relations, edges]

theorem nodup_changedNodes (before after : Generation) : (changedNodes before after).Nodup := by
  have keys : (after.nodeIndexes.toList.map Prod.fst).Nodup := by
    rw [ExtTreeMap.map_fst_toList_eq_keys]
    exact ExtTreeMap.nodup_keys
  exact keys.sublist (filter_sublist.map _)

/-! ## Exactness -/

/-- A generation that was validated and then built. -/
structure Tabulated (generation : Generation) : Prop where
  tabled : Tabled generation.snapshot.nodes generation
  nodesOnce : (generation.snapshot.nodes.map UiNodeRecord.id).Nodup
  propertiesOnce : ∀ record ∈ generation.snapshot.nodes, record.propertyIds.Nodup

section

variable {metadata : UiSnapshotMetadata} {nodes : List UiNodeRecord}

theorem Prepares.tabulated {staged : Option Generation} {prepared : PreparedUpdate}
    (prepares : Prepares staged prepared) : Tabulated prepared.generation := by
  rcases prepares.built with ⟨_, nodes, _, relations, normalized, isNormalized, built⟩
  rcases normalizedSnapshot_ok isNormalized with ⟨rootsOk, normalizedEq⟩
  have snapshotEq := (buildGeneration_ok built).1
  have nodesEq : prepared.generation.snapshot.nodes = nodes := by rw [snapshotEq, normalizedEq]
  constructor
  case tabled => exact tabled_of_built built
  case nodesOnce =>
    rw [nodesEq]
    exact (wellFormed_of_ok rootsOk).nodesOnce
  case propertiesOnce =>
    rw [nodesEq]
    intro record member
    exact ((wellFormed_of_ok rootsOk).nodesFine record member).once

variable {before after generation : Generation}

/-- The index of a node leads to the one record with its id. -/
theorem Tabulated.stands (tabulated : Tabulated generation) {record : UiNodeRecord}
    (member : record ∈ generation.snapshot.nodes) :
    ∃ index, generation.nodeIndexes[record.id]? = some index ∧ Stands generation index record := by
  rcases ExtTreeMap.mem_iff_isSome_getElem?.mp (tabulated.tabled.known record member)
    |> Option.isSome_iff_exists.mp with ⟨index, isAt⟩
  rcases tabulated.tabled.indexed _ _ isAt with ⟨other, otherMember, idEq, stands⟩
  have same : other = record := inj_on_of_nodup_map tabulated.nodesOnce otherMember member idEq
  exact ⟨index, isAt, same ▸ stands⟩

/-- The reported nodes are those whose records disagree in a column. -/
theorem mem_changedNodes (beforeTabulated : Tabulated before) (afterTabulated : Tabulated after)
    (node : NodeId) : node ∈ changedNodes before after ↔
      ∃ first ∈ before.snapshot.nodes, ∃ second ∈ after.snapshot.nodes,
        first.id = node ∧ second.id = node ∧ ¬SameFacts first second := by
  have decides : ∀ {first second beforeIndex afterIndex},
      first ∈ before.snapshot.nodes → second ∈ after.snapshot.nodes →
      Stands before beforeIndex first → Stands after afterIndex second →
      (sameNodeFacts before beforeIndex after afterIndex = true ↔ SameFacts first second) :=
    fun firstMember secondMember firstStands secondStands =>
      sameNodeFacts_iff firstStands secondStands
        (beforeTabulated.propertiesOnce _ firstMember)
        (afterTabulated.propertiesOnce _ secondMember)
  simp only [changedNodes, mem_map, mem_filter,
    ExtTreeMap.mem_toList_iff_getElem?_eq_some, Prod.exists]
  constructor
  · rintro ⟨_, afterIndex, ⟨afterAt, differs⟩, rfl⟩
    split at differs
    · cases differs
    rename_i beforeIndex beforeAt
    rcases beforeTabulated.tabled.indexed _ _ beforeAt with ⟨first, isFirst, firstId, firstStands⟩
    rcases afterTabulated.tabled.indexed _ _ afterAt with
      ⟨second, isSecond, secondId, secondStands⟩
    refine ⟨first, isFirst, second, isSecond, firstId, secondId, ?_⟩
    rw [← decides isFirst isSecond firstStands secondStands]
    simpa using differs
  · rintro ⟨first, isFirst, second, isSecond, rfl, secondId, differ⟩
    rcases beforeTabulated.stands isFirst with ⟨beforeIndex, beforeAt, firstStands⟩
    rcases afterTabulated.stands isSecond with ⟨afterIndex, afterAt, secondStands⟩
    rw [secondId] at afterAt
    refine ⟨first.id, afterIndex, ⟨afterAt, ?_⟩, rfl⟩
    rw [← decides isFirst isSecond firstStands secondStands] at differ
    simpa [beforeAt] using differ

theorem changesExact_iff (beforeTabulated : Tabulated before) (afterTabulated : Tabulated after) :
    ChangesExact before after (deriveSameScopeEvents before after) ↔
      ∀ first ∈ before.snapshot.nodes, ∀ second ∈ after.snapshot.nodes,
        first.id = second.id → SameFacts first second → first.facets = second.facets := by
  constructor
  · intro changes first isFirst second isSecond idEq same
    by_contra facets
    have differs : first.id ∈ changesOf (deriveSameScopeEvents before after) :=
      (changes.exact first.id).mpr
        ⟨first, isFirst, second, isSecond, rfl, idEq.symm, fun record => facets record.facets⟩
    rw [changesOf_derived, mem_changedNodes beforeTabulated afterTabulated] at differs
    rcases differs with ⟨other, isOther, another, isAnother, otherId, anotherId, differ⟩
    have firstEq : other = first :=
      inj_on_of_nodup_map beforeTabulated.nodesOnce isOther isFirst otherId
    have secondEq : another = second :=
      inj_on_of_nodup_map afterTabulated.nodesOnce isAnother isSecond (anotherId.trans idEq)
    rw [firstEq, secondEq] at differ
    exact differ same
  · intro visible
    constructor
    case once =>
      rw [changesOf_derived]
      exact nodup_changedNodes before after
    case exact =>
      intro node
      rw [changesOf_derived, mem_changedNodes beforeTabulated afterTabulated]
      constructor
      · rintro ⟨first, isFirst, second, isSecond, firstId, secondId, differ⟩
        exact ⟨first, isFirst, second, isSecond, firstId, secondId,
          fun record => differ record.toSameFacts⟩
      · rintro ⟨first, isFirst, second, isSecond, firstId, secondId, differ⟩
        refine ⟨first, isFirst, second, isSecond, firstId, secondId, fun same => differ ?_⟩
        exact ⟨same, visible first isFirst second isSecond (firstId.trans secondId.symm) same⟩

end

namespace TreeStore

variable {store : TreeStore} {update : UiUpdate}

/-- What an accepted update of the staged scope reports, and between which
generations. -/
theorem sameScope_events {applied : AppliedDelta} {before after : Generation}
    (reachable : store.Reachable) (beforeEq : store.stagedGeneration = some before)
    (accepted : (store.stage update).2 = .ok applied)
    (afterEq : (store.stage update).1.stagedGeneration = some after)
    (scope : sameScope before.snapshot.metadata after.snapshot.metadata = true) :
    Tabulated before ∧ Tabulated after ∧ applied.events = deriveSameScopeEvents before after := by
  rcases stage_prepares store update with ⟨_, _, _, refused⟩ | ⟨prepared, full, prepares, queued⟩
  · rw [refused] at accepted
    cases accepted
  rw [queued] at accepted afterEq
  rw [stagedGeneration_enqueue] at afterEq
  rw [← Option.some.inj afterEq] at scope ⊢
  rw [← Except.ok.inj accepted, prepares.sound.events, beforeEq]
  have held := reachable.holds fun _ _ prepares => prepares.tabulated
  refine ⟨held.staged beforeEq, prepares.tabulated, ?_⟩
  simp only [deriveReplacementEvents, scope, if_true]

def facetGained : UiUpdate where
  sourceSequence := 2
  payload := .delta
    { metadata := ⟨⟨1⟩, 1, ⟨1⟩, 2, true⟩
      baseRevision := 1
      changedNodes := [{ plainNode 2 with facets := 1 }] }

theorem stage_facetGained : (storeOfTwo.stage facetGained).2 = .ok ⟨1, 2, []⟩ := by
  decide +kernel

/-- The generations of the staged snapshots before and after the update. -/
theorem staged_facetGained : ∃ before after,
    storeOfTwo.stagedGeneration = some before ∧
      (storeOfTwo.stage facetGained).1.stagedGeneration = some after ∧
      before.snapshot.nodes = [plainNode 1, plainNode 2] ∧
      after.snapshot.nodes = [plainNode 1, { plainNode 2 with facets := 1 }] ∧
      sameScope before.snapshot.metadata after.snapshot.metadata = true := by
  have snapshots : storeOfTwo.stagedGeneration.map Generation.snapshot =
      some ⟨⟨⟨1⟩, 1, ⟨1⟩, 1, true⟩, [plainNode 1, plainNode 2], [⟨1⟩],
        [⟨⟨1⟩, ⟨2⟩, Relation.contains⟩]⟩ ∧
      (storeOfTwo.stage facetGained).1.stagedGeneration.map Generation.snapshot =
        some ⟨⟨⟨1⟩, 1, ⟨1⟩, 2, true⟩, [plainNode 1, { plainNode 2 with facets := 1 }], [⟨1⟩],
          [⟨⟨1⟩, ⟨2⟩, Relation.contains⟩]⟩ := by
    decide +kernel
  rcases Option.map_eq_some_iff.mp snapshots.1 with ⟨before, beforeEq, beforeIs⟩
  rcases Option.map_eq_some_iff.mp snapshots.2 with ⟨after, afterEq, afterIs⟩
  exact ⟨before, after, beforeEq, afterEq, by rw [beforeIs], by rw [afterIs],
    by rw [beforeIs, afterIs]; rfl⟩

end TreeStore

end Grab.Kernel
