import Grab.Lifecycle.SessionCore

/-!
# Published graph events

The sink of a binding turns the events of a tree store into bus events.  It stamps
them with the revision before and after the update and reports the active child a
node had before.  Both are reconstructed from what the sink remembers of earlier
batches; below, what it says is compared with the two trees of an update.
-/

namespace Grab.Kernel.Lifecycle

open Grab.Lib Grab.Spi Grab.Graph Grab.Events List

namespace RuntimeBinding

/-! ## The sink as a tracker -/

def tracker (binding : RuntimeBinding) : Tracker UInt64 UInt64 :=
  ⟨binding.pendingActive, binding.currentActive⟩

/-- What a tree event does to the active children. -/
def changeOf (event : TreeEvent) : Option (Change UInt64 UInt64) :=
  match event.kind with
  | .nodeRemoved => some (.leave event.node.value)
  | .relationRemoved =>
    if event.relation ≠ Relation.activeChild then none
    else some (.remove event.node.value event.related.value)
  | .relationAdded =>
    if event.relation ≠ Relation.activeChild then none
    else some (.add event.node.value event.related.value)
  | .nodeAdded => none
  | .nodeChanged => none

/-- The active children reported for a parent, each with the one before it. -/
def activeReports (published : List GraphEvent) (parent : UInt64) : List (UInt64 × UInt64) :=
  (published.filter fun event =>
      event.kind = .activeChildChanged ∧ event.payload.node = parent).map
    fun event => (event.payload.related, event.payload.previousActive)

/-- How an arrival is reported. -/
def reportOf (arrival : Arrival UInt64 UInt64) : UInt64 × UInt64 :=
  (arrival.value, arrival.previous.getD 0)

/-- The fields of a binding that its sink leaves alone once a batch is recognised. -/
structure SameBatch (binding next : RuntimeBinding) : Prop where
  runtime : next.runtime = binding.runtime
  assignedRuntime : next.assignedRuntime = binding.assignedRuntime
  store : next.store = binding.store
  batch : next.sinkBatchRevision = binding.sinkBatchRevision
  previous : next.sinkPreviousRevision = binding.sinkPreviousRevision

theorem SameBatch.refl (binding : RuntimeBinding) : SameBatch binding binding :=
  ⟨rfl, rfl, rfl, rfl, rfl⟩

theorem SameBatch.trans {first second third : RuntimeBinding} (left : SameBatch first second)
    (right : SameBatch second third) : SameBatch first third :=
  ⟨right.runtime.trans left.runtime, right.assignedRuntime.trans left.assignedRuntime,
    right.store.trans left.store, right.batch.trans left.batch,
    right.previous.trans left.previous⟩

/-- The sink has recognised the batch of the published generation. -/
def Noted (binding : RuntimeBinding) : Prop :=
  binding.sinkBatchRevision = revisionOf binding.store.current

variable {event : TreeEvent} {generation : Generation} {edits : List (Edit Item)}
  {tracker : Tracker UInt64 UInt64}

section

variable {binding : RuntimeBinding}

theorem Noted.noteBatch (noted : binding.Noted) : binding.noteBatch = binding := by
  unfold RuntimeBinding.noteBatch
  rw [if_neg]
  exact fun differs => differs noted.symm

theorem noted_noteBatch (binding : RuntimeBinding) : binding.noteBatch.Noted := by
  unfold RuntimeBinding.noteBatch
  dsimp only
  split
  · rfl
  · rename_i same
    exact (not_not.mp same).symm

theorem publishTreeEvent_noteBatch (binding : RuntimeBinding) (event : TreeEvent) :
    binding.noteBatch.publishTreeEvent event = binding.publishTreeEvent event := by
  unfold publishTreeEvent
  rw [(noted_noteBatch binding).noteBatch]

theorem activeReports_append (first second : List GraphEvent) (parent : UInt64) :
    activeReports (first ++ second) parent =
      activeReports first parent ++ activeReports second parent := by
  simp [activeReports]

/-- What the sink does with one event of a batch it knows. -/
structure Translates (binding : RuntimeBinding) (events : List TreeEvent)
    (changes : List (Change UInt64 UInt64)) (out : RuntimeBinding × List GraphEvent) : Prop where
  same : SameBatch binding out.1
  tracker : out.1.tracker = (binding.tracker.run changes).1
  reports : ∀ parent, activeReports out.2 parent =
    (Tracker.arrivalsOf parent (binding.tracker.run changes).2).map reportOf
  before : ∀ published ∈ out.2, published.beforeRevision = binding.sinkPreviousRevision
  after : ∀ revision, (∃ published ∈ out.2, published.afterRevision = revision) ↔
    ∃ event ∈ events, event.revision = revision

theorem previousActive_eq (binding : RuntimeBinding) (parent : UInt64) :
    binding.previousActive parent =
      ((Assoc.find binding.pendingActive parent).or
        (Assoc.find binding.currentActive parent)).getD 0 := by
  unfold previousActive
  cases Assoc.find binding.pendingActive parent <;> rfl

theorem eventKind_ne (kind : TreeEventKind) : eventKind kind ≠ .activeChildChanged := by
  cases kind <;> simp [eventKind]

/-- An event that is only passed on. -/
theorem translates_plain {changes : List (Change UInt64 UInt64)} {next : RuntimeBinding}
    (same : SameBatch binding next) (tracker : next.tracker = (binding.tracker.run changes).1)
    (silent : (binding.tracker.run changes).2 = []) :
    Translates binding [event] changes
      (next, [binding.makeEvent event (eventKind event.kind) 0]) where
  same := same
  tracker := tracker
  reports parent := by
    rw [silent]
    simp [activeReports, makeEvent, eventKind_ne, Tracker.arrivalsOf]
  before := by simp [makeEvent]
  after revision := by simp [makeEvent]

theorem Noted.publishTreeEvent (noted : binding.Noted) (event : TreeEvent) :
    Translates binding [event] (changeOf event).toList (binding.publishTreeEvent event) := by
  unfold RuntimeBinding.publishTreeEvent
  rw [noted.noteBatch]
  cases kind : event.kind with
  | nodeAdded | nodeChanged =>
    simp only [changeOf, kind, Option.toList_none]
    rw [← kind]
    exact translates_plain (.refl _) rfl rfl
  | nodeRemoved =>
    simp only [changeOf, kind, Option.toList_some]
    rw [← kind]
    exact translates_plain ⟨rfl, rfl, rfl, rfl, rfl⟩ rfl rfl
  | relationRemoved =>
    simp only [changeOf, kind]
    rw [← kind]
    split
    · exact translates_plain (.refl _) rfl rfl
    · exact translates_plain ⟨rfl, rfl, rfl, rfl, rfl⟩ rfl rfl
  | relationAdded =>
    simp only [changeOf, kind]
    rw [← kind]
    split
    · exact translates_plain (.refl _) rfl rfl
    constructor
    case same => exact ⟨rfl, rfl, rfl, rfl, rfl⟩
    case tracker => rfl
    case reports =>
      intro parent
      by_cases here : event.node.value = parent
      · simp [activeReports, makeEvent, eventKind_ne, Tracker.arrivalsOf, Tracker.run,
          Tracker.step, tracker, reportOf, previousActive_eq, here]
      · simp [activeReports, makeEvent, eventKind_ne, Tracker.arrivalsOf, Tracker.run,
          Tracker.step, tracker, here]
    case before => simp [makeEvent]
    case after =>
      intro revision
      simp [makeEvent]

/-- The sink on a whole batch it knows. -/
theorem Noted.publishAll (noted : binding.Noted) (events : List TreeEvent) :
    Translates binding events (events.filterMap changeOf) (binding.publishAll events) := by
  induction events generalizing binding with
  | nil => exact ⟨.refl _, rfl, fun _ => rfl, by simp [RuntimeBinding.publishAll],
      by simp [RuntimeBinding.publishAll]⟩
  | cons event rest ih =>
    have first := noted.publishTreeEvent event
    have stillNoted : (binding.publishTreeEvent event).1.Noted := by
      unfold Noted
      rw [first.same.batch, first.same.store]
      exact noted
    have last := ih stillNoted
    have changesEq : (event :: rest).filterMap changeOf =
        (changeOf event).toList ++ rest.filterMap changeOf := by
      rw [filterMap_cons]
      cases changeOf event <;> rfl
    rw [changesEq]
    unfold RuntimeBinding.publishAll
    constructor
    case same => exact first.same.trans last.same
    case tracker => rw [last.tracker, first.tracker, Tracker.run_append]
    case reports =>
      intro parent
      rw [activeReports_append, first.reports, last.reports, first.tracker,
        Tracker.run_append, Tracker.arrivalsOf_append, map_append]
    case before =>
      intro published member
      rcases mem_append.mp member with isFirst | isLater
      · exact first.before published isFirst
      · exact (last.before published isLater).trans first.same.previous
    case after =>
      intro revision
      have firstIff := first.after revision
      have lastIff := last.after revision
      simp only [mem_append, or_and_right, exists_or, mem_cons, exists_eq_left,
        not_mem_nil, or_false] at firstIff ⊢
      rw [firstIff, lastIff]

end

/-! ## Active children of a tree -/

/-- The first target of the active-child relation of a parent. -/
def activeChild (generation : Generation) (parent : NodeId) : Option NodeId :=
  (generation.snapshot.relations.find? fun relation =>
    relation.source = parent ∧ relation.relation = Relation.activeChild).map UiRelation.target

def activeChildOf (generation : Option Generation) (parent : NodeId) : Option NodeId :=
  generation.bind fun generation => activeChild generation parent

/-- No node has two active children. -/
def Tidy (generation : Generation) : Prop :=
  ∀ first ∈ generation.snapshot.relations, ∀ second ∈ generation.snapshot.relations,
    first.relation = Relation.activeChild → second.relation = Relation.activeChild →
    first.source = second.source → first.target = second.target

theorem Tidy.activeChild_eq_some (tidy : Tidy generation) (parent child : NodeId) :
    activeChild generation parent = some child ↔
      ⟨parent, child, Relation.activeChild⟩ ∈ generation.snapshot.relations := by
  unfold activeChild
  constructor
  · intro isActive
    rcases Option.map_eq_some_iff.mp isActive with ⟨relation, found, rfl⟩
    have holds := find?_some found
    have member := mem_of_find?_eq_some found
    rcases relation with ⟨source, target, kind⟩
    simp only [decide_eq_true_eq] at holds
    rcases holds with ⟨rfl, rfl⟩
    exact member
  · intro member
    have found : ∃ relation, generation.snapshot.relations.find? (fun relation =>
        relation.source = parent ∧ relation.relation = Relation.activeChild) = some relation := by
      apply Option.isSome_iff_exists.mp
      exact find?_isSome.mpr ⟨_, member, by simp⟩
    rcases found with ⟨relation, found⟩
    have holds := find?_some found
    simp only [decide_eq_true_eq] at holds
    have target := tidy relation (mem_of_find?_eq_some found) _ member holds.2 rfl holds.1
    rw [found, Option.map_some, target]

/-- What an edit of nodes and relations does to the active children. -/
def changeOfEdit : Edit Item → Option (Change UInt64 UInt64)
  | .add (.node _) => none
  | .remove (.node node) => some (.leave node.value)
  | .add (.relation relation) =>
    if relation.relation ≠ Relation.activeChild then none
    else some (.add relation.source.value relation.target.value)
  | .remove (.relation relation) =>
    if relation.relation ≠ Relation.activeChild then none
    else some (.remove relation.source.value relation.target.value)

theorem filterMap_changeOf (events : List TreeEvent) :
    events.filterMap changeOf = (editsOf events).filterMap changeOfEdit := by
  rw [editsOf, filterMap_filterMap]
  apply filterMap_congr
  intro event _
  unfold changeOf TreeEvent.edit
  cases event.kind <;> rfl

section

variable {change : Change UInt64 UInt64}

theorem changeOfEdit_eq_some {edit : Edit Item} :
    changeOfEdit edit = some change ↔
      match change with
      | .leave node => edit = .remove (.node ⟨node⟩)
      | .remove parent child => edit = .remove (.relation ⟨⟨parent⟩, ⟨child⟩, Relation.activeChild⟩)
      | .add parent child => edit = .add (.relation ⟨⟨parent⟩, ⟨child⟩, Relation.activeChild⟩) := by
  have nodeEq : ∀ (node : NodeId) (value : UInt64), node.value = value ↔ node = ⟨value⟩ := by
    intro node value
    cases node
    simp
  have relationEq : ∀ (relation : UiRelation) (parent child : UInt64),
      (relation.relation = Relation.activeChild ∧ relation.source.value = parent ∧
        relation.target.value = child) ↔
      relation = ⟨⟨parent⟩, ⟨child⟩, Relation.activeChild⟩ := by
    intro relation parent child
    cases relation
    simp only [UiRelation.mk.injEq, nodeEq]
    tauto
  rcases edit with (node | relation) | (node | relation)
  · cases change <;> simp [changeOfEdit]
  · by_cases active : relation.relation = Relation.activeChild
    · cases change <;> simp [changeOfEdit, ← relationEq, active]
    · cases change <;> simp [changeOfEdit, ← relationEq, active]
  · cases change <;> simp [changeOfEdit, nodeEq]
  · by_cases active : relation.relation = Relation.activeChild
    · cases change <;> simp [changeOfEdit, ← relationEq, active]
    · cases change <;> simp [changeOfEdit, ← relationEq, active]

theorem nodup_changes (once : edits.Nodup) : (edits.filterMap changeOfEdit).Nodup := by
  apply once.filterMap
  intro first second change isFirst isSecond
  have firstEq := changeOfEdit_eq_some.mp isFirst
  have secondEq := changeOfEdit_eq_some.mp isSecond
  cases change <;> exact firstEq.trans secondEq.symm

theorem mem_changes :
    change ∈ edits.filterMap changeOfEdit ↔
      match change with
      | .leave node => .remove (.node ⟨node⟩) ∈ edits
      | .remove parent child =>
        .remove (.relation ⟨⟨parent⟩, ⟨child⟩, Relation.activeChild⟩) ∈ edits
      | .add parent child =>
        .add (.relation ⟨⟨parent⟩, ⟨child⟩, Relation.activeChild⟩) ∈ edits := by
  rw [mem_filterMap]
  simp only [changeOfEdit_eq_some]
  cases change <;> simp

end

/-! ## A batch and the active children -/

/-- The active children of a set of nodes and relations, as a partial function. -/
def IsActive (items : Set Item) (active : UInt64 → Option UInt64) : Prop :=
  ∀ parent child, active parent = some child ↔
    .relation ⟨⟨parent⟩, ⟨child⟩, Relation.activeChild⟩ ∈ items

/-- The tracker knows the active children. -/
structure Follows (tracker : Tracker UInt64 UInt64) (active : UInt64 → Option UInt64) : Prop where
  distinct : tracker.Distinct
  current : ∀ parent, Assoc.find tracker.current parent = active parent

/-- The edits between two sets turn each parent's active child into the new one, and
are reported so when nothing of an earlier batch is pending. -/
theorem Follows.difference {before after : Set Item} {old new : UInt64 → Option UInt64}
    (follows : Follows tracker old) (difference : Edit.IsDifference before after edits)
    (isOld : IsActive before old) (isNew : IsActive after new)
    (parents : ∀ parent, .node ⟨parent⟩ ∉ after → new parent = none) :
    Follows (tracker.run (edits.filterMap changeOfEdit)).1 new ∧
      (tracker.pending = [] → ∀ parent,
        Tracker.arrivalsOf parent (tracker.run (edits.filterMap changeOfEdit)).2 =
          Tracker.turn parent (old parent) (new parent)) := by
  have turns : ∀ parent, Tracker.Turns parent (Assoc.find tracker.current parent) (new parent)
      (edits.filterMap changeOfEdit) := by
    intro parent
    rw [follows.current]
    constructor
    case once => exact nodup_changes difference.once
    case added =>
      intro child
      rw [mem_changes]
      dsimp only
      rw [difference.added, isNew, Ne, isOld]
    case removed =>
      intro child
      rw [mem_changes]
      dsimp only
      rw [difference.removed, isOld, Ne, isNew]
    case left =>
      intro leaves
      rw [mem_changes] at leaves
      exact parents parent ((difference.removed _).mp leaves).2
  constructor
  · exact ⟨follows.distinct.run _, fun parent => ((turns parent).run follows.distinct).1⟩
  · intro cleared parent
    rw [((turns parent).run follows.distinct).2 cleared, follows.current]

def activeOf (generation : Option Generation) (parent : UInt64) : Option UInt64 :=
  (activeChildOf generation ⟨parent⟩).map NodeId.value

theorem isActive_empty : IsActive ∅ fun _ => none := by
  simp [IsActive]

theorem Tidy.isActive (tidy : Tidy generation) :
    IsActive generation.items (activeOf (some generation)) := by
  intro parent child
  have memIff : Item.relation ⟨⟨parent⟩, ⟨child⟩, Relation.activeChild⟩ ∈ generation.items ↔
      ⟨⟨parent⟩, ⟨child⟩, Relation.activeChild⟩ ∈ generation.snapshot.relations := Iff.rfl
  rw [memIff, ← tidy.activeChild_eq_some]
  unfold activeOf activeChildOf
  rw [Option.bind_some, Option.map_eq_some_iff]
  constructor
  · rintro ⟨node, isActive, rfl⟩
    exact isActive
  · intro isActive
    exact ⟨⟨child⟩, isActive, rfl⟩

/-- A node that is not in the tree has no active child there. -/
theorem activeOf_absent (valid : generation.Valid) (tidy : Tidy generation) {parent : UInt64}
    (absent : .node ⟨parent⟩ ∉ generation.items) : activeOf (some generation) parent = none := by
  cases isActive : activeOf (some generation) parent with
  | none => rfl
  | some child =>
    exfalso
    apply absent
    have member := (tidy.isActive parent child).mp isActive
    have isCore : Relation.activeChild.value < 32 := by decide
    rcases (valid.indexed.core ⟨parent⟩ ⟨child⟩ 5).mpr ⟨_, member, rfl, rfl, isCore, rfl⟩ with
      ⟨mask, payload, _⟩
    have edge := (AdjacencyGraph.edgePayload_eq_some_iff valid.indexed.mirrored).mp payload
    exact (valid.indexed.nodes ⟨parent⟩).mp (valid.indexed.mirrored.live _ _ _ edge).1

/-- The batch of an update, whatever its scope, leaves the tracker with the active
children of the new tree; within a scope each change is reported. -/
theorem Follows.batch {before : Option Generation} {after : Generation} {events : List TreeEvent}
    (exact : TreeStore.ExactBatch before after events) (afterValid : after.Valid)
    (beforeTidy : ∀ generation, before = some generation → Tidy generation) (afterTidy : Tidy after)
    (follows : Follows tracker (activeOf before)) :
    Follows (tracker.run (events.filterMap changeOf)).1 (activeOf (some after)) ∧
      ∀ base, before = some base →
        sameScope base.snapshot.metadata after.snapshot.metadata = true →
        tracker.pending = [] → ∀ parent,
        Tracker.arrivalsOf parent (tracker.run (events.filterMap changeOf)).2 =
          Tracker.turn parent (activeOf before parent) (activeOf (some after) parent) := by
  rw [filterMap_changeOf]
  have parents : ∀ parent, Item.node ⟨parent⟩ ∉ after.items → activeOf (some after) parent = none :=
    fun parent absent => activeOf_absent afterValid afterTidy absent
  have replaced : ∀ {items : Set Item}, Edit.IsReplacement items after.items (editsOf events) →
      IsActive items (activeOf before) →
      Follows (tracker.run ((editsOf events).filterMap changeOfEdit)).1
        (activeOf (some after)) := by
    intro items replacement isOld
    rcases replacement.split with ⟨removals, additions, split, removed, added⟩
    rw [split, filterMap_append, Tracker.run_append]
    have emptied := (follows.difference removed isOld isActive_empty (fun _ _ => rfl)).1
    exact (emptied.difference added isActive_empty afterTidy.isActive parents).1
  cases before with
  | none =>
    refine ⟨replaced exact isActive_empty, ?_⟩
    rintro base isBase
    cases isBase
  | some base =>
    have baseActive := (beforeTidy base rfl).isActive
    unfold TreeStore.ExactBatch at exact
    dsimp only at exact
    split at exact
    · rcases follows.difference exact.1 baseActive afterTidy.isActive parents with
        ⟨followed, reported⟩
      exact ⟨followed, fun _ _ _ cleared => reported cleared⟩
    rename_i otherScope
    refine ⟨replaced exact baseActive, ?_⟩
    rintro other isOther scope
    cases isOther
    exact absurd scope otherScope

/-! ## Revisions of a batch -/

/-- The event takes a node or a relation away. -/
def IsRemoval (event : TreeEvent) : Prop :=
  event.kind = .nodeRemoved ∨ event.kind = .relationRemoved

/-- Removals are stamped by the old generation, everything else by the new one. -/
def StampedBy (before : Option Generation) (after : Generation) (event : TreeEvent) : Prop :=
  (IsRemoval event → event.revision = revisionOf before) ∧
    (¬IsRemoval event → event.revision = after.snapshot.metadata.revision)

section

variable {before after : Generation} {kind : TreeEventKind}

@[simp]
theorem nodeEvent_kind (kind : TreeEventKind) (generation : Generation) (node : NodeId) :
    (nodeEvent kind generation node).kind = kind := rfl

@[simp]
theorem relationEvent_kind (kind : TreeEventKind) (generation : Generation)
    (relation : UiRelation) : (relationEvent kind generation relation).kind = kind := rfl

theorem stampedBy_removed (removal : kind = .nodeRemoved ∨ kind = .relationRemoved)
    (isKind : event.kind = kind) (revision : event.revision = before.snapshot.metadata.revision) :
    StampedBy (some before) after event := by
  subst isKind
  exact ⟨fun _ => revision, fun noRemoval => absurd removal noRemoval⟩

theorem stampedBy_kept {old : Option Generation}
    (kept : ¬(kind = .nodeRemoved ∨ kind = .relationRemoved)) (isKind : event.kind = kind)
    (revision : event.revision = after.snapshot.metadata.revision) : StampedBy old after event := by
  subst isKind
  exact ⟨fun removal => absurd removal kept, fun _ => revision⟩

theorem stampedBy_additions (old : Option Generation) :
    ∀ event ∈ additionEvents after, StampedBy old after event := by
  intro event member
  simp only [additionEvents, mem_append, mem_map] at member
  rcases member with ⟨node, _, rfl⟩ | ⟨relation, _, rfl⟩ | ⟨relation, _, rfl⟩
  · exact stampedBy_kept (by simp) rfl rfl
  · exact stampedBy_kept (by simp) rfl rfl
  · exact stampedBy_kept (by simp) rfl rfl

theorem stampedBy_removals :
    ∀ event ∈ removalEvents before, StampedBy (some before) after event := by
  intro event member
  simp only [removalEvents, mem_append, mem_map] at member
  rcases member with ⟨node, _, rfl⟩ | ⟨relation, _, rfl⟩ | ⟨relation, _, rfl⟩
  · exact stampedBy_removed (.inl rfl) rfl rfl
  · exact stampedBy_removed (.inr rfl) rfl rfl
  · exact stampedBy_removed (.inr rfl) rfl rfl

theorem stampedBy_sameScope :
    ∀ event ∈ deriveSameScopeEvents before after, StampedBy (some before) after event := by
  intro event member
  simp only [deriveSameScopeEvents, mem_append, mem_map, mem_flatMap, changedEdgeEvents] at member
  rcases member with ⟨node, _, rfl⟩ | ⟨node, _, rfl⟩ | ⟨node, _, rfl⟩ | ⟨relation, _, rfl⟩ |
    ⟨relation, _, rfl⟩ | ⟨edge, _, ⟨relation, _, rfl⟩ | ⟨relation, _, rfl⟩⟩ |
    ⟨relation, _, rfl⟩ | ⟨relation, _, rfl⟩
  · exact stampedBy_removed (.inl rfl) rfl rfl
  · exact stampedBy_kept (by simp) rfl rfl
  · exact stampedBy_kept (by simp) rfl rfl
  · exact stampedBy_removed (.inr rfl) rfl rfl
  · exact stampedBy_kept (by simp) rfl rfl
  · exact stampedBy_removed (.inr rfl) rfl rfl
  · exact stampedBy_kept (by simp) rfl rfl
  · exact stampedBy_removed (.inr rfl) rfl rfl
  · exact stampedBy_kept (by simp) rfl rfl

theorem stampedBy_derive (old : Option Generation) :
    ∀ event ∈ deriveReplacementEvents old after, StampedBy old after event := by
  cases old with
  | none => exact stampedBy_additions none
  | some before =>
    unfold deriveReplacementEvents
    dsimp only
    split
    · exact stampedBy_sameScope
    intro event member
    rcases mem_append.mp member with removed | added
    · exact stampedBy_removals event removed
    · exact stampedBy_additions _ event added

end

/-- The update takes a node or a relation away. -/
def TakesAway (before : Option Generation) (after : Generation) : Prop :=
  match before with
  | none => False
  | some before =>
    if sameScope before.snapshot.metadata after.snapshot.metadata then
      ∃ item ∈ before.items, item ∉ after.items
    else before.items.Nonempty

/-- The update changes something that is reported. -/
def Changes (before : Option Generation) (after : Generation) : Prop :=
  match before with
  | none => after.items.Nonempty
  | some before =>
    if sameScope before.snapshot.metadata after.snapshot.metadata then
      before.items ≠ after.items ∨ changedNodes before after ≠ []
    else before.items.Nonempty ∨ after.items.Nonempty

theorem exists_removal_iff_edit (events : List TreeEvent) :
    (∃ event ∈ events, IsRemoval event) ↔ ∃ item, .remove item ∈ editsOf events := by
  simp only [editsOf, mem_filterMap]
  constructor
  · rintro ⟨event, member, removal⟩
    rcases removal with isKind | isKind
    · exact ⟨_, event, member, by rw [TreeEvent.edit, isKind]⟩
    · exact ⟨_, event, member, by rw [TreeEvent.edit, isKind]⟩
  rintro ⟨item, event, member, isEdit⟩
  refine ⟨event, member, ?_⟩
  unfold TreeEvent.edit at isEdit
  unfold IsRemoval
  cases kind : event.kind <;> rw [kind] at isEdit <;> simp at isEdit ⊢

theorem exists_event_iff_edit (events : List TreeEvent) : (∃ event, event ∈ events) ↔
      (∃ edit, edit ∈ editsOf events) ∨ ∃ event ∈ events, event.kind = .nodeChanged := by
  simp only [editsOf, mem_filterMap]
  constructor
  · rintro ⟨event, member⟩
    cases isEdit : event.edit with
    | some edit => exact .inl ⟨edit, event, member, isEdit⟩
    | none =>
      refine .inr ⟨event, member, ?_⟩
      unfold TreeEvent.edit at isEdit
      cases kind : event.kind <;> rw [kind] at isEdit <;> simp at isEdit ⊢
  · rintro (⟨_, event, member, _⟩ | ⟨event, member, _⟩)
    · exact ⟨event, member⟩
    · exact ⟨event, member⟩

section

variable {before after : Generation} {old : Option Generation} {first second : Set Item}

theorem exists_changed_sameScope :
    (∃ event ∈ deriveSameScopeEvents before after, event.kind = .nodeChanged) ↔
      changedNodes before after ≠ [] := by
  constructor
  · rintro ⟨event, member, isChange⟩
    simp only [deriveSameScopeEvents, mem_append, mem_map, mem_flatMap, changedEdgeEvents] at member
    rcases member with ⟨node, _, rfl⟩ | ⟨node, _, rfl⟩ | ⟨node, isChanged, rfl⟩ |
      ⟨relation, _, rfl⟩ | ⟨relation, _, rfl⟩ |
      ⟨edge, _, ⟨relation, _, rfl⟩ | ⟨relation, _, rfl⟩⟩ | ⟨relation, _, rfl⟩ |
      ⟨relation, _, rfl⟩
    case inr.inr.inl => exact ne_nil_of_mem isChanged
    all_goals cases isChange
  · intro some
    rcases exists_mem_of_ne_nil _ some with ⟨node, isChanged⟩
    refine ⟨nodeEvent .nodeChanged after node, ?_, rfl⟩
    unfold deriveSameScopeEvents
    simp only [mem_append]
    exact .inr (.inr (.inl (mem_map_of_mem isChanged)))

theorem no_changed_additions : ¬∃ event ∈ additionEvents after, event.kind = .nodeChanged := by
  rintro ⟨event, member, isChange⟩
  simp only [additionEvents, mem_append, mem_map] at member
  rcases member with ⟨node, _, rfl⟩ | ⟨relation, _, rfl⟩ | ⟨relation, _, rfl⟩
  all_goals cases isChange

theorem no_changed_removals : ¬∃ event ∈ removalEvents before, event.kind = .nodeChanged := by
  rintro ⟨event, member, isChange⟩
  simp only [removalEvents, mem_append, mem_map] at member
  rcases member with ⟨node, _, rfl⟩ | ⟨relation, _, rfl⟩ | ⟨relation, _, rfl⟩
  all_goals cases isChange

theorem exists_edit_of_difference (difference : Edit.IsDifference first second edits) :
    (∃ edit, edit ∈ edits) ↔ first ≠ second := by
  constructor
  · rintro ⟨edit, member⟩ rfl
    cases edit with
    | add item =>
      exact absurd ((difference.added item).mp member).1 ((difference.added item).mp member).2
    | remove item =>
      exact absurd ((difference.removed item).mp member).1 ((difference.removed item).mp member).2
  intro differ
  by_contra none
  apply differ
  ext item
  by_contra apart
  by_cases inFirst : item ∈ first
  · have gone : item ∉ second := fun inSecond => apart (iff_of_true inFirst inSecond)
    exact none ⟨_, (difference.removed item).mpr ⟨inFirst, gone⟩⟩
  have came : item ∈ second := by
    by_contra absent
    exact apart (iff_of_false inFirst absent)
  exact none ⟨_, (difference.added item).mpr ⟨came, inFirst⟩⟩

theorem exists_edit_of_replacement (replacement : Edit.IsReplacement first second edits) :
    (∃ edit, edit ∈ edits) ↔ first.Nonempty ∨ second.Nonempty := by
  constructor
  · rintro ⟨edit, member⟩
    cases edit with
    | add item => exact .inr ⟨item, (replacement.added item).mp member⟩
    | remove item => exact .inl ⟨item, (replacement.removed item).mp member⟩
  · rintro (⟨item, member⟩ | ⟨item, member⟩)
    · exact ⟨_, (replacement.removed item).mpr member⟩
    · exact ⟨_, (replacement.added item).mpr member⟩

variable (exact : TreeStore.ExactBatch old after (deriveReplacementEvents old after))

include exact

theorem exists_removal_iff :
    (∃ event ∈ deriveReplacementEvents old after, IsRemoval event) ↔ TakesAway old after := by
  rw [exists_removal_iff_edit]
  cases old with
    unfold TreeStore.ExactBatch at exact
  | none =>
    simp [exact.removed, TakesAway]
  | some before =>
    unfold TakesAway
    dsimp only at exact ⊢
    split at exact
    · rename_i scope
      simp only [if_pos scope, exact.1.removed]
    · rename_i otherScope
      simp only [if_neg otherScope, exact.removed]
      rfl

theorem exists_event_iff :
    (∃ event, event ∈ deriveReplacementEvents old after) ↔ Changes old after := by
  rw [exists_event_iff_edit]
  cases old with
    unfold TreeStore.ExactBatch at exact
  | none =>
    rw [exists_edit_of_replacement exact]
    unfold Changes deriveReplacementEvents
    simp [no_changed_additions]
  | some before =>
    unfold Changes
    dsimp only at exact ⊢
    split at exact
    · rename_i scope
      rw [exists_edit_of_difference exact.1]
      simp only [deriveReplacementEvents, if_pos scope, exists_changed_sameScope]
    rename_i otherScope
    rw [exists_edit_of_replacement exact]
    simp only [deriveReplacementEvents, if_neg otherScope, mem_append, or_and_right,
      exists_or, no_changed_additions, no_changed_removals, or_false]

end

end RuntimeBinding

end Grab.Kernel.Lifecycle
