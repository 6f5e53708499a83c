import Grab.Lifecycle.GraphEvents

/-!
# Revisions and previous children over whole runs

The store of a binding takes updates and publishes them, one batch after the
other.  Over every such run, exactly when the revisions on the published events
are those of the update, and that the sink keeps the active children of the
published tree.
-/

namespace Grab.Kernel.Lifecycle

open Grab.Lib Grab.Spi Grab.Graph Grab.Events List Option

namespace RuntimeBinding

/-! ## Runs of a binding -/

/-- What a binding can be after its store took updates and published them, with the
trees published.  The queue may hold several updates when callers interleave. -/
inductive Run : List Generation → RuntimeBinding → Prop
  | new : Run [] {}
  | attach {trees : List Generation} {binding : RuntimeBinding} (runtime : Option Nat)
      (assigned : RuntimeId) : Run trees binding →
      Run trees { binding with runtime := runtime, assignedRuntime := assigned }
  | stage {trees : List Generation} {binding : RuntimeBinding} (update : UiUpdate) :
      Run trees binding → Run trees { binding with store := (binding.store.stage update).1 }
  | publish {trees : List Generation} {binding : RuntimeBinding} {prepared : PreparedUpdate}
      {rest : List PreparedUpdate} : Run trees binding →
      binding.store.pendingUpdates = prepared :: rest →
      Run (trees ++ [prepared.generation]) binding.publishTurn.1
  | settle {trees : List Generation} {binding : RuntimeBinding} : Run trees binding →
      binding.store.pendingUpdates = [] → Run trees binding.publishTurn.1

/-- Each queued update was prepared on the one before it. -/
def Chained (current : Option Generation) : List PreparedUpdate → Prop
  | [] => True
  | prepared :: rest => prepared.Sound current ∧ Chained (some prepared.generation) rest

/-- The sink knows the active children of the published tree, as long as no tree had
two for one node. -/
structure InStep (trees : List Generation) (binding : RuntimeBinding) : Prop where
  chained : Chained binding.store.current binding.store.pendingUpdates
  valid : ∀ generation, binding.store.current = some generation → generation.Valid
  published : binding.store.current = trees.getLast?
  distinct : binding.tracker.Distinct
  follows : (∀ tree ∈ trees, Tidy tree) → Follows binding.tracker (activeOf binding.store.current)

section

variable {trees : List Generation} {binding : RuntimeBinding} {prepared : PreparedUpdate}
  {rest : List PreparedUpdate} {events : List TreeEvent}

theorem Chained.concat {current : Option Generation} {queue : List PreparedUpdate}
    (chained : Chained current queue) (sound : prepared.Sound (match queue.getLast? with
      | none => current
      | some newest => some newest.generation)) : Chained current (queue ++ [prepared]) := by
  induction queue generalizing current with
  | nil => exact ⟨sound, trivial⟩
  | cons first rest ih =>
    refine ⟨chained.1, ih chained.2 ?_⟩
    cases rest with
    | nil | cons second more => exact sound

theorem InStep.stage (inStep : InStep trees binding) (update : UiUpdate) :
    InStep trees { binding with store := (binding.store.stage update).1 } := by
  rcases TreeStore.stage_cases binding.store update with
    ⟨_, _, _, refused⟩ | ⟨prepared, full, sound, queued⟩
  · rw [refused]
    exact ⟨inStep.chained, inStep.valid, inStep.published, inStep.distinct, inStep.follows⟩
  · rw [queued]
    exact ⟨inStep.chained.concat sound, inStep.valid, inStep.published, inStep.distinct,
      inStep.follows⟩

/-- The binding once its store has taken an update off the queue. -/
def taken (binding : RuntimeBinding) : RuntimeBinding :=
  { binding with store := binding.store.drainStep.1 }

variable (queued : binding.store.pendingUpdates = prepared :: rest)

include queued

theorem drainStep_of_queued :
    binding.store.drainStep =
      ({ binding.store with
          pendingUpdates := rest
          previous := binding.store.current
          current := some prepared.generation }, some prepared.applied.events) := by
  unfold TreeStore.drainStep
  rw [queued]

theorem publishTurn_of_queued :
    binding.publishTurn =
      ((binding.taken.publishAll prepared.applied.events).1,
        some (binding.taken.publishAll prepared.applied.events).2) := by
  unfold publishTurn taken
  rw [drainStep_of_queued queued]

omit queued

/-- A batch with an event is recognised before the event is handled. -/
theorem publishAll_noteBatch (some : events ≠ []) :
    binding.noteBatch.publishAll events = binding.publishAll events := by
  cases events with
  | nil => exact absurd rfl some
  | cons event rest =>
    unfold RuntimeBinding.publishAll
    rw [publishTreeEvent_noteBatch]

theorem noteBatch_store (binding : RuntimeBinding) : binding.noteBatch.store = binding.store := by
  unfold noteBatch
  dsimp only
  split <;> rfl

theorem noteBatch_currentActive (binding : RuntimeBinding) :
    binding.noteBatch.currentActive = binding.currentActive := by
  unfold noteBatch
  dsimp only
  split <;> rfl

theorem noteBatch_distinct (distinct : binding.tracker.Distinct) :
    binding.noteBatch.tracker.Distinct := by
  unfold noteBatch
  dsimp only
  split
  · exact ⟨nodup_nil, distinct.current⟩
  · exact distinct

theorem translates_publishAll (some : events ≠ []) :
    Translates binding.noteBatch events (events.filterMap changeOf)
      (binding.publishAll events) := by
  rw [← publishAll_noteBatch some]
  exact (noted_noteBatch binding).publishAll events

theorem store_publishAll (binding : RuntimeBinding) (events : List TreeEvent) :
    (binding.publishAll events).1.store = binding.store := by
  by_cases none : events = []
  · rw [none]
    rfl
  · rw [(translates_publishAll none).same.store, noteBatch_store]

theorem Follows.noteBatch {active : UInt64 → Option UInt64}
    (follows : Follows binding.tracker active) : Follows binding.noteBatch.tracker active := by
  constructor
  case distinct => exact noteBatch_distinct follows.distinct
  case current =>
    intro parent
    change Assoc.find binding.noteBatch.currentActive parent = _
    rw [noteBatch_currentActive]
    exact follows.current parent

theorem InStep.exactBatch (inStep : InStep trees binding)
    (queued : binding.store.pendingUpdates = prepared :: rest) :
    prepared.Sound binding.store.current ∧
      TreeStore.ExactBatch binding.store.current prepared.generation prepared.applied.events := by
  have chained := inStep.chained
  rw [queued] at chained
  exact ⟨chained.1, TreeStore.exactBatch_of_sound inStep.valid chained.1⟩

theorem InStep.tidy (inStep : InStep trees binding) (tidy : ∀ tree ∈ trees, Tidy tree) :
    ∀ generation, binding.store.current = some generation → Tidy generation := by
  intro generation isCurrent
  apply tidy
  rw [inStep.published] at isCurrent
  exact mem_of_getLast? isCurrent

theorem InStep.publish (inStep : InStep trees binding)
    (queued : binding.store.pendingUpdates = prepared :: rest) :
    InStep (trees ++ [prepared.generation]) binding.publishTurn.1 := by
  rcases inStep.exactBatch queued with ⟨sound, exact⟩
  have storeEq : binding.publishTurn.1.store =
      { binding.store with
        pendingUpdates := rest
        previous := binding.store.current
        current := some prepared.generation } := by
    rw [publishTurn_of_queued queued]
    rw [store_publishAll, taken, drainStep_of_queued queued]
  have chained := inStep.chained
  rw [queued] at chained
  constructor
  case chained =>
    rw [storeEq]
    exact chained.2
  case valid =>
    rw [storeEq]
    intro generation isCurrent
    rw [← some.inj isCurrent]
    exact sound.valid
  case published =>
    rw [storeEq]
    simp
  case distinct =>
    rw [publishTurn_of_queued queued]
    by_cases none : prepared.applied.events = []
    · rw [none]
      exact inStep.distinct
    · rw [(translates_publishAll none).tracker]
      apply Tracker.Distinct.run
      exact @noteBatch_distinct binding.taken inStep.distinct
  case follows =>
    intro tidy
    have earlier : ∀ tree ∈ trees, Tidy tree :=
      fun tree member => tidy tree (mem_append_left _ member)
    have newTidy : Tidy prepared.generation := tidy _ (by simp)
    have follows : Follows binding.taken.tracker (activeOf binding.store.current) :=
      inStep.follows earlier
    rw [storeEq, publishTurn_of_queued queued]
    by_cases none : prepared.applied.events = []
    · have still := (follows.batch exact sound.valid (inStep.tidy earlier) newTidy).1
      rw [none] at still ⊢
      exact still
    · rw [(translates_publishAll none).tracker]
      exact (follows.noteBatch.batch exact sound.valid (inStep.tidy earlier) newTidy).1

theorem Run.inStep (run : Run trees binding) : InStep trees binding := by
  induction run with
  | new =>
    constructor
    case chained => trivial
    case valid => simp
    case published => rfl
    case distinct => exact ⟨nodup_nil, nodup_nil⟩
    case follows => exact fun _ => ⟨⟨nodup_nil, nodup_nil⟩, fun _ => rfl⟩
  | attach runtime assigned _ ih =>
    exact ⟨ih.chained, ih.valid, ih.published, ih.distinct, ih.follows⟩
  | stage update _ ih => exact ih.stage update
  | publish _ queued ih => exact ih.publish queued
  | @settle trees binding _ empty ih =>
    have turn : binding.publishTurn.1 =
        { binding with
          store := { binding.store with pendingUpdates := [], publishing := false } } := by
      unfold publishTurn TreeStore.drainStep
      rw [empty]
    rw [turn]
    exact ⟨trivial, ih.valid, ih.published, ih.distinct, ih.follows⟩

/-! ## What is published -/

/-- The revision the sink takes for the one before a batch: that of the last batch with
events, or, when the new batch has the same number, the one before that. -/
def revisionBefore (binding : RuntimeBinding) (revision : UInt64) : UInt64 :=
  if revision ≠ binding.sinkBatchRevision then binding.sinkBatchRevision
  else binding.sinkPreviousRevision

/-- Every event of the batch carries the revision of the replaced tree, zero if there
was none, and that of the new tree. -/
def CarriesRevisions (before : Option Generation) (after : Generation)
    (published : List GraphEvent) : Prop :=
  ∀ event ∈ published, event.beforeRevision = revisionOf before ∧
    event.afterRevision = after.snapshot.metadata.revision

/-- What is to be reported of a parent: its new active child, if that is another one,
and the one before, zero if there was none. -/
def activeReport (before after : Option NodeId) : List (UInt64 × UInt64) :=
  match after with
  | none => []
  | some child =>
    if before = some child then [] else [(child.value, (before.map NodeId.value).getD 0)]

theorem map_turn (parent : UInt64) (before after : Option NodeId) :
    (Tracker.turn parent (before.map NodeId.value) (after.map NodeId.value)).map reportOf =
      activeReport before after := by
  cases after with
  | none => rfl
  | some child =>
    have sameIff : before.map NodeId.value = some child.value ↔ before = some child := by
      cases before with
      | none => simp
      | some old =>
        cases old
        cases child
        simp
    simp only [map_some, Tracker.turn, activeReport, sameIff]
    split <;> rfl

theorem sinkPreviousRevision_noteBatch (binding : RuntimeBinding) :
    binding.noteBatch.sinkPreviousRevision =
      binding.revisionBefore (revisionOf binding.store.current) := by
  unfold noteBatch revisionBefore
  dsimp only
  split <;> rfl

theorem revisionOf_taken (queued : binding.store.pendingUpdates = prepared :: rest) :
    revisionOf binding.taken.store.current = prepared.generation.snapshot.metadata.revision := by
  rw [taken, drainStep_of_queued queued]
  rfl

theorem InStep.carriesRevisions (inStep : InStep trees binding)
    (queued : binding.store.pendingUpdates = prepared :: rest) :
    CarriesRevisions binding.store.current prepared.generation
        (binding.taken.publishAll prepared.applied.events).2 ↔
      (TakesAway binding.store.current prepared.generation →
        revisionOf binding.store.current = prepared.generation.snapshot.metadata.revision) ∧
      (Changes binding.store.current prepared.generation →
        binding.revisionBefore prepared.generation.snapshot.metadata.revision =
          revisionOf binding.store.current) := by
  rcases inStep.exactBatch queued with ⟨sound, exact⟩
  rw [sound.events] at exact ⊢
  rw [← exists_removal_iff exact, ← exists_event_iff exact]
  have stamped := @stampedBy_derive prepared.generation binding.store.current
  generalize deriveReplacementEvents binding.store.current prepared.generation = events at stamped
  by_cases none : events = []
  · subst none
    simp [CarriesRevisions, publishAll]
  have translates := @translates_publishAll binding.taken events none
  have beforeEq : binding.taken.noteBatch.sinkPreviousRevision =
      binding.revisionBefore prepared.generation.snapshot.metadata.revision := by
    rw [sinkPreviousRevision_noteBatch, revisionOf_taken queued]
    rfl
  rcases exists_mem_of_ne_nil events none with ⟨one, isOne⟩
  have publishedOf : ∀ event ∈ events, ∃ published ∈ (binding.taken.publishAll events).2,
      published.afterRevision = event.revision :=
    fun event member => (translates.after event.revision).mpr ⟨event, member, rfl⟩
  constructor
  · intro carries
    constructor
    · rintro ⟨event, member, removal⟩
      rcases publishedOf event member with ⟨published, isPublished, revisionEq⟩
      rw [← (stamped event member).1 removal, ← revisionEq]
      exact (carries published isPublished).2
    intro _
    rcases publishedOf one isOne with ⟨published, isPublished, _⟩
    rw [← beforeEq, ← translates.before published isPublished]
    exact (carries published isPublished).1
  · rintro ⟨sameNumber, known⟩ published isPublished
    constructor
    · rw [translates.before published isPublished, beforeEq]
      exact known ⟨one, isOne⟩
    rcases (translates.after published.afterRevision).mp ⟨published, isPublished, rfl⟩ with
      ⟨event, member, revisionEq⟩
    rw [← revisionEq]
    by_cases removal : IsRemoval event
    · rw [(stamped event member).1 removal]
      exact sameNumber ⟨event, member, removal⟩
    · exact (stamped event member).2 removal

theorem InStep.activeReports (inStep : InStep trees binding)
    (queued : binding.store.pendingUpdates = prepared :: rest)
    (tidy : ∀ tree ∈ trees, Tidy tree) (newTidy : Tidy prepared.generation)
    {base : Generation} (isBase : binding.store.current = some base)
    (scope : sameScope base.snapshot.metadata prepared.generation.snapshot.metadata = true)
    (recognised : prepared.generation.snapshot.metadata.revision ≠ binding.sinkBatchRevision)
    (parent : NodeId) :
    RuntimeBinding.activeReports (binding.taken.publishAll prepared.applied.events).2 parent.value =
      activeReport (activeChild base parent) (activeChild prepared.generation parent) := by
  rcases inStep.exactBatch queued with ⟨sound, exact⟩
  have follows : Follows binding.taken.tracker (activeOf binding.store.current) :=
    inStep.follows tidy
  have cleared : binding.taken.noteBatch.tracker.pending = [] := by
    unfold RuntimeBinding.noteBatch
    rw [revisionOf_taken queued]
    dsimp only
    split
    · rfl
    · next same => exact absurd recognised same
  have reported := (follows.noteBatch.batch exact sound.valid (inStep.tidy tidy) newTidy).2 base
    isBase scope cleared parent.value
  have reportEq : (Tracker.turn parent.value (activeOf binding.store.current parent.value)
      (activeOf (some prepared.generation) parent.value)).map reportOf =
      activeReport (activeChild base parent) (activeChild prepared.generation parent) := by
    rw [isBase]
    exact map_turn parent.value (activeChild base parent) (activeChild prepared.generation parent)
  rw [← reportEq, ← reported]
  by_cases none : prepared.applied.events = []
  · rw [none]
    rfl
  · exact (translates_publishAll none).reports parent.value

end

/-! ## An active child that moves -/

/-- A window with two children, one of them active. -/
def windowTree (revision : UInt64) (active : UInt64) : UiSnapshot where
  metadata := ⟨⟨1⟩, 1, ⟨1⟩, revision, true⟩
  nodes := [TreeStore.plainNode 1, TreeStore.plainNode 2, TreeStore.plainNode 3]
  roots := [⟨1⟩]
  relations := [⟨⟨1⟩, ⟨2⟩, Relation.contains⟩, ⟨⟨1⟩, ⟨3⟩, Relation.contains⟩,
    ⟨⟨1⟩, ⟨active⟩, Relation.activeChild⟩]

theorem tidy_windowTree {generation : Generation} {revision active : UInt64}
    (isTree : generation.snapshot = windowTree revision active) : Tidy generation := by
  have only : ∀ relation ∈ generation.snapshot.relations,
      relation.relation = Relation.activeChild → relation.target = ⟨active⟩ := by
    rw [isTree]
    simp [windowTree, Relation.activeChild, Relation.contains]
  intro first isFirst second isSecond firstActive secondActive _
  rw [only first isFirst firstActive, only second isSecond secondActive]

/-- The binding when its first tree is queued. -/
def windowQueued : RuntimeBinding :=
  { store := (({} : TreeStore).stage ⟨1, .snapshot (windowTree 1 2)⟩).1 }

/-- The first tree is published and the one with the other child active is queued. -/
def windowMoved : RuntimeBinding :=
  let shown := windowQueued.publishTurn.1
  { shown with store := (shown.store.stage ⟨2, .snapshot (windowTree 2 3)⟩).1 }

theorem queued_of_snapshots {binding : RuntimeBinding} {snapshot : UiSnapshot}
    (queue : (binding.store.pendingUpdates.map fun update => update.generation.snapshot) =
      [snapshot]) :
    ∃ prepared, binding.store.pendingUpdates = [prepared] ∧
      prepared.generation.snapshot = snapshot := by
  rcases map_eq_singleton_iff.mp queue with ⟨prepared, isQueue, isSnapshot⟩
  exact ⟨prepared, isQueue, isSnapshot⟩

theorem queue_windowQueued :
    (windowQueued.store.pendingUpdates.map fun update => update.generation.snapshot) =
      [windowTree 1 2] := by
  decide +kernel

theorem queue_windowMoved :
    (windowMoved.store.pendingUpdates.map fun update => update.generation.snapshot) =
      [windowTree 2 3] := by
  decide +kernel

theorem current_windowMoved :
    windowMoved.store.current.map Generation.snapshot = some (windowTree 1 2) := by
  decide +kernel

end RuntimeBinding

namespace SessionCore

open RuntimeBinding

/-! ## A node that goes -/

/-- A tree of some nodes, as a runtime sends it. -/
def nodesTree (revision : UInt64) (nodes : List UInt64) : UiSnapshot :=
  ⟨⟨⟨1⟩, 1, ⟨1⟩, revision, true⟩, nodes.map TreeStore.plainNode, nodes.map NodeId.mk, []⟩

/-- Two nodes are there, and one goes with the update to revision two. -/
def shrinking : List Action :=
  [.attach 0 (some ⟨{}, .ok (nodesTree 1 [1, 2])⟩) none,
    .pump fun _ => { updates := [⟨1, .snapshot (nodesTree 2 [1])⟩] }]

end SessionCore

/-! ## Every binding of a session -/

section

open RuntimeBinding SessionCore

/-- The end of a run that has published all that its store accepted. -/
structure Settled (binding : RuntimeBinding) : Prop where
  run : ∃ trees, Run trees binding ∧ InStep trees binding
  published : binding.store.pendingUpdates = []
  idle : binding.store.publishing = false

variable {binding : RuntimeBinding}

theorem settled_new : Settled {} := ⟨⟨[], .new, Run.new.inStep⟩, rfl, rfl⟩

theorem settled_drainPublications {trees : List Generation} (run : Run trees binding) {turns : Nat}
    (enough : binding.store.pendingUpdates.length < turns) :
    Settled (binding.drainPublications turns).1 := by
  induction turns generalizing trees binding with
  | zero => exact absurd enough (Nat.not_lt_zero _)
  | succ turns ih =>
    rw [drainPublications]
    cases queued : binding.store.pendingUpdates with
    | nil =>
      have ended := run.settle queued
      unfold publishTurn TreeStore.drainStep at ended ⊢
      rw [queued] at ended ⊢
      exact ⟨⟨_, ended, ended.inStep⟩, rfl, rfl⟩
    | cons prepared rest =>
      have later := run.publish queued
      rw [publishTurn_of_queued queued] at later ⊢
      apply ih later
      rw [store_publishAll, taken, drainStep_of_queued queued]
      rw [queued] at enough
      exact Nat.lt_of_succ_lt_succ enough

variable (settled : Settled binding)

include settled

theorem Settled.attach (runtime : Option Nat) (assigned : RuntimeId) :
    Settled { binding with runtime := runtime, assignedRuntime := assigned } := by
  rcases settled with ⟨⟨trees, run, _⟩, published, idle⟩
  have attached := run.attach runtime assigned
  exact ⟨⟨trees, attached, attached.inStep⟩, published, idle⟩

theorem Settled.apply (update : UiUpdate) : Settled (binding.apply update).1 := by
  rcases settled with ⟨⟨trees, run, _⟩, published, idle⟩
  have staged := run.stage update
  unfold RuntimeBinding.apply
  rcases TreeStore.stage_cases binding.store update with
    ⟨_, _, _, refused⟩ | ⟨prepared, full, _, queued⟩
  · rw [refused] at staged ⊢
    exact ⟨⟨trees, staged, staged.inStep⟩, published, idle⟩
  · rw [queued] at staged ⊢
    dsimp only
    rw [if_neg (by rw [idle]; exact Bool.false_ne_true)]
    exact settled_drainPublications staged (Nat.lt_succ_self _)

theorem Settled.drainSource (failure : Option Error) (applied : Nat) (updates : List UiUpdate) :
    Settled (drainSource binding failure applied updates).1 := by
  induction updates generalizing binding applied with
  | nil => cases failure <;> exact settled
  | cons update rest ih =>
    have next := settled.apply update
    rw [Lifecycle.drainSource]
    split <;> rename_i answer <;> rw [answer] at next
    · exact next
    · exact ih next _

theorem Settled.prime (source : TreeSource) : Settled (prime binding source).1 := by
  have drained := settled.drainSource source.drained.failure 0 source.drained.updates
  unfold SessionCore.prime
  split <;> rename_i answer <;> rw [answer] at drained
  · exact drained
  · exact drained
  split
  · exact drained
  next snapshot _ =>
  have next := drained.apply ⟨0, .snapshot snapshot⟩
  split <;> rename_i answer <;> rwa [answer] at next

omit settled

def AllSettled (bindings : List RuntimeBinding) : Prop := ∀ binding ∈ bindings, Settled binding

variable {session : SessionCore} (all : AllSettled session.bindings)

include all

/-- A loop over the bindings. -/
theorem AllSettled.each
    {step : RuntimeBinding → RuntimeBinding × List GraphEvent × Except Error Unit}
    (keeps : ∀ binding, Settled binding → Settled (step binding).1) (published : List GraphEvent) :
    AllSettled (session.withBindings (eachBinding step session.bindings).1 published).bindings := by
  have each : ∀ bindings, AllSettled bindings → AllSettled (eachBinding step bindings).1 := by
    intro bindings settled
    induction bindings with
    | nil => exact settled
    | cons binding rest ih =>
      have ⟨first, others⟩ := forall_mem_cons.mp settled
      have stepped := keeps binding first
      rw [eachBinding]
      split <;> rename_i answer <;> rw [answer] at stepped
      · exact forall_mem_cons.mpr ⟨stepped, others⟩
      · exact forall_mem_cons.mpr ⟨stepped, ih others⟩
  have renewed := each _ all
  unfold withBindings
  split <;> rename_i same
  · exact all
  · rwa [same] at renewed

theorem AllSettled.attach (runtime : Nat) (source : Option TreeSource)
    (assigned : Option RuntimeId) :
    AllSettled (session.attach runtime source assigned).1.bindings := by
  have ⟨front, others⟩ := forall_mem_cons.mp all
  have begun : Settled (if session.front.runtime.isSome then {} else session.front) := by
    split
    · exact settled_new
    · exact front
  unfold SessionCore.attach
  split
  · exact all
  split
  · exact all
  next source =>
  dsimp only
  generalize (if session.front.runtime.isSome then {} else session.front) = binding at begun ⊢
  have primed := (begun.attach binding.runtime (assigned.getD ⟨session.nextRuntimeId⟩)).prime source
  split <;> split
  · exact all
  · exact forall_mem_cons.mpr ⟨primed, others⟩
  · exact forall_mem_append.mpr ⟨all, forall_mem_singleton.mpr (primed.attach _ _)⟩
  · exact forall_mem_cons.mpr ⟨primed.attach _ _, others⟩

theorem AllSettled.act (action : SessionCore.Action) :
    AllSettled (session.act action).bindings := by
  cases action with
  | attach runtime source assigned => exact all.attach runtime source assigned
  | pump drains =>
    apply all.each
    intro binding binds
    unfold pumpBinding
    split
    · exact binds
    · exact binds.drainSource _ _ _
  | resync checked snapshots =>
    have renewed := @AllSettled.each session all (resyncBinding snapshots) (by
      intro binding binds
      unfold resyncBinding
      split
      · exact binds
      split
      · exact binds
      next snapshot _ =>
      have next := binds.apply ⟨0, .snapshot snapshot⟩
      split <;> rename_i answer <;> rwa [answer] at next)
    unfold SessionCore.act resync
    dsimp only
    split
    · exact all
    split
    · exact renewed _
    split <;> exact renewed _

end

end Grab.Kernel.Lifecycle
