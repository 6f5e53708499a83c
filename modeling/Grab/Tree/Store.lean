import Grab.Tree.Exact
import Grab.Tree.Validation

/-!
# The tree store

A store stages each update against the newest generation it has accepted, queues
it, and publishes the queue one update at a time.  What one holder of the mutex
does is one function here: `stage` is the locked part of `apply`, `drainStep` one
turn of the loop that publishes.
-/

namespace Grab.Kernel

open Std Grab.Graph Grab.Lib Grab.Spi List

structure AppliedDelta where
  previousRevision : UInt64
  revision : UInt64
  events : List TreeEvent
  deriving DecidableEq

structure PreparedUpdate where
  generation : Generation
  applied : AppliedDelta
  sourceSequence : UInt64

/-! ## Patching by a delta -/

/-- Append one node that the tree does not have.  The state is the ids added so
far and the nodes. -/
def addDeltaNode (metadata : UiSnapshotMetadata) (state : List NodeId × List UiNodeRecord)
    (added : UiNodeRecord) : Except Rejection (List NodeId × List UiNodeRecord) :=
  if added.id ∈ state.1 ∨ (state.2.any fun existing => existing.id == added.id) = true then
    rejected .invalidArgument "delta adds duplicate node id" metadata
  else
    .ok (state.1 ++ [added.id], state.2 ++ [added])

/-- Overwrite the first node with the id of the changed one. -/
def changeDeltaNode (metadata : UiSnapshotMetadata) (state : List NodeId × List UiNodeRecord)
    (changed : UiNodeRecord) : Except Rejection (List NodeId × List UiNodeRecord) :=
  if changed.id ∈ state.1 then
    rejected .invalidArgument "delta changes duplicate node id" metadata
  else
    match state.2.findIdx? fun record => record.id == changed.id with
    | none => rejected .noMatch "delta changes unknown node" metadata
    | some existing => .ok (state.1 ++ [changed.id], state.2.set existing changed)

/-- Erase a node together with the relations that touch it. -/
def removeDeltaNode (metadata : UiSnapshotMetadata)
    (state : List NodeId × List UiNodeRecord × List UiRelation) (removed : NodeId) :
    Except Rejection (List NodeId × List UiNodeRecord × List UiRelation) :=
  let kept := state.2.1.filter fun record => record.id != removed
  if removed ∈ state.1 then
    rejected .invalidArgument "delta removes duplicate node id" metadata
  else if kept.length = state.2.1.length then
    rejected .noMatch "delta removes unknown node" metadata
  else
    .ok (state.1 ++ [removed], kept,
      state.2.2.filter fun relation => !(relation.source == removed || relation.target == removed))

def changeDeltaRelation (metadata : UiSnapshotMetadata) (relations : List UiRelation)
    (change : RelationChange) : Except Rejection (List UiRelation) :=
  match change.kind with
  | .add =>
    if change.change ∈ relations then
      rejected .invalidArgument "delta adds duplicate relation" metadata
    else
      .ok (relations ++ [change.change])
  | .remove =>
    if change.change ∉ relations then
      rejected .noMatch "delta removes unknown relation" metadata
    else
      .ok (relations.erase change.change)

def snapshotFromDelta (current : Generation) (delta : UiDelta) : Except Rejection UiSnapshot := do
  let metadata := delta.metadata
  let grown ← delta.addedNodes.foldlM (addDeltaNode metadata) ([], current.snapshot.nodes)
  let changed ← delta.changedNodes.foldlM (changeDeltaNode metadata) ([], grown.2)
  let kept ← delta.removedNodes.foldlM (removeDeltaNode metadata)
    ([], changed.2, current.snapshot.relations)
  let relations ← delta.relationChanges.foldlM (changeDeltaRelation metadata) kept.2.2
  normalizedSnapshot metadata kept.2.1 [] relations

/-! ## Preparing an update -/

def revisionOf (generation : Option Generation) : UInt64 :=
  match generation with
  | none => 0
  | some generation => generation.snapshot.metadata.revision

/-- Is a snapshot of the current scope no newer than the current generation? -/
def isStale (current : Option Generation) (incoming : UiSnapshotMetadata) : Bool :=
  match current with
  | none => false
  | some current =>
    sameScope current.snapshot.metadata incoming &&
      decide (incoming.revision ≤ current.snapshot.metadata.revision)

def prepareSnapshot (current : Option Generation) (incoming : UiSnapshot)
    (sourceSequence : UInt64) : Except Rejection PreparedUpdate :=
  let metadata := incoming.metadata
  if isStale current metadata then
    rejected .resyncRequired "snapshot revision did not advance" metadata
  else do
    let normalized ← normalizedSnapshot metadata incoming.nodes incoming.roots
      incoming.relations
    let generation ← buildGeneration normalized
    return ⟨generation, ⟨revisionOf current, metadata.revision,
      deriveReplacementEvents current generation⟩, sourceSequence⟩

def prepareDelta (current : Option Generation) (delta : UiDelta) (sourceSequence : UInt64) :
    Except Rejection PreparedUpdate :=
  let metadata := delta.metadata
  match current with
  | none => rejected .resyncRequired "delta received before an initial snapshot" metadata
  | some current =>
    let base := current.snapshot.metadata
    if metadata.runtime ≠ base.runtime then
      rejected .runtimeRestarted "delta runtime identity changed" metadata
    else if metadata.tree ≠ base.tree then
      rejected .resyncRequired "delta tree identity changed" metadata
    else if metadata.epoch ≠ base.epoch then
      rejected .treeResynced "delta tree epoch changed" metadata
    else if delta.baseRevision ≠ base.revision ∨ metadata.revision ≤ delta.baseRevision then
      rejected .resyncRequired "delta base revision is out of order" metadata
    else do
      let candidate ← snapshotFromDelta current delta
      let generation ← buildGeneration candidate
      return ⟨generation, ⟨base.revision, metadata.revision,
        deriveSameScopeEvents current generation⟩, sourceSequence⟩

/-! ## The store -/

/-- What the mutex of a store guards. -/
structure TreeStore where
  current : Option Generation := none
  previous : Option Generation := none
  retiredRuntimes : Finset RuntimeId := ∅
  pendingUpdates : List PreparedUpdate := []
  lastSourceSequence : UInt64 := 0
  requiresResnapshot : Bool := false
  publishing : Bool := false

namespace TreeStore

/-- The newest accepted generation, published or not. -/
def stagedGeneration (store : TreeStore) : Option Generation :=
  match store.pendingUpdates.getLast? with
  | none => store.current
  | some newest => some newest.generation

def metadataOf (update : UiUpdate) (currentRevision : UInt64) : UiSnapshotMetadata :=
  match update.payload with
  | .snapshot snapshot => snapshot.metadata
  | .delta delta => delta.metadata
  | .gap gap => ⟨gap.runtime, gap.tree, gap.epoch, currentRevision, false⟩

/-- Does the update come from the runtime of a generation? -/
def ofRuntime (generation : Option Generation) (runtime : RuntimeId) : Bool :=
  match generation with
  | none => false
  | some generation => runtime == generation.snapshot.metadata.runtime

/-- A gap is always rejected; a gap of the staged scope makes the store wait for a
complete snapshot. -/
def noteGap (store : TreeStore) (gap : TreeGap) (sourceSequence : UInt64)
    (metadata : UiSnapshotMetadata) : TreeStore × Except Rejection AppliedDelta :=
  let waiting : TreeStore × Except Rejection AppliedDelta :=
    ({ store with
        requiresResnapshot := true
        lastSourceSequence :=
          if sourceSequence ≠ 0 then sourceSequence else store.lastSourceSequence },
      rejected .queueGap
        ("tree update queue dropped " ++ toString gap.dropped ++ " updates") metadata)
  match store.stagedGeneration with
  | none => waiting
  | some staged =>
    if gap.runtime ≠ staged.snapshot.metadata.runtime then
      (store, rejected .runtimeRestarted "gap runtime identity changed" metadata)
    else if gap.tree ≠ staged.snapshot.metadata.tree then
      (store, rejected .resyncRequired "gap tree identity changed" metadata)
    else if gap.epoch ≠ staged.snapshot.metadata.epoch then
      (store, rejected .treeResynced "gap tree epoch changed" metadata)
    else waiting

/-- Queue a prepared update; the runtime it replaces is retired. -/
def enqueue (store : TreeStore) (prepared : PreparedUpdate) (full : Bool) : TreeStore :=
  let runtimeChanged : Bool :=
    match store.stagedGeneration with
    | none => false
    | some staged =>
      staged.snapshot.metadata.runtime != prepared.generation.snapshot.metadata.runtime
  { store with
    retiredRuntimes :=
      match store.stagedGeneration with
      | none => store.retiredRuntimes
      | some staged =>
        if runtimeChanged then insert staged.snapshot.metadata.runtime store.retiredRuntimes
        else store.retiredRuntimes
    pendingUpdates := store.pendingUpdates ++ [prepared]
    lastSourceSequence :=
      if prepared.sourceSequence ≠ 0 ∨ runtimeChanged = true then prepared.sourceSequence
      else store.lastSourceSequence
    requiresResnapshot := if full then false else store.requiresResnapshot
    publishing := true }

def settle (store : TreeStore) (prepared : Except Rejection PreparedUpdate) (full : Bool) :
    TreeStore × Except Rejection AppliedDelta :=
  match prepared with
  | .error refusal => (store, .error refusal)
  | .ok prepared => (store.enqueue prepared full, .ok prepared.applied)

/-- The locked part of `apply`.  The caller goes on to publish when `publishing`
was clear. -/
def stage (store : TreeStore) (update : UiUpdate) : TreeStore × Except Rejection AppliedDelta :=
  let staged := store.stagedGeneration
  let metadata := metadataOf update (revisionOf staged)
  let sequence := update.sourceSequence
  if metadata.runtime ∈ store.retiredRuntimes then
    (store, rejected .runtimeRestarted "runtime generation has been retired" metadata)
  else if ofRuntime staged metadata.runtime = true ∧ sequence ≠ 0 ∧
      sequence ≤ store.lastSourceSequence then
    (store, rejected .resyncRequired "source sequence did not advance" metadata)
  else
    match update.payload with
    | .gap gap => store.noteGap gap sequence metadata
    | .snapshot snapshot =>
      if store.requiresResnapshot ∧ ¬snapshot.metadata.complete then
        (store, rejected .resyncRequired
          "full snapshot required after tree update queue gap" metadata)
      else
        store.settle (prepareSnapshot staged snapshot sequence) snapshot.metadata.complete
    | .delta delta =>
      if store.requiresResnapshot then
        (store, rejected .resyncRequired
          "full snapshot required after tree update queue gap" metadata)
      else
        store.settle (prepareDelta staged delta sequence) false

/-- One turn of `drain_publications` under the lock: the next update is published
and its events are handed out, or the drainer is done. -/
def drainStep (store : TreeStore) : TreeStore × Option (List TreeEvent) :=
  match store.pendingUpdates with
  | [] => ({ store with publishing := false }, none)
  | prepared :: rest =>
    ({ store with
        pendingUpdates := rest
        previous := store.current
        current := some prepared.generation },
      some prepared.applied.events)

/-- The stores that turns of the mutex can produce.  A drainer is at work only
while `publishing` is set. -/
inductive Reachable : TreeStore → Prop
  | start : Reachable {}
  | stage {store : TreeStore} (update : UiUpdate) :
      Reachable store → Reachable (store.stage update).1
  | drainStep {store : TreeStore} :
      Reachable store → store.publishing = true → Reachable store.drainStep.1

end TreeStore

/-! ## What preparing establishes -/

/-- A prepared update holds a generation of accepted records and the events that
lead to it from the staged one. -/
structure PreparedUpdate.Sound (staged : Option Generation) (prepared : PreparedUpdate) :
    Prop where
  valid : prepared.generation.Valid
  events : prepared.applied.events = deriveReplacementEvents staged prepared.generation

section

variable {metadata : UiSnapshotMetadata} {nodes : List UiNodeRecord}
  {relations : List UiRelation} {roots : List NodeId} {normalized : UiSnapshot}
  {generation : Generation} {sequence : UInt64} {prepared : PreparedUpdate}
  {current : Option Generation} {staged : Option Generation} {delta : UiDelta}

theorem valid_of_built
    (isNormalized : normalizedSnapshot metadata nodes roots relations = .ok normalized)
    (built : buildGeneration normalized = .ok generation) :
    generation.Valid ∧ generation.snapshot.metadata = metadata := by
  rcases normalizedSnapshot_ok isNormalized with ⟨rootsOk, normalizedEq⟩
  have fine := wellFormed_of_ok rootsOk
  rcases buildGeneration_ok built with ⟨snapshotEq, indexed⟩
  rw [normalizedEq] at snapshotEq
  constructor
  · apply Generation.Valid.mk indexed
    · rw [snapshotEq]
      exact fine.nodesOnce
    · rw [snapshotEq]
      exact fine.relationsOnce
  · rw [snapshotEq]

theorem prepareSnapshot_sound {incoming : UiSnapshot}
    (isPrepared : prepareSnapshot current incoming sequence = .ok prepared) :
    prepared.Sound current := by
  unfold prepareSnapshot at isPrepared
  dsimp only at isPrepared
  split at isPrepared
  · cases isPrepared
  rcases bind_ok isPrepared with ⟨normalized, isNormalized, isPrepared⟩
  rcases bind_ok isPrepared with ⟨generation, built, made⟩
  rw [← Except.ok.inj made]
  exact ⟨(valid_of_built isNormalized built).1, rfl⟩

theorem normalized_of_snapshotFromDelta {current : Generation}
    (patched : snapshotFromDelta current delta = .ok normalized) :
    ∃ nodes relations, normalizedSnapshot delta.metadata nodes [] relations = .ok normalized := by
  unfold snapshotFromDelta at patched
  rcases bind_ok patched with ⟨_, _, patched⟩
  rcases bind_ok patched with ⟨_, _, patched⟩
  rcases bind_ok patched with ⟨_, _, patched⟩
  rcases bind_ok patched with ⟨_, _, patched⟩
  exact ⟨_, _, patched⟩

variable (isPrepared : prepareDelta current delta sequence = .ok prepared)

include isPrepared

/-- An accepted delta is of the scope of the staged generation, advances its
revision, and patches it. -/
theorem prepareDelta_ok :
    ∃ base candidate generation, current = some base ∧
      sameScope base.snapshot.metadata delta.metadata = true ∧
      ¬delta.metadata.revision ≤ base.snapshot.metadata.revision ∧
      snapshotFromDelta base delta = .ok candidate ∧
      buildGeneration candidate = .ok generation ∧
      prepared = ⟨generation, ⟨base.snapshot.metadata.revision, delta.metadata.revision,
        deriveSameScopeEvents base generation⟩, sequence⟩ := by
  cases current with
  | none => cases isPrepared
  | some base =>
    unfold prepareDelta at isPrepared
    dsimp only at isPrepared
    split at isPrepared
    · cases isPrepared
    rename_i runtimeEq
    split at isPrepared
    · cases isPrepared
    rename_i treeEq
    split at isPrepared
    · cases isPrepared
    rename_i epochEq
    split at isPrepared
    · cases isPrepared
    rename_i inOrder
    rcases not_or.mp inOrder with ⟨baseEq, advances⟩
    rcases bind_ok isPrepared with ⟨candidate, patched, isPrepared⟩
    rcases bind_ok isPrepared with ⟨generation, built, made⟩
    have scope : sameScope base.snapshot.metadata delta.metadata = true := by
      simp [sameScope, not_not.mp runtimeEq, not_not.mp treeEq, not_not.mp epochEq]
    rw [not_not.mp baseEq] at advances
    exact ⟨base, candidate, generation, rfl, scope, advances, patched, built,
      (Except.ok.inj made).symm⟩

theorem prepareDelta_sound : prepared.Sound current := by
  rcases prepareDelta_ok isPrepared with
    ⟨base, candidate, generation, rfl, scope, _, patched, built, rfl⟩
  rcases normalized_of_snapshotFromDelta patched with ⟨nodes, relations, isNormalized⟩
  rcases valid_of_built isNormalized built with ⟨valid, metadataEq⟩
  constructor
  case valid => exact valid
  case events =>
    simp only [deriveReplacementEvents, metadataEq, scope, if_true]

omit isPrepared

/-- One of the two kinds of update prepares this against the staged generation. -/
def Prepares (staged : Option Generation) (prepared : PreparedUpdate) : Prop :=
  (∃ incoming sequence, prepareSnapshot staged incoming sequence = .ok prepared) ∨
    ∃ delta sequence, prepareDelta staged delta sequence = .ok prepared

theorem Prepares.sound (prepares : Prepares staged prepared) : prepared.Sound staged := by
  rcases prepares with ⟨_, _, isPrepared⟩ | ⟨_, _, isPrepared⟩
  · exact prepareSnapshot_sound isPrepared
  · exact prepareDelta_sound isPrepared

/-- What is prepared was validated and then built. -/
theorem Prepares.built (prepares : Prepares staged prepared) :
    ∃ metadata nodes roots relations normalized,
      normalizedSnapshot metadata nodes roots relations = .ok normalized ∧
      buildGeneration normalized = .ok prepared.generation := by
  rcases prepares with ⟨incoming, sequence, isPrepared⟩ | ⟨delta, sequence, isPrepared⟩
  · unfold prepareSnapshot at isPrepared
    dsimp only at isPrepared
    split at isPrepared
    · cases isPrepared
    rcases bind_ok isPrepared with ⟨normalized, isNormalized, isPrepared⟩
    rcases bind_ok isPrepared with ⟨generation, built, made⟩
    rw [← Except.ok.inj made]
    exact ⟨_, _, _, _, normalized, isNormalized, built⟩
  · rcases prepareDelta_ok isPrepared with
      ⟨base, candidate, generation, rfl, _, _, patched, built, rfl⟩
    rcases normalized_of_snapshotFromDelta patched with ⟨nodes, relations, isNormalized⟩
    exact ⟨_, _, _, _, candidate, isNormalized, built⟩

end

namespace TreeStore

variable {store : TreeStore} {update : UiUpdate}

/-- A turn of `apply` refuses the update, and then at most the sequence and the
wait for a snapshot change, or queues what it prepared. -/
theorem stage_prepares (store : TreeStore) (update : UiUpdate) :
    (∃ refusal sequence waiting, store.stage update =
      ({ store with lastSourceSequence := sequence, requiresResnapshot := waiting },
        .error refusal)) ∨
    ∃ prepared full, Prepares store.stagedGeneration prepared ∧
      store.stage update = (store.enqueue prepared full, .ok prepared.applied) := by
  have unchanged : ∀ refusal : Rejection, ∃ refusal' sequence waiting,
      (store, (.error refusal : Except Rejection AppliedDelta)) =
        ({ store with lastSourceSequence := sequence, requiresResnapshot := waiting },
          .error refusal') :=
    fun refusal => ⟨refusal, store.lastSourceSequence, store.requiresResnapshot, rfl⟩
  have settled : ∀ attempt full,
      (∀ prepared, attempt = .ok prepared → Prepares store.stagedGeneration prepared) →
      (∃ refusal sequence waiting, store.settle attempt full =
        ({ store with lastSourceSequence := sequence, requiresResnapshot := waiting },
          .error refusal)) ∨
      ∃ prepared full', Prepares store.stagedGeneration prepared ∧
        store.settle attempt full = (store.enqueue prepared full', .ok prepared.applied) := by
    intro attempt full prepares
    cases attempt with
    | error refusal => exact .inl (unchanged refusal)
    | ok prepared => exact .inr ⟨prepared, full, prepares prepared rfl, rfl⟩
  unfold stage
  dsimp only
  split
  · exact .inl (unchanged _)
  split
  · exact .inl (unchanged _)
  split
  · left
    unfold noteGap
    dsimp only
    split
    · exact ⟨_, _, _, rfl⟩
    split
    · exact unchanged _
    split
    · exact unchanged _
    · split
      · exact unchanged _
      · exact ⟨_, _, _, rfl⟩
  · split
    · exact .inl (unchanged _)
    · exact settled _ _ fun _ isPrepared => .inl ⟨_, _, isPrepared⟩
  · split
    · exact .inl (unchanged _)
    · exact settled _ _ fun _ isPrepared => .inr ⟨_, _, isPrepared⟩

theorem stage_cases (store : TreeStore) (update : UiUpdate) :
    (∃ refusal sequence waiting, store.stage update =
      ({ store with lastSourceSequence := sequence, requiresResnapshot := waiting },
        .error refusal)) ∨
    ∃ prepared full, prepared.Sound store.stagedGeneration ∧
      store.stage update = (store.enqueue prepared full, .ok prepared.applied) := by
  rcases stage_prepares store update with refused | ⟨prepared, full, prepares, accepted⟩
  · exact .inl refused
  · exact .inr ⟨prepared, full, prepares.sound, accepted⟩

@[simp]
theorem stagedGeneration_enqueue (store : TreeStore) (prepared : PreparedUpdate) (full : Bool) :
    (store.enqueue prepared full).stagedGeneration = some prepared.generation := by
  simp [stagedGeneration, enqueue]

/-- A property of every generation a store holds. -/
structure Holds (property : Generation → Prop) (store : TreeStore) : Prop where
  current : ∀ generation, store.current = some generation → property generation
  previous : ∀ generation, store.previous = some generation → property generation
  pending : ∀ prepared ∈ store.pendingUpdates, property prepared.generation

section

variable {property : Generation → Prop}

theorem Holds.staged (holds : Holds property store) {generation : Generation}
    (isStaged : store.stagedGeneration = some generation) : property generation := by
  unfold stagedGeneration at isStaged
  cases newest : store.pendingUpdates.getLast? with
  | none =>
    rw [newest] at isStaged
    exact holds.current generation isStaged
  | some prepared =>
    rw [newest] at isStaged
    rw [← Option.some.inj isStaged]
    exact holds.pending prepared (mem_of_getLast? newest)

theorem Holds.stage (holds : Holds property store)
    (prepares : ∀ staged prepared, Prepares staged prepared → property prepared.generation)
    (update : UiUpdate) : Holds property (store.stage update).1 := by
  rcases stage_prepares store update with
    ⟨_, _, _, refused⟩ | ⟨prepared, full, isPrepared, accepted⟩
  · rw [refused]
    exact ⟨holds.current, holds.previous, holds.pending⟩
  rw [accepted]
  refine { holds with pending := ?pending }
  case pending =>
    intro other member
    rcases mem_append.mp member with queued | isNew
    · exact holds.pending other queued
    · rw [mem_singleton.mp isNew]
      exact prepares _ prepared isPrepared

theorem Holds.drainStep (holds : Holds property store) : Holds property store.drainStep.1 := by
  unfold TreeStore.drainStep
  split
  · exact ⟨holds.current, holds.previous, holds.pending⟩
  rename_i prepared rest queue
  have queued := holds.pending
  rw [queue] at queued
  constructor
  case current =>
    intro generation isCurrent
    rw [← Option.some.inj isCurrent]
    exact queued prepared mem_cons_self
  case previous => exact holds.current
  case pending => exact fun other member => queued other (mem_cons_of_mem _ member)

/-- What preparing establishes holds of every generation of a reachable store. -/
theorem Reachable.holds (reachable : store.Reachable)
    (prepares : ∀ staged prepared, Prepares staged prepared → property prepared.generation) :
    Holds property store := by
  induction reachable with
  | start => exact ⟨by simp, by simp, by simp⟩
  | stage update _ ih => exact ih.stage prepares update
  | drainStep _ _ ih => exact ih.drainStep

end

theorem Reachable.sound (reachable : store.Reachable) : Holds Generation.Valid store :=
  reachable.holds fun _ _ prepares => prepares.sound.valid

/-- The batch of an accepted update, against the generation it was staged on. -/
def ExactBatch (before : Option Generation) (after : Generation) (events : List TreeEvent) :
    Prop :=
  match before with
  | none => Edit.IsReplacement ∅ after.items (editsOf events)
  | some before =>
    if sameScope before.snapshot.metadata after.snapshot.metadata then
      Edit.IsDifference before.items after.items (editsOf events) ∧
        Edit.replay (editsOf events) before.items = after.items
    else
      Edit.IsReplacement before.items after.items (editsOf events)

theorem exactBatch_of_sound {before : Option Generation} {prepared : PreparedUpdate}
    (beforeValid : ∀ generation, before = some generation → generation.Valid)
    (sound : prepared.Sound before) :
    ExactBatch before prepared.generation prepared.applied.events := by
  rw [sound.events]
  cases before with
  | none => exact isReplacement_additions sound.valid
  | some before =>
    have valid := beforeValid before rfl
    simp only [ExactBatch, deriveReplacementEvents]
    split
    · have difference := isDifference_events valid sound.valid
      exact ⟨difference, difference.replay⟩
    · exact isReplacement_events valid sound.valid

theorem ExactBatch.replay {before : Option Generation} {after : Generation}
    {events : List TreeEvent} (exactBatch : ExactBatch before after events) :
    Edit.replay (editsOf events) (itemsOf before) = after.items := by
  cases before with
  | none => exact Edit.IsReplacement.replay exactBatch
  | some before =>
    unfold ExactBatch at exactBatch
    dsimp only at exactBatch
    split at exactBatch
    · exact exactBatch.2
    · exact exactBatch.replay

/-- Every accepted update is queued with a batch that is exact: within a scope the
batch reports each difference of nodes and relations once and replays the old set
to the new one, and across scopes it removes everything old and adds everything
new, each once. -/
theorem accepted_batch_exact {applied : AppliedDelta} (reachable : store.Reachable)
    (accepted : (store.stage update).2 = .ok applied) :
    ∃ prepared, prepared.applied = applied ∧
      (store.stage update).1.pendingUpdates = store.pendingUpdates ++ [prepared] ∧
      (store.stage update).1.stagedGeneration = some prepared.generation ∧
      ExactBatch store.stagedGeneration prepared.generation applied.events := by
  rcases stage_cases store update with ⟨_, _, _, refused⟩ | ⟨prepared, full, sound, queued⟩
  · rw [refused] at accepted
    cases accepted
  rw [queued] at accepted ⊢
  obtain rfl : prepared.applied = applied := Except.ok.inj accepted
  refine ⟨prepared, rfl, rfl, stagedGeneration_enqueue store prepared full, ?_⟩
  exact exactBatch_of_sound (fun _ isStaged => reachable.sound.staged isStaged) sound

/-! ## A tree of two nodes whose leaf is replaced -/

def plainNode (id : UInt64) : UiNodeRecord := ⟨⟨id⟩, ⟨0⟩, ⟨0⟩, 0, 0, [], ⟨⟨1⟩, 1⟩⟩

def rootAndLeaf : UiUpdate where
  sourceSequence := 1
  payload := .snapshot ⟨⟨⟨1⟩, 1, ⟨1⟩, 1, true⟩, [plainNode 1, plainNode 2], [⟨1⟩],
    [⟨⟨1⟩, ⟨2⟩, Relation.contains⟩]⟩

def replaceLeaf : UiDelta where
  metadata := ⟨⟨1⟩, 1, ⟨1⟩, 2, true⟩
  baseRevision := 1
  addedNodes := [plainNode 3]
  removedNodes := [⟨2⟩]
  relationChanges := [⟨.add, ⟨⟨1⟩, ⟨3⟩, Relation.contains⟩⟩]

def leafReplaced : AppliedDelta where
  previousRevision := 1
  revision := 2
  events :=
    [⟨.nodeRemoved, ⟨1⟩, 1, ⟨1⟩, 1, ⟨2⟩, ⟨0⟩, ⟨0⟩⟩,
      ⟨.nodeAdded, ⟨1⟩, 1, ⟨1⟩, 2, ⟨3⟩, ⟨0⟩, ⟨0⟩⟩,
      ⟨.relationRemoved, ⟨1⟩, 1, ⟨1⟩, 1, ⟨1⟩, ⟨2⟩, Relation.contains⟩,
      ⟨.relationAdded, ⟨1⟩, 1, ⟨1⟩, 2, ⟨1⟩, ⟨3⟩, Relation.contains⟩]

/-- The store once the two nodes are staged. -/
def storeOfTwo : TreeStore := (({} : TreeStore).stage rootAndLeaf).1

theorem reachable_storeOfTwo : storeOfTwo.Reachable := .stage rootAndLeaf .start

theorem stage_replaceLeaf : (storeOfTwo.stage ⟨2, .delta replaceLeaf⟩).2 = .ok leafReplaced := by
  decide +kernel

theorem accepted_batch_exact_replaceLeaf :
    (storeOfTwo.stage ⟨2, .delta replaceLeaf⟩).2 = .ok leafReplaced ∧
      ∃ prepared, prepared.applied = leafReplaced ∧
        (storeOfTwo.stage ⟨2, .delta replaceLeaf⟩).1.pendingUpdates =
          storeOfTwo.pendingUpdates ++ [prepared] ∧
        (storeOfTwo.stage ⟨2, .delta replaceLeaf⟩).1.stagedGeneration = some prepared.generation ∧
        ExactBatch storeOfTwo.stagedGeneration prepared.generation leafReplaced.events :=
  ⟨stage_replaceLeaf, accepted_batch_exact reachable_storeOfTwo stage_replaceLeaf⟩

end TreeStore

end Grab.Kernel
