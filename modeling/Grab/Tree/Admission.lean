import Grab.Tree.Store

/-!
# Update admission

What a store remembers about the updates it has seen: retired runtimes, the newest
source sequence and the wait for a complete snapshot.  `Run` records the calls of a
whole history with their outcomes, and `Admission` ties the record to the store.
-/

namespace Grab.Kernel

open Grab.Spi Grab.Lib List Option

/-! ## Only a gap is answered with a gap -/

/-- A computation that never refuses with `QueueGap`. -/
def NoGap {α : Type} (attempt : Except Rejection α) : Prop :=
  ∀ refusal, attempt = .error refusal → refusal.code ≠ .queueGap

section

variable {α β : Type} {metadata : UiSnapshotMetadata}

theorem noGap_ok (value : α) : NoGap (.ok value) := by
  intro refusal impossible
  cases impossible

theorem noGap_rejected {code : ErrorCode} (other : code ≠ .queueGap) (message : String) :
    NoGap (rejected code message metadata : Except Rejection α) := by
  intro refusal isRefusal
  rw [← Except.error.inj isRefusal]
  exact other

theorem NoGap.bind {attempt : Except Rejection α} {next : α → Except Rejection β}
    (first : NoGap attempt) (later : ∀ value, NoGap (next value)) : NoGap (attempt >>= next) := by
  cases attempt with
  | error refusal =>
    intro other isRefusal
    exact first other (congrArg Except.error (Except.error.inj isRefusal))
  | ok value => exact later value

theorem noGap_foldlM {step : β → α → Except Rejection β} (items : List α)
    (noGap : ∀ state item, NoGap (step state item)) (state : β) :
    NoGap (items.foldlM step state) := by
  induction items generalizing state with
  | nil => exact noGap_ok state
  | cons item rest ih =>
    rw [foldlM_cons]
    exact (noGap state item).bind fun next => ih next

variable (nodes : List UiNodeRecord) (roots : List NodeId) (relations : List UiRelation)

theorem noGap_validateAndFindRoots :
    NoGap (validateAndFindRoots metadata nodes roots relations) := by
  apply NoGap.bind
  · apply noGap_foldlM
    intro known record
    unfold checkNode
    repeat' split
    all_goals first | exact noGap_ok _ | exact noGap_rejected (by decide) _
  intro known
  apply NoGap.bind
  · apply noGap_foldlM
    intro state relation
    unfold checkRelation
    repeat' split
    all_goals first | exact noGap_ok _ | exact noGap_rejected (by decide) _
  intro state
  apply NoGap.bind
  · apply noGap_foldlM
    intro earlier root
    unfold checkRoot
    repeat' split
    all_goals first | exact noGap_ok _ | exact noGap_rejected (by decide) _
  intro _
  dsimp only
  split
  · exact noGap_rejected (by decide) _
  · exact noGap_ok _

theorem noGap_normalizedSnapshot : NoGap (normalizedSnapshot metadata nodes roots relations) :=
  (noGap_validateAndFindRoots nodes roots relations).bind fun _ => noGap_ok _

theorem noGap_buildGeneration (snapshot : UiSnapshot) : NoGap (buildGeneration snapshot) := by
  unfold buildGeneration
  split
  · exact noGap_rejected (by decide) _
  apply NoGap.bind
  · apply noGap_foldlM
    intro generation record
    unfold addRecord
    split
    · exact noGap_rejected (by decide) _
    · exact noGap_ok _
  · intro indexed
    apply NoGap.bind
    · apply noGap_foldlM
      intro graph entry
      unfold addCoreEdge
      split
      · exact noGap_ok _
      · exact noGap_rejected (by decide) _
    · exact fun _ => noGap_ok _

theorem noGap_snapshotFromDelta (current : Generation) (delta : UiDelta) :
    NoGap (snapshotFromDelta current delta) := by
  apply NoGap.bind
  · apply noGap_foldlM
    intro state added
    unfold addDeltaNode
    split
    · exact noGap_rejected (by decide) _
    · exact noGap_ok _
  intro grown
  apply NoGap.bind
  · apply noGap_foldlM
    intro state changed
    unfold changeDeltaNode
    repeat' split
    all_goals first | exact noGap_ok _ | exact noGap_rejected (by decide) _
  intro changed
  apply NoGap.bind
  · apply noGap_foldlM
    intro state removed
    unfold removeDeltaNode
    dsimp only
    repeat' split
    all_goals first | exact noGap_ok _ | exact noGap_rejected (by decide) _
  intro kept
  apply NoGap.bind
  · apply noGap_foldlM
    intro relations change
    unfold changeDeltaRelation
    repeat' split
    all_goals first | exact noGap_ok _ | exact noGap_rejected (by decide) _
  · exact fun _ => noGap_normalizedSnapshot _ _ _

variable (current : Option Generation)

theorem noGap_prepareSnapshot (incoming : UiSnapshot) (sequence : UInt64) :
    NoGap (prepareSnapshot current incoming sequence) := by
  unfold prepareSnapshot
  dsimp only
  split
  · exact noGap_rejected (by decide) _
  · apply (noGap_normalizedSnapshot _ _ _).bind
    intro normalized
    exact (noGap_buildGeneration normalized).bind fun _ => noGap_ok _

theorem noGap_prepareDelta (delta : UiDelta) (sequence : UInt64) :
    NoGap (prepareDelta current delta sequence) := by
  unfold prepareDelta
  dsimp only
  repeat' split
  all_goals first
    | exact noGap_rejected (by decide) _
    | exact (noGap_snapshotFromDelta _ _).bind fun candidate =>
      (noGap_buildGeneration candidate).bind fun _ => noGap_ok _

end

/-! ## What a turn remembers -/

namespace TreeStore

/-- Runtime, tree, epoch and revision an update carries; a gap carries no revision. -/
def scopeOf (update : UiUpdate) : UiSnapshotMetadata := metadataOf update 0

def isCompleteSnapshot (update : UiUpdate) : Bool :=
  match update.payload with
  | .snapshot snapshot => snapshot.metadata.complete
  | _ => false

/-- The checks every update passes that is not refused at once. -/
structure Passes (store : TreeStore) (update : UiUpdate) : Prop where
  notRetired : (scopeOf update).runtime ∉ store.retiredRuntimes
  advances : ofRuntime store.stagedGeneration (scopeOf update).runtime = true →
    update.sourceSequence ≠ 0 → store.lastSourceSequence < update.sourceSequence

/-- A gap that is noted is of the staged scope. -/
structure NotesGap (store : TreeStore) (update : UiUpdate) : Prop extends Passes store update where
  isGap : ∃ gap, update.payload = .gap gap
  scope : ∀ staged, store.stagedGeneration = some staged →
    (scopeOf update).runtime = staged.snapshot.metadata.runtime

/-- What is known of an update that is queued. -/
structure Admits (store : TreeStore) (update : UiUpdate) (prepared : PreparedUpdate) :
    Prop extends Passes store update where
  metadata : prepared.generation.snapshot.metadata = scopeOf update
  sequence : prepared.sourceSequence = update.sourceSequence
  complete : store.requiresResnapshot = true → isCompleteSnapshot update = true
  revision : ∀ staged, store.stagedGeneration = some staged →
    sameScope staged.snapshot.metadata (scopeOf update) = true →
    staged.snapshot.metadata.revision < (scopeOf update).revision

section

variable {store : TreeStore} {update : UiUpdate} {prepared : PreparedUpdate}
  {current : Option Generation} {sequence : UInt64}

theorem runtime_metadataOf (update : UiUpdate) (revision : UInt64) :
    (metadataOf update revision).runtime = (scopeOf update).runtime := by
  unfold scopeOf metadataOf
  cases update.payload <;> rfl

theorem prepareSnapshot_metadata {incoming : UiSnapshot}
    (isPrepared : prepareSnapshot current incoming sequence = .ok prepared) :
    prepared.generation.snapshot.metadata = incoming.metadata ∧
      prepared.sourceSequence = sequence ∧
      ∀ staged, current = some staged →
        sameScope staged.snapshot.metadata incoming.metadata = true →
        staged.snapshot.metadata.revision < incoming.metadata.revision := by
  unfold prepareSnapshot at isPrepared
  dsimp only at isPrepared
  split at isPrepared
  · cases isPrepared
  rename_i notStale
  rcases bind_ok isPrepared with ⟨normalized, isNormalized, isPrepared⟩
  rcases bind_ok isPrepared with ⟨generation, built, made⟩
  have metadataEq := (valid_of_built isNormalized built).2
  rw [← Except.ok.inj made]
  refine ⟨metadataEq, rfl, ?_⟩
  rintro staged rfl scope
  simp only [isStale, scope, Bool.true_and, decide_eq_true_eq] at notStale
  exact UInt64.not_le.mp notStale

theorem prepareDelta_metadata {delta : UiDelta}
    (isPrepared : prepareDelta current delta sequence = .ok prepared) :
    prepared.generation.snapshot.metadata = delta.metadata ∧
      prepared.sourceSequence = sequence ∧
      ∀ staged, current = some staged →
        staged.snapshot.metadata.revision < delta.metadata.revision := by
  rcases prepareDelta_ok isPrepared with
    ⟨base, candidate, generation, rfl, _, advances, isPatched, built, rfl⟩
  rcases normalized_of_snapshotFromDelta isPatched with ⟨nodes, relations, isNormalized⟩
  refine ⟨(valid_of_built isNormalized built).2, rfl, ?_⟩
  intro staged stagedEq
  rw [← some.inj stagedEq]
  exact UInt64.not_le.mp advances

/-- The three things a turn of `apply` can do: refuse and change nothing, note a
gap, or queue an admitted update. -/
theorem stage_turn (store : TreeStore) (update : UiUpdate) :
    (∃ refusal, refusal.code ≠ .queueGap ∧ store.stage update = (store, .error refusal)) ∨
    (∃ refusal, refusal.code = .queueGap ∧ NotesGap store update ∧
      store.stage update =
        ({ store with
            requiresResnapshot := true
            lastSourceSequence :=
              if update.sourceSequence ≠ 0 then update.sourceSequence
              else store.lastSourceSequence }, .error refusal)) ∨
    ∃ prepared, Admits store update prepared ∧
      store.stage update =
        (store.enqueue prepared (isCompleteSnapshot update), .ok prepared.applied) := by
  rcases update with ⟨sequence, payload⟩
  unfold stage
  dsimp only
  split
  · exact .inl ⟨_, by simp [rejection], rfl⟩
  rename_i notRetired
  rw [runtime_metadataOf] at notRetired
  split
  · exact .inl ⟨_, by simp [rejection], rfl⟩
  rename_i stale
  rw [runtime_metadataOf] at stale
  have passes : Passes store ⟨sequence, payload⟩ := by
    refine ⟨notRetired, fun sameRuntime nonzero => ?_⟩
    by_contra notBelow
    exact stale ⟨sameRuntime, nonzero, UInt64.not_lt.mp notBelow⟩
  cases payload with
  | gap gap =>
    have noted : ∀ staged, store.stagedGeneration = some staged →
        gap.runtime = staged.snapshot.metadata.runtime →
        NotesGap store ⟨sequence, .gap gap⟩ := by
      intro staged stagedEq runtimeEq
      refine ⟨passes, ⟨gap, rfl⟩, ?_⟩
      intro other otherEq
      rw [stagedEq] at otherEq
      rw [← some.inj otherEq]
      exact runtimeEq
    dsimp only [noteGap]
    split
    · rename_i nothing
      refine .inr (.inl ⟨_, rfl, ⟨passes, ⟨gap, rfl⟩, ?_⟩, rfl⟩)
      intro staged stagedEq
      rw [nothing] at stagedEq
      cases stagedEq
    rename_i staged stagedEq
    split
    · exact .inl ⟨_, by simp [rejection], rfl⟩
    rename_i runtimeEq
    split
    · exact .inl ⟨_, by simp [rejection], rfl⟩
    split
    · exact .inl ⟨_, by simp [rejection], rfl⟩
    · exact .inr (.inl ⟨_, rfl, noted staged stagedEq (not_not.mp runtimeEq), rfl⟩)
  | snapshot snapshot =>
    dsimp only
    split
    · exact .inl ⟨_, by simp [rejection], rfl⟩
    rename_i notWaiting
    cases attempt : prepareSnapshot store.stagedGeneration snapshot sequence with
    | error refusal =>
      exact .inl ⟨refusal, noGap_prepareSnapshot _ _ _ refusal attempt, rfl⟩
    | ok prepared =>
      rcases prepareSnapshot_metadata attempt with ⟨metadataEq, sequenceEq, newer⟩
      refine .inr (.inr ⟨prepared, ⟨passes, metadataEq, sequenceEq, ?_, newer⟩, rfl⟩)
      intro waiting
      by_contra incomplete
      exact notWaiting ⟨waiting, incomplete⟩
  | delta delta =>
    dsimp only
    split
    · exact .inl ⟨_, by simp [rejection], rfl⟩
    rename_i notWaiting
    cases attempt : prepareDelta store.stagedGeneration delta sequence with
    | error refusal =>
      exact .inl ⟨refusal, noGap_prepareDelta _ _ _ refusal attempt, rfl⟩
    | ok prepared =>
      rcases prepareDelta_metadata attempt with ⟨metadataEq, sequenceEq, newer⟩
      refine .inr (.inr ⟨prepared, ⟨passes, metadataEq, sequenceEq, ?_,
        fun staged stagedEq _ => newer staged stagedEq⟩, rfl⟩)
      exact fun waiting => absurd waiting notWaiting

/-- A refused update changes nothing at all, unless the refusal reports a gap: then
the store waits for a complete snapshot and may have taken over the sequence. -/
theorem refused_leaves_no_trace {refusal : Rejection}
    (refused : (store.stage update).2 = .error refusal) :
    (refusal.code ≠ .queueGap → (store.stage update).1 = store) ∧
      (refusal.code = .queueGap → ∃ waiting sequence, (store.stage update).1 =
        { store with requiresResnapshot := waiting, lastSourceSequence := sequence }) := by
  rcases stage_turn store update with
    ⟨other, notGap, turn⟩ | ⟨other, isGap, _, turn⟩ | ⟨prepared, _, turn⟩
  · rw [turn] at refused ⊢
    cases refused
    constructor
    · intro _
      rfl
    · intro isGap
      exact absurd isGap notGap
  · rw [turn] at refused ⊢
    cases refused
    constructor
    · intro notGap
      exact absurd isGap notGap
    · intro _
      exact ⟨_, _, rfl⟩
  · rw [turn] at refused
    cases refused

end

/-- The delta that replaces the leaf, sent under a sequence that was used before. -/
theorem refused_leaves_no_trace_replay :
    (storeOfTwo.stage ⟨1, .delta replaceLeaf⟩).2 =
        rejected .resyncRequired "source sequence did not advance" replaceLeaf.metadata ∧
      (storeOfTwo.stage ⟨1, .delta replaceLeaf⟩).1 = storeOfTwo := by
  have refused : (storeOfTwo.stage ⟨1, .delta replaceLeaf⟩).2 =
      rejected .resyncRequired "source sequence did not advance" replaceLeaf.metadata := by
    decide +kernel
  exact ⟨refused, (refused_leaves_no_trace refused).1 (by simp [rejection, replaceLeaf])⟩

/-! ## Histories -/

/-- One call of `apply` as a history records it. -/
structure Entry where
  update : UiUpdate
  outcome : Except Rejection AppliedDelta
  /-- Was a generation staged when the call was made? -/
  staged : Bool

namespace Entry

def isAccepted (entry : Entry) : Bool :=
  match entry.outcome with
  | .ok _ => true
  | .error _ => false

def isQueueGap (entry : Entry) : Bool :=
  match entry.outcome with
  | .ok _ => false
  | .error refusal => refusal.code == .queueGap

/-- An accepted update, or a gap that was noted while a generation was staged. -/
def isCounted (entry : Entry) : Bool := entry.isAccepted || (entry.isQueueGap && entry.staged)

/-- A complete snapshot that was accepted. -/
def resnapshots (entry : Entry) : Bool := entry.isAccepted && isCompleteSnapshot entry.update

end Entry

/-- The histories of a store: calls of `apply` and turns of a drainer. -/
inductive Run : List Entry → TreeStore → Prop
  | start : Run [] {}
  | apply {entries : List Entry} {store : TreeStore} (update : UiUpdate) :
      Run entries store →
      Run (entries ++ [⟨update, (store.stage update).2, store.stagedGeneration.isSome⟩])
        (store.stage update).1
  | drain {entries : List Entry} {store : TreeStore} :
      Run entries store → store.publishing = true → Run entries store.drainStep.1

def accepted (entries : List Entry) : List UiUpdate :=
  (entries.filter Entry.isAccepted).map Entry.update

def counted (entries : List Entry) : List UiUpdate :=
  (entries.filter Entry.isCounted).map Entry.update

/-- Two updates of one runtime with sequences have them in order. -/
def SequenceOrder (first second : UiUpdate) : Prop :=
  (scopeOf first).runtime = (scopeOf second).runtime → first.sourceSequence ≠ 0 →
    second.sourceSequence ≠ 0 → first.sourceSequence < second.sourceSequence

/-- Has a gap been noted since the last complete snapshot? -/
def GapOpen (entries : List Entry) : Prop :=
  ∃ earlier gap since, entries = earlier ++ gap :: since ∧ gap.isQueueGap = true ∧
    ∀ entry ∈ since, entry.resnapshots = false

/-- What a history has to do with the store it leads to. -/
structure Admission (entries : List Entry) (store : TreeStore) : Prop where
  fresh : ∀ staged, store.stagedGeneration = some staged →
    staged.snapshot.metadata.runtime ∉ store.retiredRuntimes
  newest : store.stagedGeneration.map (fun staged => staged.snapshot.metadata) =
    (accepted entries).getLast?.map scopeOf
  /-- The runtime of a counted update is staged or retired. -/
  known : ∀ update ∈ counted entries,
    ofRuntime store.stagedGeneration (scopeOf update).runtime = true ∨
      (scopeOf update).runtime ∈ store.retiredRuntimes
  sequences : ∀ update ∈ counted entries,
    ofRuntime store.stagedGeneration (scopeOf update).runtime = true →
      update.sourceSequence ≤ store.lastSourceSequence
  waiting : GapOpen entries → store.requiresResnapshot = true

section

variable {entries : List Entry} {store : TreeStore} {update : UiUpdate} {prepared : PreparedUpdate}

theorem accepted_subset_counted : ∀ update ∈ accepted entries, update ∈ counted entries := by
  intro update member
  rcases mem_map.mp member with ⟨entry, kept, rfl⟩
  rcases mem_filter.mp kept with ⟨inside, isAccepted⟩
  exact mem_map_of_mem (mem_filter.mpr ⟨inside, by simp [Entry.isCounted, isAccepted]⟩)

/-- The two lists after one more call. -/
theorem accepted_append (entry : Entry) :
    accepted (entries ++ [entry]) =
      accepted entries ++ if entry.isAccepted then [entry.update] else [] := by
  cases isAccepted : entry.isAccepted <;> simp [accepted, filter_append, isAccepted]

theorem counted_append (entry : Entry) :
    counted (entries ++ [entry]) =
      counted entries ++ if entry.isCounted then [entry.update] else [] := by
  cases isCounted : entry.isCounted <;> simp [counted, filter_append, isCounted]

variable {entry : Entry} {refusal : Rejection}

/-- A call that notes no gap leaves no gap open that was not. -/
theorem gapOpen_of_append (noGap : entry.isQueueGap = false)
    (isOpen : GapOpen (entries ++ [entry])) : GapOpen entries ∧ entry.resnapshots = false := by
  rcases isOpen with ⟨earlier, gap, since, split, isGap, quiet⟩
  rcases eq_nil_or_concat since with rfl | ⟨rest, last, rfl⟩
  · have same := (append_inj' split rfl).2
    rw [cons.injEq] at same
    rw [← same.1, noGap] at isGap
    cases isGap
  rw [concat_eq_append] at split quiet
  rw [← cons_append, ← append_assoc] at split
  rcases append_inj' split rfl with ⟨entriesEq, lastEq⟩
  rw [cons.injEq] at lastEq
  refine ⟨⟨earlier, gap, rest, entriesEq, isGap, ?_⟩, ?_⟩
  · exact fun entry member => quiet entry (mem_append_left _ member)
  · rw [lastEq.1]
    exact quiet last (mem_append_right _ (mem_singleton_self last))

theorem ofRuntime_iff {generation : Option Generation} {runtime : RuntimeId} :
    ofRuntime generation runtime = true ↔
      ∃ staged, generation = some staged ∧ runtime = staged.snapshot.metadata.runtime := by
  cases generation with
  | none | some staged => simp [ofRuntime]

/-- Queueing an admitted update keeps the record. -/
theorem Admission.accept (admission : Admission entries store)
    (admits : Admits store update prepared) (staged : Bool) :
    Admission (entries ++ [⟨update, .ok prepared.applied, staged⟩])
      (store.enqueue prepared (isCompleteSnapshot update)) := by
  have newStaged : ∀ runtime, ofRuntime (some prepared.generation) runtime = true ↔
      runtime = (scopeOf update).runtime := by
    intro runtime
    rw [ofRuntime, admits.metadata, beq_iff_eq]
  have countedEq : counted (entries ++ [⟨update, .ok prepared.applied, staged⟩]) =
      counted entries ++ [update] := counted_append _
  have retiredIff : ∀ runtime,
      runtime ∈ (store.enqueue prepared (isCompleteSnapshot update)).retiredRuntimes ↔
        runtime ∈ store.retiredRuntimes ∨
          (ofRuntime store.stagedGeneration runtime = true ∧
            runtime ≠ (scopeOf update).runtime) := by
    intro runtime
    simp only [enqueue, admits.metadata]
    cases stagedEq : store.stagedGeneration with
    | none => simp [ofRuntime]
    | some old =>
      simp only [ofRuntime, bne_iff_ne, beq_iff_eq]
      split
      · rename_i changed
        rw [Finset.mem_insert]
        constructor
        · rintro (rfl | retired)
          · exact .inr ⟨rfl, changed⟩
          · exact .inl retired
        · rintro (retired | ⟨rfl, _⟩)
          · exact .inr retired
          · exact .inl rfl
      · rename_i same
        constructor
        · exact .inl
        · rintro (retired | ⟨rfl, changed⟩)
          · exact retired
          · exact absurd changed same
  constructor
  case fresh =>
    intro generation generationEq
    rw [stagedGeneration_enqueue] at generationEq
    rw [← some.inj generationEq, admits.metadata, retiredIff]
    rintro (retired | ⟨_, differs⟩)
    · exact admits.notRetired retired
    · exact differs rfl
  case newest =>
    have acceptedEq : accepted (entries ++ [⟨update, .ok prepared.applied, staged⟩]) =
        accepted entries ++ [update] := accepted_append _
    rw [stagedGeneration_enqueue, acceptedEq, getLast?_append]
    simp [admits.metadata]
  case known =>
    intro other member
    rw [stagedGeneration_enqueue, newStaged, retiredIff]
    rw [countedEq] at member
    rcases mem_append.mp member with old | new
    · by_cases same : (scopeOf other).runtime = (scopeOf update).runtime
      · exact .inl same
      · rcases admission.known other old with isStaged | retired
        · exact .inr (.inr ⟨isStaged, same⟩)
        · exact .inr (.inl retired)
    · rw [mem_singleton.mp new]
      exact .inl rfl
  case sequences =>
    intro other member isStaged
    rw [stagedGeneration_enqueue, newStaged] at isStaged
    rw [countedEq] at member
    simp only [enqueue, admits.sequence, admits.metadata]
    rcases mem_append.mp member with old | new
    · -- An older update of the new runtime: the runtime was staged all along.
      have wasStaged : ofRuntime store.stagedGeneration (scopeOf other).runtime = true := by
        rcases admission.known other old with wasStaged | retired
        · exact wasStaged
        · rw [isStaged] at retired
          exact absurd retired admits.notRetired
      have bounded := admission.sequences other old wasStaged
      rcases ofRuntime_iff.mp wasStaged with ⟨generation, stagedEq, runtimeEq⟩
      have unchanged : (generation.snapshot.metadata.runtime !=
          (scopeOf update).runtime) = false := by
        rw [← runtimeEq, isStaged]
        simp
      rw [stagedEq]
      simp only [unchanged]
      split
      · rename_i nonzero
        rcases nonzero with nonzero | impossible
        · have wasStaged' := wasStaged
          rw [isStaged] at wasStaged'
          exact UInt64.le_of_lt (UInt64.lt_of_le_of_lt bounded (admits.advances wasStaged' nonzero))
        · cases impossible
      · exact bounded
    · rw [mem_singleton.mp new]
      by_cases zero : update.sourceSequence = 0
      · rw [zero]
        exact UInt64.zero_le
      · rw [if_pos (.inl zero)]
        exact UInt64.le_refl _
  case waiting =>
    intro isOpen
    rcases gapOpen_of_append rfl isOpen with ⟨wasOpen, notFull⟩
    have waiting := admission.waiting wasOpen
    have full := admits.complete waiting
    simp [Entry.resnapshots, Entry.isAccepted, full] at notFull

/-- Noting a gap keeps the record. -/
theorem Admission.noteGap (admission : Admission entries store) (notes : NotesGap store update)
    (isGap : refusal.code = .queueGap) :
    Admission (entries ++ [⟨update, .error refusal, store.stagedGeneration.isSome⟩])
      { store with
        requiresResnapshot := true
        lastSourceSequence :=
          if update.sourceSequence ≠ 0 then update.sourceSequence
          else store.lastSourceSequence } := by
  have acceptedEq :
      accepted (entries ++ [⟨update, .error refusal, store.stagedGeneration.isSome⟩]) =
        accepted entries := by
    rw [accepted_append]
    simp [Entry.isAccepted]
  have grows : ∀ sequence, sequence ≤ store.lastSourceSequence →
      ofRuntime store.stagedGeneration (scopeOf update).runtime = true →
      sequence ≤ if update.sourceSequence ≠ 0 then update.sourceSequence
        else store.lastSourceSequence := by
    intro sequence bounded isStaged
    split
    · rename_i nonzero
      exact UInt64.le_of_lt (UInt64.lt_of_le_of_lt bounded (notes.advances isStaged nonzero))
    · exact bounded
  constructor
  case fresh => exact admission.fresh
  case newest =>
    rw [acceptedEq]
    exact admission.newest
  case known =>
    intro other member
    rw [counted_append] at member
    rcases mem_append.mp member with old | new
    · exact admission.known other old
    cases stagedEq : store.stagedGeneration with
    | none => simp [Entry.isCounted, Entry.isAccepted, stagedEq] at new
    | some generation =>
      left
      simp only [Entry.isCounted, Entry.isAccepted, Entry.isQueueGap, isGap, stagedEq] at new
      rw [mem_singleton.mp new]
      exact ofRuntime_iff.mpr ⟨generation, stagedEq, notes.scope generation stagedEq⟩
  case sequences =>
    intro other member isStaged
    rw [counted_append] at member
    rcases mem_append.mp member with old | new
    · apply grows
      · exact admission.sequences other old isStaged
      · rcases ofRuntime_iff.mp isStaged with ⟨generation, stagedEq, _⟩
        exact ofRuntime_iff.mpr ⟨generation, stagedEq, notes.scope generation stagedEq⟩
    have isUpdate : other = update := by
      split at new
      · exact mem_singleton.mp new
      · cases new
    rw [isUpdate]
    split
    · exact UInt64.le_refl _
    · rename_i unset
      rw [not_not.mp unset]
      exact UInt64.zero_le
  case waiting => exact fun _ => rfl

/-- A refusal keeps the record. -/
theorem Admission.refuse (admission : Admission entries store) (other : refusal.code ≠ .queueGap)
    (staged : Bool) : Admission (entries ++ [⟨update, .error refusal, staged⟩]) store := by
  have noGap : (⟨update, .error refusal, staged⟩ : Entry).isQueueGap = false := by
    simp [Entry.isQueueGap, other]
  have acceptedEq : accepted (entries ++ [⟨update, .error refusal, staged⟩]) =
      accepted entries := by
    rw [accepted_append]
    simp [Entry.isAccepted]
  have countedEq : counted (entries ++ [⟨update, .error refusal, staged⟩]) = counted entries := by
    rw [counted_append]
    simp [Entry.isCounted, Entry.isAccepted, noGap]
  constructor
  case fresh => exact admission.fresh
  case newest =>
    rw [acceptedEq]
    exact admission.newest
  case known =>
    rw [countedEq]
    exact admission.known
  case sequences =>
    rw [countedEq]
    exact admission.sequences
  case waiting => exact fun isOpen => admission.waiting (gapOpen_of_append noGap isOpen).1

theorem stagedGeneration_drainStep (store : TreeStore) :
    store.drainStep.1.stagedGeneration = store.stagedGeneration := by
  unfold drainStep stagedGeneration
  cases queue : store.pendingUpdates with
  | nil => rfl
  | cons first rest =>
    cases last : rest.getLast? with
    | none =>
      rw [getLast?_eq_none_iff] at last
      subst last
      rfl
    | some newest => simp [getLast?_cons, last]

theorem Admission.drain (admission : Admission entries store) :
    Admission entries store.drainStep.1 := by
  have sameFields : store.drainStep.1.retiredRuntimes = store.retiredRuntimes ∧
      store.drainStep.1.lastSourceSequence = store.lastSourceSequence ∧
      store.drainStep.1.requiresResnapshot = store.requiresResnapshot := by
    unfold drainStep
    split <;> exact ⟨rfl, rfl, rfl⟩
  rcases sameFields with ⟨retiredEq, sequenceEq, waitingEq⟩
  have stagedEq := stagedGeneration_drainStep store
  constructor
  case fresh =>
    rw [stagedEq, retiredEq]
    exact admission.fresh
  case newest =>
    rw [stagedEq]
    exact admission.newest
  case known =>
    rw [stagedEq, retiredEq]
    exact admission.known
  case sequences =>
    rw [stagedEq, sequenceEq]
    exact admission.sequences
  case waiting =>
    rw [waitingEq]
    exact admission.waiting

theorem Run.admission (run : Run entries store) : Admission entries store := by
  induction run with
  | start =>
    constructor
    case fresh => exact fun _ impossible => by cases impossible
    case newest => rfl
    case known => simp [counted]
    case sequences => simp [counted]
    case waiting =>
      rintro ⟨earlier, gap, since, impossible, _⟩
      simp at impossible
  | @apply entries store update _ ih =>
    rcases stage_turn store update with
      ⟨refusal, other, refused⟩ | ⟨refusal, isGap, notes, noted⟩ | ⟨prepared, admits, queued⟩
    · rw [refused]
      exact ih.refuse other _
    · rw [noted]
      exact ih.noteGap notes isGap
    · rw [queued]
      exact ih.accept admits _
  | drain _ _ ih => exact ih.drain

/-! ## What holds of every history -/

/-- No update of a replaced runtime is accepted. -/
def NoReturn (entries : List Entry) : Prop :=
  ∀ first second third, [first, second, third].Sublist (accepted entries) →
    (scopeOf second).runtime ≠ (scopeOf first).runtime →
    (scopeOf third).runtime ≠ (scopeOf first).runtime

/-- Neighbours of one scope advance the revision. -/
def RevisionsAdvance (entries : List Entry) : Prop :=
  ∀ earlier first second later, accepted entries = earlier ++ first :: second :: later →
    sameScope (scopeOf first) (scopeOf second) = true →
    (scopeOf first).revision < (scopeOf second).revision

/-- After a gap only a complete snapshot is accepted until one has been. -/
def GapsHeal (entries : List Entry) : Prop :=
  ∀ earlier entry later, entries = earlier ++ entry :: later → GapOpen earlier →
    entry.isAccepted = true → isCompleteSnapshot entry.update = true

/-- A sublist of a list with one more element ends in it or does without it. -/
theorem concat_sublist_concat {α : Type} {short init : List α} {item last : α}
    (sub : (short ++ [item]).Sublist (init ++ [last])) :
    (short ++ [item]).Sublist init ∨ item = last ∧ short.Sublist init := by
  have reversed := reverse_sublist.mpr sub
  simp only [reverse_append, reverse_cons, reverse_nil, nil_append, singleton_append] at reversed
  cases reversed with
  | cons _ inside =>
    left
    rw [← reverse_sublist]
    simpa using inside
  | cons_cons _ inside => exact .inr ⟨rfl, reverse_sublist.mp inside⟩

/-- A runtime that a later accepted update replaced is retired. -/
theorem Admission.retired (admission : Admission entries store) (noReturn : NoReturn entries)
    {first second : UiUpdate} (sub : [first, second].Sublist (accepted entries))
    (replaced : (scopeOf second).runtime ≠ (scopeOf first).runtime) :
    (scopeOf first).runtime ∈ store.retiredRuntimes := by
  have member : first ∈ accepted entries := sub.subset mem_cons_self
  rcases admission.known first (accepted_subset_counted first member) with isStaged | retired
  · exfalso
    rcases ofRuntime_iff.mp isStaged with ⟨staged, stagedEq, runtimeEq⟩
    have newest := admission.newest
    rcases eq_nil_or_concat (accepted entries) with empty | ⟨init, last, split⟩
    · rw [empty] at member
      cases member
    rw [concat_eq_append] at split
    rw [stagedEq, split, getLast?_append] at newest
    have lastRuntime : (scopeOf last).runtime = (scopeOf first).runtime := by
      have metadataEq : staged.snapshot.metadata = scopeOf last := some.inj newest
      rw [runtimeEq, metadataEq]
    rw [split] at sub
    have pair : ([first] ++ [second]).Sublist (init ++ [last]) := sub
    rcases concat_sublist_concat pair with inside | ⟨rfl, _⟩
    · have triple : ([first, second] ++ [last]).Sublist (init ++ [last]) :=
        inside.append (Sublist.refl [last])
      exact noReturn first second last (split ▸ triple) replaced lastRuntime
    · exact replaced lastRuntime
  · exact retired

variable (admission : Admission entries store)

include admission

theorem noReturn_append (noReturn : NoReturn entries) (passes : entry.isAccepted = true →
      (scopeOf entry.update).runtime ∉ store.retiredRuntimes) : NoReturn (entries ++ [entry]) := by
  intro first second third sub replaced
  rw [accepted_append] at sub
  cases isAccepted : entry.isAccepted with
  | false =>
    rw [isAccepted] at sub
    exact noReturn first second third (by simpa using sub) replaced
  | true =>
    rw [isAccepted] at sub
    have triple : ([first, second] ++ [third]).Sublist (accepted entries ++ [entry.update]) := sub
    rcases concat_sublist_concat triple with inside | ⟨rfl, pair⟩
    · exact noReturn first second third inside replaced
    intro same
    apply passes isAccepted
    rw [same]
    exact admission.retired noReturn pair replaced

theorem revisionsAdvance_append (advance : RevisionsAdvance entries)
    (newer : entry.isAccepted = true → ∀ staged, store.stagedGeneration = some staged →
      sameScope staged.snapshot.metadata (scopeOf entry.update) = true →
      staged.snapshot.metadata.revision < (scopeOf entry.update).revision) :
    RevisionsAdvance (entries ++ [entry]) := by
  intro earlier first second later split scope
  rw [accepted_append] at split
  cases isAccepted : entry.isAccepted with
  | false =>
    rw [isAccepted] at split
    exact advance earlier first second later (by simpa using split) scope
  | true =>
    simp only [isAccepted, if_true] at split
    rcases eq_nil_or_concat later with rfl | ⟨rest, last, rfl⟩
    · have regrouped : accepted entries ++ [entry.update] =
          (earlier ++ [first]) ++ [second] := by simpa using split
      rcases append_inj' regrouped rfl with ⟨oldEq, newEq⟩
      rw [cons.injEq] at newEq
      have newest := admission.newest
      rw [oldEq, getLast?_append] at newest
      cases stagedEq : store.stagedGeneration with
      | none =>
        rw [stagedEq] at newest
        simp at newest
      | some staged =>
        rw [stagedEq] at newest
        have metadataEq : staged.snapshot.metadata = scopeOf first := some.inj newest
        rw [← newEq.1] at scope ⊢
        rw [← metadataEq] at scope ⊢
        exact newer isAccepted staged stagedEq scope
    · have regrouped : accepted entries ++ [entry.update] =
          (earlier ++ first :: second :: rest) ++ [last] := by simpa using split
      exact advance earlier first second rest (append_inj' regrouped rfl).1 scope

theorem sequenceOrder_append (ordered : (counted entries).Pairwise SequenceOrder)
    (passes : entry.isCounted = true → Passes store entry.update) :
    (counted (entries ++ [entry])).Pairwise SequenceOrder := by
  rw [counted_append]
  cases isCounted : entry.isCounted with
  | false => simpa using ordered
  | true =>
    simp only [if_true]
    rw [pairwise_append]
    refine ⟨ordered, pairwise_singleton _ _, ?_⟩
    intro old member new isNew sameRuntime _ nonzero
    rw [mem_singleton.mp isNew] at sameRuntime nonzero ⊢
    have passing := passes isCounted
    have wasStaged : ofRuntime store.stagedGeneration (scopeOf old).runtime = true := by
      rcases admission.known old member with wasStaged | retired
      · exact wasStaged
      · rw [sameRuntime] at retired
        exact absurd retired passing.notRetired
    have bounded := admission.sequences old member wasStaged
    rw [sameRuntime] at wasStaged
    exact UInt64.lt_of_le_of_lt bounded (passing.advances wasStaged nonzero)

theorem gapsHeal_append (heal : GapsHeal entries)
    (complete : entry.isAccepted = true → store.requiresResnapshot = true →
      isCompleteSnapshot entry.update = true) : GapsHeal (entries ++ [entry]) := by
  intro earlier other later split isOpen isAccepted
  rcases eq_nil_or_concat later with rfl | ⟨rest, last, rfl⟩
  · rcases append_inj' split rfl with ⟨oldEq, newEq⟩
    rw [cons.injEq] at newEq
    rw [← newEq.1] at isAccepted ⊢
    rw [← oldEq] at isOpen
    exact complete isAccepted (admission.waiting isOpen)
  · have regrouped : entries ++ [entry] = (earlier ++ other :: rest) ++ [last] := by
      simpa using split
    exact heal earlier other rest (append_inj' regrouped rfl).1 isOpen isAccepted

omit admission

/-- What admission promises of a history. -/
structure Admitted (entries : List Entry) : Prop where
  noReturn : NoReturn entries
  revisions : RevisionsAdvance entries
  sequences : (counted entries).Pairwise SequenceOrder
  gaps : GapsHeal entries

theorem Admitted.append (admission : Admission entries store) (admitted : Admitted entries) :
    Admitted (entries ++ [⟨update, (store.stage update).2, store.stagedGeneration.isSome⟩]) := by
  have shape : ((⟨update, (store.stage update).2, store.stagedGeneration.isSome⟩ :
      Entry).isAccepted = true → ∃ prepared, Admits store update prepared) ∧
      ((⟨update, (store.stage update).2, store.stagedGeneration.isSome⟩ :
      Entry).isCounted = true → Passes store update) := by
    rcases stage_turn store update with
      ⟨refusal, other, refused⟩ | ⟨refusal, isGap, notes, noted⟩ | ⟨prepared, admits, queued⟩
    · rw [refused]
      simp [Entry.isAccepted, Entry.isCounted, Entry.isQueueGap, other]
    · rw [noted]
      exact ⟨by simp [Entry.isAccepted], fun _ => notes.toPasses⟩
    · rw [queued]
      exact ⟨fun _ => ⟨prepared, admits⟩, fun _ => admits.toPasses⟩
  rcases shape with ⟨onAccepted, onCounted⟩
  constructor
  case noReturn =>
    apply noReturn_append admission admitted.noReturn
    intro isAccepted
    rcases onAccepted isAccepted with ⟨prepared, admits⟩
    exact admits.notRetired
  case revisions =>
    apply revisionsAdvance_append admission admitted.revisions
    intro isAccepted
    rcases onAccepted isAccepted with ⟨prepared, admits⟩
    exact admits.revision
  case sequences => exact sequenceOrder_append admission admitted.sequences onCounted
  case gaps =>
    apply gapsHeal_append admission admitted.gaps
    intro isAccepted
    rcases onAccepted isAccepted with ⟨prepared, admits⟩
    exact admits.complete

end

end TreeStore

end Grab.Kernel
