import Mathlib.Data.List.Induction
import Grab.Lib.SlotTable
import Grab.Overlay.Scene

/-!
# Deltas replay the scene

The queue of deltas is numbered without gaps and says everything that happens to the shapes, so
that replaying the deltas up to a revision gives the shapes of any snapshot at that revision.
-/

namespace Grab.Overlay

open Grab.Lib List

/-! ## Replaying -/

def applyChange (records : List ShapeRecord) : Change → List ShapeRecord
  | .upsert record => records.filter (fun other => other.id != record.id) ++ [record]
  | .remove id => records.filter fun other => other.id != id
  | .clear _ => []

/-- The shapes a consumer has after some deltas. -/
def replay (deltas : List SceneDelta) : List ShapeRecord :=
  deltas.foldl (fun records delta => applyChange records delta.change) []

/-- A delta that is not past a revision of an epoch. -/
def SceneDelta.upTo (epoch revision : Nat) (delta : SceneDelta) : Bool :=
  delta.epoch < epoch || delta.epoch == epoch && delta.revision ≤ revision

/-- Deltas in order up to a revision of an epoch: one revision after the other, and the epoch
after a clear starts at one. -/
inductive Numbered : List SceneDelta → Nat → Nat → Prop
  | nil : Numbered [] 0 0
  | change {deltas : List SceneDelta} {epoch revision : Nat} {change : Change}
      (earlier : Numbered deltas epoch revision) (notClear : ∀ newEpoch, change ≠ .clear newEpoch) :
      Numbered (deltas ++ [⟨epoch, revision + 1, change⟩]) epoch (revision + 1)
  | clear {deltas : List SceneDelta} {epoch revision : Nat}
      (earlier : Numbered deltas epoch revision) :
      Numbered (deltas ++ [⟨epoch + 1, 1, .clear (epoch + 1)⟩]) (epoch + 1) 1

@[simp]
theorem replay_concat (deltas : List SceneDelta) (delta : SceneDelta) :
    replay (deltas ++ [delta]) = applyChange (replay deltas) delta.change :=
  foldl_concat ..

variable {records : List ShapeRecord} {delta : SceneDelta} {epoch revision : Nat}

theorem mem_applyChange_upsert {record other : ShapeRecord} :
    other ∈ applyChange records (.upsert record) ↔
      other = record ∨ other ∈ records ∧ other.id ≠ record.id := by
  rw [applyChange, mem_append, mem_filter, mem_singleton, bne_iff_ne, or_comm]

theorem mem_applyChange_remove {id : ShapeId} {other : ShapeRecord} :
    other ∈ applyChange records (.remove id) ↔ other ∈ records ∧ other.id ≠ id := by
  rw [applyChange, mem_filter, bne_iff_ne]

theorem nodup_applyChange (change : Change) (nodup : records.Nodup) :
    (applyChange records change).Nodup := by
  cases change with
  | upsert record =>
    rw [applyChange, nodup_append]
    refine ⟨nodup.filter _, nodup_singleton record, ?_⟩
    rintro other member _ isRecord rfl
    rw [mem_singleton.mp isRecord, mem_filter, bne_self_eq_false] at member
    cases member.2
  | remove id => exact nodup.filter _
  | clear newEpoch => exact nodup_nil

theorem nodup_replay (deltas : List SceneDelta) : (replay deltas).Nodup := by
  induction deltas using List.reverseRecOn with
  | nil => exact nodup_nil
  | append_singleton deltas delta earlier =>
    rw [replay_concat]
    exact nodup_applyChange delta.change earlier

theorem upTo_iff :
    delta.upTo epoch revision = true ↔
      delta.epoch < epoch ∨ delta.epoch = epoch ∧ delta.revision ≤ revision := by
  simp [SceneDelta.upTo]

/-- No delta is past the revision the numbering has reached. -/
theorem Numbered.upTo {deltas : List SceneDelta} (numbered : Numbered deltas epoch revision)
    (member : delta ∈ deltas) : delta.upTo epoch revision = true := by
  induction numbered with
  | nil => cases member
  | change earlier notClear before | clear earlier before =>
    rw [upTo_iff]
    rcases mem_append.mp member with old | new
    · have reached := upTo_iff.mp (before old)
      omega
    · rw [mem_singleton.mp new]
      exact .inr ⟨rfl, Nat.le_refl _⟩

/-- The first deltas of a numbered queue are numbered. -/
theorem Numbered.take {deltas front : List SceneDelta} (numbered : Numbered deltas epoch revision)
    (isPrefix : front <+: deltas) : ∃ epoch revision, Numbered front epoch revision := by
  induction numbered with
  | nil =>
    rw [prefix_nil] at isPrefix
    exact ⟨0, 0, isPrefix ▸ .nil⟩
  | change earlier notClear before =>
    rcases prefix_concat_iff.mp isPrefix with rfl | shorter
    · exact ⟨_, _, .change earlier notClear⟩
    · exact before shorter
  | clear earlier before =>
    rcases prefix_concat_iff.mp isPrefix with rfl | shorter
    · exact ⟨_, _, .clear earlier⟩
    · exact before shorter

/-! ## The invariant of the scene -/

namespace Scene

/-- The deltas queued so far, behind those already published, replay the live entries. -/
structure Tracks (published : List SceneDelta) (scene : Scene) : Prop where
  mirrors : ∀ record, some record ∈ scene.entries ↔
    record ∈ replay (published ++ scene.pendingDeltas)
  table : SlotTable ShapeRecord.id scene.entries scene.freeSlots
  current : ∀ record, some record ∈ scene.entries →
    record.id.epoch = scene.epoch ∧ record.id.slot < scene.nextShapeSlot
  numbered : Numbered (published ++ scene.pendingDeltas) scene.epoch scene.revision

/-- What a scene may become: deltas are queued behind the others, each past the revision the
scene had, and nobody else publishes. -/
structure Advances (before after : Scene) : Prop where
  queued : ∃ new, after.pendingDeltas = before.pendingDeltas ++ new ∧
    ∀ delta ∈ new, delta.upTo before.epoch before.revision = false
  reached : before.epoch < after.epoch ∨
    before.epoch = after.epoch ∧ before.revision ≤ after.revision
  cursor : after.publicationCursor = before.publicationCursor
  publishing : after.publishing = before.publishing

theorem Advances.refl (scene : Scene) : Advances scene scene where
  queued := ⟨[], (append_nil _).symm, forall_mem_nil _⟩
  reached := .inr ⟨rfl, Nat.le_refl _⟩
  cursor := rfl
  publishing := rfl

theorem Advances.trans {first second third : Scene} (before : Advances first second)
    (after : Advances second third) : Advances first third := by
  rcases before.queued with ⟨new, queued, past⟩
  rcases after.queued with ⟨newer, queuedLater, pastLater⟩
  have firstReached := before.reached
  have secondReached := after.reached
  constructor
  case queued =>
    refine ⟨new ++ newer, ?_, ?_⟩
    · rw [queuedLater, queued, append_assoc]
    intro delta member
    rcases mem_append.mp member with isNew | isNewer
    · exact past delta isNew
    · have later := pastLater delta isNewer
      rw [← Bool.not_eq_true, upTo_iff] at later ⊢
      omega
  case reached => omega
  case cursor => rw [after.cursor, before.cursor]
  case publishing => rw [after.publishing, before.publishing]

/-- What advances is the queue, its numbers and who publishes it. -/
theorem Advances.of_eq {before after other : Scene} (advances : Advances before after)
    (pendingDeltas : other.pendingDeltas = after.pendingDeltas) (epoch : other.epoch = after.epoch)
    (revision : other.revision = after.revision)
    (cursor : other.publicationCursor = after.publicationCursor)
    (publishing : other.publishing = after.publishing) : Advances before other where
  queued := pendingDeltas ▸ advances.queued
  reached := by
    rw [epoch, revision]
    exact advances.reached
  cursor := cursor.trans advances.cursor
  publishing := publishing.trans advances.publishing

section

variable {published : List SceneDelta} {scene : Scene} {entrySlot : Nat}

theorem Tracks.deadlines (tracks : scene.Tracks published) (deadlines : List Deadline) :
    Tracks published { scene with deadlines := deadlines } :=
  ⟨tracks.mirrors, tracks.table, tracks.current, tracks.numbered⟩

/-- One queued delta that is no clear. -/
theorem advances_queueChange (scene : Scene) (change : Change) :
    Advances scene (scene.queueChange change) where
  queued := by
    refine ⟨_, rfl, ?_⟩
    intro delta member
    rw [mem_singleton.mp member, ← Bool.not_eq_true, upTo_iff]
    dsimp only
    omega
  reached := .inr ⟨rfl, Nat.le_succ _⟩
  cursor := rfl
  publishing := rfl

theorem Tracks.numbered_queueChange (tracks : scene.Tracks published) {change : Change}
    (notClear : ∀ newEpoch, change ≠ .clear newEpoch) :
    Numbered (published ++ (scene.queueChange change).pendingDeltas) scene.epoch
      (scene.revision + 1) := by
  change Numbered (published ++ (scene.pendingDeltas ++ [_])) _ _
  rw [← append_assoc]
  exact .change tracks.numbered notClear

theorem Tracks.vacate (tracks : scene.Tracks published) {record : ShapeRecord}
    (here : scene.entries[entrySlot]? = some (some record)) :
    (scene.vacate entrySlot record.id).Tracks published := by
  constructor
  case mirrors =>
    intro other
    change some other ∈ scene.entries.set entrySlot none ↔
      other ∈ replay (published ++ (scene.pendingDeltas ++ [_]))
    rw [← append_assoc, replay_concat, mem_applyChange_remove, tracks.table.mem_vacate here,
      tracks.mirrors]
  case table => exact tracks.table.vacate here
  case current =>
    intro other member
    exact tracks.current other ((tracks.table.mem_vacate here).mp member).1
  case numbered => exact tracks.numbered_queueChange fun _ => Change.noConfusion

theorem advances_vacate (scene : Scene) (entrySlot : Nat) (id : ShapeId) :
    Advances scene (scene.vacate entrySlot id) :=
  (advances_queueChange scene (.remove id)).of_eq rfl rfl rfl rfl rfl

variable (tracks : scene.Tracks published)

include tracks

theorem Tracks.expire (deadline : Deadline) :
    (scene.expire deadline).Tracks published ∧ Advances scene (scene.expire deadline) := by
  unfold Scene.expire
  split
  · rename_i record here
    split
    · exact ⟨tracks.vacate here, advances_vacate _ _ _⟩
    · exact ⟨tracks, Advances.refl scene⟩
  · exact ⟨tracks, Advances.refl scene⟩

theorem Tracks.foldl_expire (deadlines : List Deadline) :
    (deadlines.foldl Scene.expire scene).Tracks published ∧
      Advances scene (deadlines.foldl Scene.expire scene) := by
  induction deadlines generalizing scene with
  | nil => exact ⟨tracks, Advances.refl scene⟩
  | cons deadline rest later =>
    rcases tracks.expire deadline with ⟨expired, advances⟩
    rcases later expired with ⟨final, further⟩
    exact ⟨final, advances.trans further⟩

theorem Tracks.drainExpired (now : Milliseconds) :
    (scene.drainExpired now).Tracks published ∧ Advances scene (scene.drainExpired now) := by
  rcases tracks.foldl_expire (scene.deadlines.takeWhile fun deadline =>
    deadline.expiresAt ≤ now) with ⟨expired, advances⟩
  exact ⟨expired.deadlines _, advances.of_eq rfl rfl rfl rfl rfl⟩

/-- The deltas that were queued are published, and the queue is empty. -/
theorem Tracks.emptied :
    Tracks (published ++ scene.pendingDeltas)
      { scene with pendingDeltas := [], publicationCursor := 0, publishing := false } := by
  constructor
  case mirrors =>
    intro record
    rw [append_nil]
    exact tracks.mirrors record
  case table => exact tracks.table
  case current => exact tracks.current
  case numbered =>
    rw [append_nil]
    exact tracks.numbered

omit tracks

/-- A scene looks whether it has to be published; nothing else of it changes. -/
theorem beginPublication_cases (scene : Scene) :
    scene.beginPublication = { scene with publishing := scene.beginPublication.publishing } ∧
      (scene.beginPublication.publishing = false →
        scene.publishing = false ∧ scene.publicationCursor = scene.pendingDeltas.length) ∧
      (scene.publishing = true → scene.beginPublication.publishing = true) := by
  unfold beginPublication
  split
  · rename_i stays
    refine ⟨rfl, ?_, id⟩
    intro quiet
    rw [quiet] at stays
    exact ⟨quiet, stays.resolve_left Bool.false_ne_true⟩
  · exact ⟨rfl, nofun, fun _ => rfl⟩

theorem takeDelta_some (found : scene.pendingDeltas[scene.publicationCursor]? = some delta) :
    scene.takeDelta =
      ({ scene with publicationCursor := scene.publicationCursor + 1 }, some delta) := by
  unfold takeDelta
  rw [found]

theorem takeDelta_none (found : scene.pendingDeltas[scene.publicationCursor]? = none) :
    scene.takeDelta =
      ({ scene with pendingDeltas := [], publicationCursor := 0, publishing := false }, none) := by
  unfold takeDelta
  rw [found]

/-! ## Operations -/

/-- A record was put into an entry, and nothing was queued yet. -/
structure Places (scene : Scene) (record : ShapeRecord) (placed : Scene) : Prop where
  holds : ∀ other, some other ∈ placed.entries ↔
    other = record ∨ some other ∈ scene.entries ∧ other.id ≠ record.id
  table : SlotTable ShapeRecord.id placed.entries placed.freeSlots
  current : record.id.epoch = scene.epoch ∧ record.id.slot < placed.nextShapeSlot
  slots : scene.nextShapeSlot ≤ placed.nextShapeSlot
  pendingDeltas : placed.pendingDeltas = scene.pendingDeltas
  epoch : placed.epoch = scene.epoch
  revision : placed.revision = scene.revision
  cursor : placed.publicationCursor = scene.publicationCursor
  publishing : placed.publishing = scene.publishing

theorem insertDeadline_eq (scene : Scene) (record : ShapeRecord) (entrySlot : Nat) :
    ∃ deadlines, scene.insertDeadline record entrySlot = { scene with deadlines := deadlines } := by
  unfold insertDeadline
  split
  · exact ⟨scene.deadlines, rfl⟩
  · exact ⟨_, rfl⟩

variable {record : ShapeRecord} {placed : Scene} {id : ShapeId}

include tracks

theorem Tracks.queue_placed (places : Places scene record placed) (deadlines : List Deadline) :
    Tracks published ({ placed with deadlines := deadlines }.queueChange (.upsert record)) ∧
      Advances scene ({ placed with deadlines := deadlines }.queueChange (.upsert record)) := by
  constructor
  · constructor
    case mirrors =>
      intro other
      change some other ∈ placed.entries ↔
        other ∈ replay (published ++ (placed.pendingDeltas ++ [_]))
      rw [← append_assoc, replay_concat, mem_applyChange_upsert, places.holds,
        places.pendingDeltas, tracks.mirrors]
    case table => exact places.table
    case current =>
      intro other member
      change other.id.epoch = placed.epoch ∧ other.id.slot < placed.nextShapeSlot
      rw [places.epoch]
      rcases (places.holds other).mp member with rfl | ⟨old, _⟩
      · exact places.current
      · rcases tracks.current other old with ⟨sameEpoch, below⟩
        exact ⟨sameEpoch, Nat.lt_of_lt_of_le below places.slots⟩
    case numbered =>
      change Numbered
        (published ++ (placed.pendingDeltas ++ [⟨placed.epoch, placed.revision + 1, _⟩]))
        placed.epoch (placed.revision + 1)
      rw [places.pendingDeltas, places.epoch, places.revision]
      exact tracks.numbered_queueChange fun _ => Change.noConfusion
  · apply (advances_queueChange scene (.upsert record)).of_eq
    · change placed.pendingDeltas ++ [⟨placed.epoch, placed.revision + 1, _⟩] = _
      rw [places.pendingDeltas, places.epoch, places.revision]
      rfl
    · exact places.epoch
    · change placed.revision + 1 = _
      rw [places.revision]
      rfl
    · exact places.cursor
    · exact places.publishing

theorem Tracks.store (places : Places scene record placed) (entrySlot : Nat) (now : Milliseconds) :
    (placed.store entrySlot record now).Tracks published ∧
      Advances scene (placed.store entrySlot record now) := by
  rcases insertDeadline_eq placed record entrySlot with ⟨deadlines, inserted⟩
  rcases tracks.queue_placed places deadlines with ⟨queued, advances⟩
  unfold Scene.store
  rw [inserted]
  split
  · rcases queued.drainExpired now with ⟨drained, further⟩
    exact ⟨drained, advances.trans further⟩
  · exact ⟨queued, advances⟩

/-- The slot of a new record was not given out in this epoch. -/
theorem Tracks.fresh (shape : Shape) (now : Milliseconds) (held : ShapeRecord)
    (member : some held ∈ scene.entries) : held.id ≠ (scene.newRecord shape now).id := by
  intro same
  have below := (tracks.current held member).2
  rw [same] at below
  exact Nat.lt_irrefl _ below

theorem Tracks.addEntry (shape : Shape) (now : Milliseconds) :
    (scene.addEntry shape now).1.Tracks published ∧
      Advances scene (scene.addEntry shape now).1 := by
  have fresh := tracks.fresh shape now
  have new : ∀ other : ShapeRecord,
      (other = scene.newRecord shape now ∨ some other ∈ scene.entries) ↔
        other = scene.newRecord shape now ∨
          some other ∈ scene.entries ∧ other.id ≠ (scene.newRecord shape now).id := by
    intro other
    constructor
    · rintro (rfl | member)
      · exact .inl rfl
      · exact .inr ⟨member, fresh other member⟩
    · rintro (rfl | ⟨member, _⟩)
      · exact .inl rfl
      · exact .inr member
  unfold Scene.addEntry
  split
  · exact ⟨tracks, Advances.refl scene⟩
  split
  · rename_i entrySlot last
    apply tracks.store
    have vacant := tracks.table.vacant entrySlot (mem_of_getLast? last)
    constructor
    case holds =>
      intro other
      rw [SlotTable.mem_fill vacant, new]
    case table => exact tracks.table.reuse last fresh
    case current => exact ⟨rfl, Nat.lt_succ_self _⟩
    case slots => exact Nat.le_succ _
    all_goals rfl
  · split
    · exact ⟨tracks, Advances.refl scene⟩
    · apply tracks.store
      constructor
      case holds =>
        intro other
        rw [mem_append, mem_singleton, Option.some.injEq, or_comm, new]
      case table => exact tracks.table.append fresh
      case current => exact ⟨rfl, Nat.lt_succ_self _⟩
      case slots => exact Nat.le_succ _
      all_goals rfl

omit tracks

/-- What is found is live. -/
theorem find_spec (found : scene.find id = some entrySlot) :
    ∃ record, scene.entries[entrySlot]? = some (some record) ∧ record.id = id := by
  unfold find liveEntrySlot at found
  split at found
  · rw [findIdx?_eq_some_iff_getElem] at found
    rcases found with ⟨inside, isLive, _⟩
    split at isLive
    · rename_i record here
      refine ⟨record, ?_, by simpa using isLive⟩
      rw [getElem?_eq_getElem inside, here]
    · cases isLive
  · cases found

include tracks

theorem Tracks.updateEntry (found : scene.find id = some entrySlot) (shape : Shape)
    (now : Milliseconds) : (scene.updateEntry entrySlot id shape now).Tracks published ∧
      Advances scene (scene.updateEntry entrySlot id shape now) := by
  unfold Scene.updateEntry
  rcases find_spec found with ⟨old, here, rfl⟩
  rw [here]
  apply tracks.store
  constructor
  case holds =>
    intro other
    exact tracks.table.mem_replace here rfl
  case table => exact tracks.table.replace here rfl
  case current => exact tracks.current old (SlotTable.mem_cells_iff.mpr ⟨entrySlot, here⟩)
  case slots => exact Nat.le_refl _
  all_goals rfl

variable (now : Milliseconds)

/-- The scene after clearing, with the clear queued in its new epoch. -/
theorem Tracks.clear :
    ∃ locked, scene.clear now = locked.beginPublication ∧ locked.Tracks published ∧
      Advances scene locked := by
  rcases tracks.drainExpired now with ⟨drained, advances⟩
  refine ⟨_, rfl, ?_, ?_⟩
  · constructor
    case mirrors =>
      intro record
      change some record ∈ (scene.drainExpired now).entries.map (fun _ => none) ↔
        record ∈ replay (published ++ ((scene.drainExpired now).pendingDeltas ++ [_]))
      rw [← append_assoc, replay_concat]
      simp [applyChange]
    case table => exact SlotTable.clear _
    case current =>
      intro record member
      simp [queueChange] at member
    case numbered =>
      change Numbered (published ++ ((scene.drainExpired now).pendingDeltas ++ [_])) _ _
      rw [← append_assoc]
      exact .clear drained.numbered
  · apply advances.trans
    constructor
    case queued =>
      refine ⟨_, rfl, ?_⟩
      intro delta member
      rw [mem_singleton.mp member, ← Bool.not_eq_true, upTo_iff]
      dsimp only
      omega
    case reached => exact .inl (Nat.lt_succ_self _)
    case cursor => rfl
    case publishing => rfl

theorem Tracks.add (shape : Shape) :
    ∃ locked, (scene.add now shape).1 = locked.beginPublication ∧ locked.Tracks published ∧
      Advances scene locked := by
  rcases tracks.drainExpired now with ⟨drained, advances⟩
  unfold Scene.add
  split
  · rcases drained.addEntry shape now with ⟨added, further⟩
    exact ⟨_, rfl, added, advances.trans further⟩
  · exact ⟨_, rfl, drained, advances⟩

theorem Tracks.update (id : ShapeId) (shape : Shape) :
    ∃ locked, (scene.update now id shape).1 = locked.beginPublication ∧ locked.Tracks published ∧
      Advances scene locked := by
  rcases tracks.drainExpired now with ⟨drained, advances⟩
  unfold Scene.update
  dsimp only
  split
  · exact ⟨_, rfl, drained, advances⟩
  rename_i entrySlot found
  split
  · rcases drained.updateEntry found shape now with ⟨updated, further⟩
    exact ⟨_, rfl, updated, advances.trans further⟩
  · exact ⟨_, rfl, drained, advances⟩

theorem Tracks.remove (id : ShapeId) :
    ∃ locked, (scene.remove now id).1 = locked.beginPublication ∧ locked.Tracks published ∧
      Advances scene locked := by
  rcases tracks.drainExpired now with ⟨drained, advances⟩
  unfold Scene.remove
  dsimp only
  split
  · exact ⟨_, rfl, drained, advances⟩
  rename_i entrySlot found
  rcases find_spec found with ⟨record, here, rfl⟩
  have vacated : (((scene.drainExpired now).removeDeadline record.id).vacate entrySlot
      record.id).Tracks published :=
    (drained.deadlines _).vacate here
  have further : Advances (scene.drainExpired now)
      (((scene.drainExpired now).removeDeadline record.id).vacate entrySlot record.id) :=
    (advances_vacate (scene.drainExpired now) entrySlot record.id).of_eq rfl rfl rfl rfl rfl
  exact ⟨_, rfl, vacated, advances.trans further⟩

/-- A snapshot holds what the deltas queued so far replay. -/
theorem Tracks.snapshot :
    ∃ locked, (scene.snapshot now).1 = locked.beginPublication ∧ locked.Tracks published ∧
      Advances scene locked ∧ (scene.snapshot now).2.epoch = locked.epoch ∧
      (scene.snapshot now).2.throughRevision = locked.revision ∧
      (scene.snapshot now).2.shapes.Perm (replay (published ++ locked.pendingDeltas)) := by
  rcases tracks.drainExpired now with ⟨drained, advances⟩
  refine ⟨_, rfl, drained, advances, rfl, rfl, ?_⟩
  have same : ∀ record, record ∈ (scene.drainExpired now).live ↔
      record ∈ replay (published ++ (scene.drainExpired now).pendingDeltas) := by
    intro record
    rw [live, reduceOption_mem_iff]
    exact drained.mirrors record
  apply (mergeSort_perm _ _).trans
  exact (perm_ext_iff_of_nodup drained.table.nodup (nodup_replay _)).mpr same

end

end Scene

end Grab.Overlay
