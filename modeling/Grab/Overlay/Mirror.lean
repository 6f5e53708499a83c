import Grab.Overlay.Rule

/-!
# The delegate mirrors the scene

While the service is in step with its delegate, the delegate shows the shapes of the scene as they
are, transformed into its space.  After a delta that the delegate refused nothing reaches it before
a whole snapshot does.
-/

namespace Grab.Overlay

open Grab.Lib List Bool

/-! ## Transforming what is replayed -/

namespace Setting

variable {setting : Setting} {record transformed : ShapeRecord}

/-- The record the delegate gets for one of the scene. -/
def image (setting : Setting) (record : ShapeRecord) : ShapeRecord :=
  match setting.transformRecord record with
  | .ok transformed => transformed
  | .error _ => record

variable (isTransformed : setting.transformRecord record = .ok transformed)

include isTransformed

theorem transformRecord_id : transformed.id = record.id := by
  unfold transformRecord at isTransformed
  cases shape : setting.transformShape record.shape with
  | error error =>
    rw [shape] at isTransformed
    cases isTransformed
  | ok value =>
    rw [shape] at isTransformed
    cases isTransformed
    rfl

theorem image_eq : setting.image record = transformed := by
  unfold image
  rw [isTransformed]

omit isTransformed

@[simp]
theorem image_id (record : ShapeRecord) : (setting.image record).id = record.id := by
  unfold image
  split
  · rename_i transformed isTransformed
    exact transformRecord_id isTransformed
  · rfl

theorem filter_map_image (records : List ShapeRecord) (id : ShapeId) :
    (records.map setting.image).filter (fun other => other.id != id) =
      (records.filter fun other => other.id != id).map setting.image := by
  rw [filter_map]
  congr 2
  funext record
  rw [Function.comp_apply, image_id]

/-- A list of records that can all be transformed. -/
theorem mapM_transformRecord {records : List ShapeRecord}
    (transforms : ∀ record ∈ records, ∃ transformed,
      setting.transformRecord record = .ok transformed) :
    records.mapM setting.transformRecord = .ok (records.map setting.image) := by
  induction records with
  | nil => rfl
  | cons record rest later =>
    rcases transforms record mem_cons_self with ⟨transformed, isTransformed⟩
    have others := later fun other member => transforms other (mem_cons_of_mem _ member)
    rw [mapM_cons, isTransformed, others, map_cons, image_eq isTransformed]
    rfl

theorem of_mapM_transformRecord {records transformed : List ShapeRecord}
    (isTransformed : records.mapM setting.transformRecord = .ok transformed) :
    transformed = records.map setting.image ∧ ∀ record ∈ records, ∃ image,
      setting.transformRecord record = .ok image := by
  induction records generalizing transformed with
  | nil =>
    cases isTransformed
    exact ⟨rfl, forall_mem_nil _⟩
  | cons record rest later =>
    rw [mapM_cons] at isTransformed
    cases first : setting.transformRecord record with
    | error error =>
      rw [first] at isTransformed
      cases isTransformed
    | ok image =>
      rw [first] at isTransformed
      cases others : rest.mapM setting.transformRecord with
      | error error =>
        rw [others] at isTransformed
        cases isTransformed
      | ok images =>
        rw [others] at isTransformed
        cases isTransformed
        rcases later others with ⟨rfl, restTransforms⟩
        refine ⟨by rw [map_cons, image_eq first], ?_⟩
        intro other member
        rcases mem_cons.mp member with rfl | inRest
        · exact ⟨image, first⟩
        · exact restTransforms other inRest

end Setting

/-- The epoch and the revision that some deltas reach. -/
def lastNumber (deltas : List SceneDelta) : Nat × Nat :=
  match deltas.getLast? with
  | none => (0, 0)
  | some delta => (delta.epoch, delta.revision)

theorem lastNumber_concat (deltas : List SceneDelta) (delta : SceneDelta) :
    lastNumber (deltas ++ [delta]) = (delta.epoch, delta.revision) := by
  unfold lastNumber
  rw [getLast?_concat]

theorem Numbered.lastNumber_eq {deltas : List SceneDelta} {epoch revision : Nat}
    (numbered : Numbered deltas epoch revision) : lastNumber deltas = (epoch, revision) := by
  cases numbered with
  | nil => rfl
  | change earlier notClear | clear earlier => exact lastNumber_concat _ _

/-- A mirror shows what some deltas replay. -/
structure Follows (setting : Setting) (deltas : List SceneDelta) (mirror : SceneSnapshot) :
    Prop where
  number : (mirror.epoch, mirror.throughRevision) = lastNumber deltas
  shapes : mirror.shapes.Perm ((replay deltas).map setting.image)
  transforms : ∀ record ∈ replay deltas, ∃ transformed,
    setting.transformRecord record = .ok transformed

/-- A snapshot of the scene behind some deltas. -/
def Current (deltas : List SceneDelta) (snapshot : SceneSnapshot) : Prop :=
  (snapshot.epoch, snapshot.throughRevision) = lastNumber deltas ∧
    snapshot.shapes.Perm (replay deltas)

variable {setting : Setting} {deltas : List SceneDelta} {mirror : SceneSnapshot}

/-- The transformed delta does to the mirror what the delta does to the scene. -/
theorem Follows.concat {delta transformed : SceneDelta} (follows : Follows setting deltas mirror)
    (isTransformed : setting.transformDelta delta = .ok transformed) :
    Follows setting (deltas ++ [delta]) (Service.mirrored mirror transformed) := by
  rcases delta with ⟨epoch, revision, change⟩
  cases change with
  | upsert record =>
    simp only [Setting.transformDelta] at isTransformed
    cases first : setting.transformRecord record with
    | error error =>
      rw [first] at isTransformed
      cases isTransformed
    | ok image =>
      rw [first] at isTransformed
      cases isTransformed
      constructor
      case number =>
        rw [lastNumber_concat]
        rfl
      case shapes =>
        rw [replay_concat]
        simp only [applyChange, Service.mirrored, map_append, map_cons, map_nil,
          Setting.image_eq first, Setting.transformRecord_id first]
        rw [← Setting.filter_map_image]
        exact (follows.shapes.filter _).append_right _
      case transforms =>
        intro other member
        rw [replay_concat, mem_applyChange_upsert] at member
        rcases member with rfl | ⟨old, _⟩
        · exact ⟨image, first⟩
        · exact follows.transforms other old
  | remove id =>
    cases isTransformed
    constructor
    case number =>
      rw [lastNumber_concat]
      rfl
    case shapes =>
      rw [replay_concat]
      simp only [applyChange, Service.mirrored]
      rw [← Setting.filter_map_image]
      exact follows.shapes.filter _
    case transforms =>
      intro other member
      rw [replay_concat, mem_applyChange_remove] at member
      exact follows.transforms other member.1
  | clear newEpoch =>
    cases isTransformed
    constructor
    case number =>
      rw [lastNumber_concat]
      rfl
    case shapes =>
      rw [replay_concat]
      exact Perm.refl _
    case transforms =>
      intro other member
      rw [replay_concat] at member
      cases member

/-- A transformed snapshot of the scene is a mirror of it. -/
theorem Current.follows {snapshot transformed : SceneSnapshot} (current : Current deltas snapshot)
    (isTransformed : setting.transformSnapshot snapshot = .ok transformed) :
    Follows setting deltas transformed := by
  unfold Setting.transformSnapshot at isTransformed
  cases shapes : snapshot.shapes.mapM setting.transformRecord with
  | error error =>
    rw [shapes] at isTransformed
    cases isTransformed
  | ok images =>
    rw [shapes] at isTransformed
    cases isTransformed
    rcases Setting.of_mapM_transformRecord shapes with ⟨rfl, transforms⟩
    constructor
    case number => exact current.1
    case shapes => exact current.2.map _
    case transforms =>
      intro record member
      exact transforms record (current.2.mem_iff.mpr member)

/-! ## What the delegate was asked -/

/-- A delta was refused, and no snapshot was accepted since. -/
def unhealed (traffic : List Traffic) : Bool :=
  traffic.foldl (fun broken call =>
    match call with
    | .applyFailed _ => true
    | .resynced _ => false
    | _ => broken) false

/-- No delta was accepted behind a refused one without a snapshot in between. -/
def Healthy (traffic : List Traffic) : Prop :=
  ∀ before delta after, traffic = before ++ .applied delta :: after → unhealed before = false

theorem unhealed_concat (traffic : List Traffic) (call : Traffic) :
    unhealed (traffic ++ [call]) =
      match call with
      | .applyFailed _ => true
      | .resynced _ => false
      | _ => unhealed traffic :=
  foldl_concat ..

theorem Healthy.concat {traffic : List Traffic} {call : Traffic} (healthy : Healthy traffic)
    (accepted : ∀ delta, call = .applied delta → unhealed traffic = false) :
    Healthy (traffic ++ [call]) := by
  intro before delta after split
  rcases append_eq_append_iff.mp split with
    ⟨shared, isBefore, isAfter⟩ | ⟨shared, isTraffic, isAfter⟩
  · cases shared with
    | nil =>
      rw [append_nil] at isBefore
      rw [isBefore]
      exact accepted delta (cons.inj isAfter).1
    | cons first rest =>
      have tooLong := congrArg List.length isAfter
      simp only [length_cons, length_append, length_nil] at tooLong
      omega
  · cases shared with
    | nil =>
      rw [append_nil] at isTraffic
      rw [← isTraffic]
      exact accepted delta (cons.inj isAfter).1.symm
    | cons first rest =>
      rw [cons_append, cons.injEq] at isAfter
      rcases isAfter with ⟨rfl, _⟩
      exact healthy before delta rest isTraffic

namespace Service

/-- The delegate is behind some deltas, or the service knows that it is not. -/
structure Channel (setting : Setting) (deltas : List SceneDelta) (service : Service) : Prop where
  follows : service.desynchronized = false → Follows setting deltas service.delegate.mirror
  healthy : Healthy service.delegate.traffic
  broken : unhealed service.delegate.traffic = true → service.desynchronized = true

/-- No delta is queued, and the delegate is behind all of them. -/
structure Synced (setting : Setting) (deltas : List SceneDelta) (service : Service) : Prop where
  tracks : service.scene.Tracks deltas
  pendingDeltas : service.scene.pendingDeltas = []
  cursor : service.scene.publicationCursor = 0
  publishing : service.scene.publishing = false
  channel : Channel setting deltas service

/-- The service between two operations. -/
def InStep (setting : Setting) (service : Service) : Prop := ∃ deltas, Synced setting deltas service

variable {service : Service} {snapshot : SceneSnapshot} {α : Type}
  {operation : Milliseconds → Scene → Scene × α}

theorem Channel.desynchronize (channel : Channel setting deltas service)
    (deltas : List SceneDelta) :
    Channel setting deltas { service with desynchronized := true } where
  follows impossible := Bool.noConfusion impossible
  healthy := channel.healthy
  broken _ := rfl

/-- The sink passes a delta on, or the service knows that it did not. -/
theorem publish_channel (scene : Scene) (delta : SceneDelta) :
    Ensures (fun service => service.scene = scene ∧ Channel setting deltas service)
      (publish setting delta)
      fun _ service => service.scene = scene ∧ Channel setting (deltas ++ [delta]) service := by
  unfold publish
  apply Ensures.get_bind
  rintro current ⟨isScene, channel⟩
  split
  · rename_i desynchronized
    apply Ensures.pure
    rintro _ rfl
    refine ⟨isScene, ?_, channel.healthy, channel.broken⟩
    intro inStep
    rw [desynchronized] at inStep
    cases inStep
  · rename_i inStep
    rw [not_eq_true] at inStep
    split
    · apply Ensures.modify
      rintro _ rfl
      exact ⟨isScene, channel.desynchronize _⟩
    rename_i transformed isTransformed
    have whole : unhealed current.delegate.traffic = false := by
      cases broken : unhealed current.delegate.traffic with
      | false => rfl
      | true => exact absurd (channel.broken broken) (by rw [inStep]; exact false_ne_true)
    apply ask_bind
    · rintro _ rfl _
      apply Ensures.pure
      rintro _ rfl
      refine ⟨isScene, ?_, ?_, ?_⟩
      · intro _
        exact (channel.follows inStep).concat isTransformed
      · exact channel.healthy.concat fun _ _ => whole
      · intro broken
        rw [unhealed_concat, whole] at broken
        cases broken
    · rintro _ error rfl _
      apply Ensures.modify
      rintro _ rfl
      refine ⟨isScene, ?_, ?_, ?_⟩
      · nofun
      · exact channel.healthy.concat fun _ => Traffic.noConfusion
      · exact fun _ => rfl

/-- Publishing the rest of the queue. -/
theorem drainPublications_synced (published all rest : List SceneDelta) :
    Ensures (fun service => service.scene.Tracks published ∧
        published ++ service.scene.pendingDeltas = all ∧
        service.scene.pendingDeltas.drop service.scene.publicationCursor = rest ∧
        Channel setting
          (published ++ service.scene.pendingDeltas.take service.scene.publicationCursor) service)
      (drainPublications setting rest) fun _ => Synced setting all := by
  induction rest with
  | nil =>
    apply Ensures.modify
    rintro service ⟨tracks, rfl, atEnd, channel⟩
    have none := drop_eq_nil_iff.mp atEnd
    rw [take_of_length_le none] at channel
    rw [Scene.takeDelta_none (List.getElem?_eq_none_iff.mpr none)]
    exact ⟨tracks.emptied, rfl, rfl, rfl, channel.follows, channel.healthy, channel.broken⟩
  | cons delta rest later =>
    unfold drainPublications
    refine Ensures.bind (fun _ service => ∃ front scene, service.scene = scene ∧
      scene.Tracks published ∧ published ++ scene.pendingDeltas = all ∧
      scene.pendingDeltas.drop scene.publicationCursor = rest ∧
      front ++ [delta] = published ++ scene.pendingDeltas.take scene.publicationCursor ∧
      Channel setting front service) ?_ ?_
    · apply Ensures.modify
      rintro service ⟨tracks, isAll, isRest, channel⟩
      have found : service.scene.pendingDeltas[service.scene.publicationCursor]? = some delta := by
        rw [← head?_drop, isRest, head?_cons]
      rw [Scene.takeDelta_some found]
      refine ⟨_, _, rfl, ⟨tracks.mirrors, tracks.table, tracks.current, tracks.numbered⟩, isAll,
        ?_, ?_, channel.follows, channel.healthy, channel.broken⟩
      · dsimp only
        rw [← tail_drop, isRest, tail_cons]
      · dsimp only
        rw [take_add_one, found, Option.toList_some, append_assoc]
    · intro _
      apply Ensures.of_forall
      rintro before ⟨front, scene, isScene, tracks, isAll, isRest, isFront, channel⟩
      refine Ensures.bind (fun _ service =>
        service.scene = scene ∧ Channel setting (front ++ [delta]) service) ?_ ?_
      · refine (publish_channel scene delta).strengthen ?_
        rintro _ rfl
        exact ⟨isScene, channel⟩
      intro _
      refine later.strengthen ?_
      rintro service ⟨rfl, after⟩
      exact ⟨tracks, isAll, isRest, isFront ▸ after⟩

/-- An operation of the scene that queues what it does. -/
def Queues {α : Type} (operation : Milliseconds → Scene → Scene × α)
    (result : α → List SceneDelta → Prop) : Prop :=
  ∀ now scene published, scene.Tracks published →
    ∃ locked, (operation now scene).1 = locked.beginPublication ∧ locked.Tracks published ∧
      scene.Advances locked ∧ result (operation now scene).2 (published ++ locked.pendingDeltas)

/-- After an operation of the scene and its publication the service is in step again. -/
theorem onScene_synced {result : α → List SceneDelta → Prop} (queues : Queues operation result) :
    Ensures (InStep setting) (onScene setting operation)
      fun value service => ∃ deltas, Synced setting deltas service ∧ result value deltas := by
  unfold onScene
  refine Ensures.bind (fun _ => InStep setting) ?_ ?_
  · apply Ensures.modifyGet
    rintro service ⟨deltas, synced⟩
    exact ⟨deltas, synced.tracks, synced.pendingDeltas, synced.cursor, synced.publishing,
      synced.channel.follows, synced.channel.healthy, synced.channel.broken⟩
  intro now
  apply Ensures.get_bind
  rintro before ⟨published, synced⟩
  rcases queues now before.scene published synced.tracks with
    ⟨locked, isLocked, tracks, advances, holds⟩
  rcases locked.beginPublication_cases with ⟨begun, quiet, _⟩
  have cursor : locked.publicationCursor = 0 := advances.cursor.trans synced.cursor
  refine Ensures.bind (fun value service => value = (operation now before.scene).2 ∧
    service = { before with scene := locked.beginPublication }) ?_ ?_
  · apply Ensures.modifyGet
    rintro _ rfl
    exact ⟨rfl, by rw [isLocked]⟩
  intro value
  apply Ensures.get_bind
  rintro after ⟨rfl, rfl⟩
  refine Ensures.bind (fun _ => Synced setting (published ++ locked.pendingDeltas)) ?_ ?_
  · unfold onlyIf
    split
    · refine (drainPublications_synced published (published ++ locked.pendingDeltas)
        _).strengthen ?_
      rintro _ rfl
      rw [begun]
      refine ⟨⟨tracks.mirrors, tracks.table, tracks.current, tracks.numbered⟩, rfl, rfl, ?_⟩
      rw [cursor, take_zero, append_nil]
      exact ⟨synced.channel.follows, synced.channel.healthy, synced.channel.broken⟩
    · rename_i notBegun
      apply Ensures.pure
      rintro _ rfl
      have still : locked.beginPublication.publishing = false := by
        simpa [synced.publishing] using notBegun
      have empty : locked.pendingDeltas = [] := by
        rw [← length_eq_zero_iff, ← (quiet still).2, cursor]
      have same : published ++ locked.pendingDeltas = published := by
        rw [empty, append_nil]
      constructor
      case tracks =>
        rw [begun, same]
        exact ⟨tracks.mirrors, tracks.table, tracks.current, tracks.numbered⟩
      case pendingDeltas =>
        rw [begun]
        exact empty
      case cursor =>
        rw [begun]
        exact cursor
      case publishing => exact still
      case channel =>
        rw [same]
        exact ⟨synced.channel.follows, synced.channel.healthy, synced.channel.broken⟩
  · intro _
    apply Ensures.pure
    intro service after
    exact ⟨_, after, holds⟩

theorem onScene_inStep (queues : ∀ {now scene published}, scene.Tracks published →
      ∃ locked, (operation now scene).1 = locked.beginPublication ∧ locked.Tracks published ∧
        scene.Advances locked) : Keeps (InStep setting) (onScene setting operation) := by
  have silent : Queues operation fun _ _ => True := by
    intro now scene published tracks
    rcases queues tracks with ⟨locked, isLocked, after, advances⟩
    exact ⟨locked, isLocked, after, advances, trivial⟩
  exact (onScene_synced silent).weaken fun _ _ ⟨deltas, synced, _⟩ => ⟨deltas, synced⟩

theorem sceneAdd_inStep (shape : Shape) : Keeps (InStep setting) (sceneAdd setting shape) :=
  onScene_inStep fun tracks => tracks.add _ shape

theorem sceneUpdate_inStep (id : ShapeId) (shape : Shape) :
    Keeps (InStep setting) (sceneUpdate setting id shape) :=
  onScene_inStep fun tracks => tracks.update _ id shape

theorem sceneRemove_inStep (id : ShapeId) : Keeps (InStep setting) (sceneRemove setting id) :=
  onScene_inStep fun tracks => tracks.remove _ id

theorem sceneClear_inStep : Keeps (InStep setting) (sceneClear setting) :=
  onScene_inStep fun tracks => tracks.clear _

/-- In step, with a snapshot of the scene as it is. -/
def InStepWith (setting : Setting) (snapshot : SceneSnapshot) (service : Service) : Prop :=
  ∃ deltas, Synced setting deltas service ∧ Current deltas snapshot

theorem sceneSnapshot_current :
    Ensures (InStep setting) (sceneSnapshot setting) (InStepWith setting) := by
  have queues : Queues (fun now scene => scene.snapshot now) fun snapshot deltas =>
      Current deltas snapshot := by
    intro now scene published tracks
    rcases tracks.snapshot now with ⟨locked, isLocked, after, advances, epoch, revision, same⟩
    refine ⟨locked, isLocked, after, advances, ?_, same⟩
    rw [after.numbered.lastNumber_eq, epoch, revision]
  exact onScene_synced queues

theorem InStepWith.inStep (inStep : InStepWith setting snapshot service) :
    InStep setting service := by
  rcases inStep with ⟨deltas, synced, _⟩
  exact ⟨deltas, synced⟩

theorem sceneSnapshot_inStep : Keeps (InStep setting) (sceneSnapshot setting) :=
  sceneSnapshot_current.weaken fun _ _ => InStepWith.inStep

/-- What is known of the delegate once the service does not rely on it. -/
theorem InStepWith.desynchronize (inStep : InStepWith setting snapshot service)
    (delegate : Delegate) (calls : Nat) (healthy : Healthy delegate.traffic) :
    InStepWith setting snapshot
      { service with desynchronized := true, delegate := delegate, calls := calls } := by
  rcases inStep with ⟨deltas, synced, current⟩
  refine ⟨deltas, ⟨synced.tracks, synced.pendingDeltas, synced.cursor, synced.publishing, ?_,
    healthy, fun _ => rfl⟩, current⟩
  exact nofun

/-- Recovery leaves the service in step, whether it succeeds or not. -/
theorem recover_inStep (snapshot : SceneSnapshot) :
    Keeps (InStepWith setting snapshot) (recover setting snapshot) := by
  unfold recover
  split
  · refine Ensures.bind (fun _ => InStepWith setting snapshot) ?_ fun _ => Keeps.pure _
    apply Ensures.modify
    intro service inStep
    rcases inStep with ⟨deltas, synced, current⟩
    exact InStepWith.desynchronize ⟨deltas, synced, current⟩ _ _ synced.channel.healthy
  rename_i transformed isTransformed
  apply ask_bind
  · rintro service ⟨deltas, synced, current⟩ _
    refine Ensures.bind (fun _ => InStepWith setting snapshot) ?_ fun _ => Keeps.pure _
    apply Ensures.modify
    rintro _ rfl
    refine ⟨deltas, ⟨synced.tracks, synced.pendingDeltas, synced.cursor, synced.publishing, ?_,
      ?_, ?_⟩, current⟩
    · exact fun _ => current.follows isTransformed
    · exact synced.channel.healthy.concat fun _ => Traffic.noConfusion
    · intro broken
      rw [unhealed_concat] at broken
      cases broken
  · rintro service error ⟨deltas, synced, current⟩ _
    refine Ensures.bind (fun _ => InStepWith setting snapshot) ?_ fun _ => Keeps.pure _
    apply Ensures.modify
    rintro _ rfl
    exact InStepWith.desynchronize ⟨deltas, synced, current⟩ _ _
      (synced.channel.healthy.concat fun _ => Traffic.noConfusion)

theorem fence_inStep (snapshot : SceneSnapshot) :
    Keeps (InStepWith setting snapshot) (fence setting snapshot) := by
  -- A fence that failed leaves anything, and the service then stops relying on it.
  have failed : ∀ service : Service, InStepWith setting snapshot service → ∀ mirror calls,
      InStepWith setting snapshot { service with
        desynchronized := true, delegate := { service.delegate with mirror := mirror },
        calls := calls } := by
    rintro service ⟨deltas, synced, current⟩ mirror calls
    exact InStepWith.desynchronize ⟨deltas, synced, current⟩ _ _ synced.channel.healthy
  have passed : ∀ service : Service, InStepWith setting snapshot service → ∀ calls,
      InStepWith setting snapshot { service with calls := calls } := by
    rintro service ⟨deltas, synced, current⟩ calls
    exact ⟨deltas, ⟨synced.tracks, synced.pendingDeltas, synced.cursor, synced.publishing,
      synced.channel.follows, synced.channel.healthy, synced.channel.broken⟩, current⟩
  unfold fence
  apply ask_bind
  · intro service inStep _
    apply Ensures.pure
    rintro _ rfl
    exact passed service inStep _
  intro service error inStep _
  refine Ensures.bind (fun _ => InStepWith setting snapshot) ?_ fun _ => ?_
  · apply Ensures.modify
    rintro _ rfl
    exact failed service inStep _ _
  refine Ensures.bind (fun _ => InStepWith setting snapshot) (recover_inStep snapshot) ?_
  intro recovered
  cases recovered with
  | error error => exact Keeps.pure _
  | ok value =>
    apply ask_bind
    · intro service inStep _
      apply Ensures.pure
      rintro _ rfl
      exact passed service inStep _
    intro service error inStep _
    refine Ensures.bind (fun _ => InStepWith setting snapshot) ?_ fun _ => Keeps.pure _
    apply Ensures.modify
    rintro _ rfl
    exact failed service inStep _ _

theorem recoverBestEffort_inStep : Keeps (InStep setting) (recoverBestEffort setting) := by
  unfold recoverBestEffort
  refine Keeps.get.bind fun service => Keeps.ite ?_ (Keeps.pure _)
  refine Ensures.bind _ sceneSnapshot_current fun snapshot => ?_
  exact (recover_inStep snapshot).weaken fun _ _ => InStepWith.inStep

/-! ## What does not concern the scene -/

/-- Only the scene, the flag and what the delegate was asked count. -/
theorem InStep.of_eq {before after : Service} (inStep : InStep setting before)
    (scene : after.scene = before.scene)
    (desynchronized : after.desynchronized = before.desynchronized)
    (mirror : after.delegate.mirror = before.delegate.mirror)
    (traffic : after.delegate.traffic = before.delegate.traffic) : InStep setting after := by
  rcases inStep with ⟨deltas, synced⟩
  refine ⟨deltas, ?_⟩
  constructor
  case tracks => exact scene ▸ synced.tracks
  case pendingDeltas => exact scene ▸ synced.pendingDeltas
  case cursor => exact scene ▸ synced.cursor
  case publishing => exact scene ▸ synced.publishing
  case channel =>
    constructor
    case follows =>
      rw [desynchronized, mirror]
      exact synced.channel.follows
    case healthy => exact traffic ▸ synced.channel.healthy
    case broken =>
      rw [desynchronized, traffic]
      exact synced.channel.broken

/-- Being in step is a matter of the scene, the flag and the mirror. -/
theorem inStepRule : Rule setting (InStep setting) := by
  constructor
  case toEditRule =>
    constructor
    case frame =>
      exact ⟨fun inStep scene flag mirror traffic _ _ => inStep.of_eq scene flag mirror traffic⟩
    case sceneUpdate => exact sceneUpdate_inStep
    case sceneSnapshot => exact sceneSnapshot_inStep
  case captures => exact fun _ => Keeps.modify fun _ inStep => inStep.of_eq rfl rfl rfl rfl
  case sceneAdd => exact sceneAdd_inStep
  case sceneRemove => exact sceneRemove_inStep
  case sceneClear => exact sceneClear_inStep
  case recoverBestEffort => exact recoverBestEffort_inStep
  case flushAfter =>
    intro refreshed
    unfold flush
    refine refreshed.bind fun notification => ?_
    refine Ensures.bind _ sceneSnapshot_current fun snapshot => ?_
    -- The snapshot stays the scene as it is until the fence is through.
    refine Ensures.bind (fun _ => InStepWith setting snapshot) Keeps.get fun service => ?_
    refine Ensures.bind (fun _ => InStepWith setting snapshot)
      (Keeps.ite (recover_inStep snapshot) (Keeps.pure _)) fun recovered => ?_
    refine Ensures.bind (fun _ => InStepWith setting snapshot) ?_ fun result => ?_
    · split
      · exact Keeps.pure _
      · exact fence_inStep snapshot
    · refine Ensures.strengthen ?_ fun _ => InStepWith.inStep
      refine Keeps.bind (Keeps.modify fun _ inStep => ?_) fun _ => Keeps.pure _
      exact inStep.of_eq rfl rfl rfl rfl

/-! ## Whole runs -/

theorem inStep_initial : InStep setting {} := by
  refine ⟨[], ?_⟩
  constructor
  case tracks =>
    exact
      { mirrors := fun record => by simp [replay]
        table := SlotTable.nil
        current := fun record member => absurd member not_mem_nil
        numbered := .nil }
  case channel =>
    constructor
    case follows =>
      intro _
      exact ⟨rfl, Perm.refl _, forall_mem_nil _⟩
    case healthy =>
      intro before delta after split
      cases before <;> cases split
    case broken => exact fun broken => absurd broken false_ne_true
  all_goals rfl

theorem InStep.run (inStep : InStep setting service) (steps : List Step) :
    InStep setting (service.run setting steps) :=
  inStepRule.run_kept inStep steps

end Service

/-- The scene as it is, without looking at the clock. -/
def Scene.asSnapshot (scene : Scene) : SceneSnapshot where
  epoch := scene.epoch
  throughRevision := scene.revision
  shapes := scene.live.mergeSort Scene.paintedBefore

namespace Service

/-- The live records are what the deltas so far come to. -/
theorem Synced.live_perm {service : Service} (synced : Synced setting deltas service) :
    service.scene.live.Perm (replay deltas) := by
  apply (perm_ext_iff_of_nodup synced.tracks.table.nodup (nodup_replay _)).mpr
  intro record
  rw [reduceOption_mem_iff, synced.tracks.mirrors, synced.pendingDeltas, append_nil]

/-- In every run, whatever the delegate refuses: while the service is not marked as out of step the
delegate shows the transformed scene at its revision, and no delta was accepted behind a refused one
before a snapshot was. -/
theorem delegate_mirrors_scene (setting : Setting) (steps : List Step) :
    ((Service.run setting {} steps).desynchronized = false →
      ∃ transformed,
        setting.transformSnapshot (Service.run setting {} steps).scene.asSnapshot =
            .ok transformed ∧
          (Service.run setting {} steps).delegate.mirror.epoch = transformed.epoch ∧
          (Service.run setting {} steps).delegate.mirror.throughRevision =
            transformed.throughRevision ∧
          (Service.run setting {} steps).delegate.mirror.shapes.Perm transformed.shapes) ∧
      Healthy (Service.run setting {} steps).delegate.traffic := by
  have initial : InStep setting {} := inStep_initial
  rcases initial.run steps with ⟨deltas, synced⟩
  refine ⟨?_, synced.channel.healthy⟩
  intro inStep
  have follows := synced.channel.follows inStep
  have numbered := synced.tracks.numbered
  have number := follows.number
  rw [synced.pendingDeltas, append_nil] at numbered
  rw [numbered.lastNumber_eq, Prod.mk.injEq] at number
  have live : (Service.run setting {} steps).scene.asSnapshot.shapes.Perm (replay deltas) :=
    (mergeSort_perm _ _).trans synced.live_perm
  refine ⟨{ (Service.run setting {} steps).scene.asSnapshot with
    shapes := (Service.run setting {} steps).scene.asSnapshot.shapes.map setting.image },
    ?_, number.1, number.2, follows.shapes.trans (live.symm.map _)⟩
  unfold Setting.transformSnapshot
  rw [Setting.mapM_transformRecord]
  · rfl
  · intro record member
    exact follows.transforms record (live.mem_iff.mp member)

end Service

end Grab.Overlay
