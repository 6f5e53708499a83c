import Grab.Overlay.Effects

/-!
# Batches

A batch is all or nothing as far as the transforms of its shapes go.  The scene looks at the shapes
one by one, and those it has accepted before it refuses one stay.
-/

namespace Grab.Overlay

open Grab.Lib List

/-! ## Expiry -/

namespace Scene

variable {scene : Scene}

/-- Nothing but expiry, at some times one after the other. -/
def aged (scene : Scene) (times : List Milliseconds) : Scene := times.foldl drainExpired scene

theorem shrinks_aged (scene : Scene) (times : List Milliseconds) :
    scene.Shrinks (scene.aged times) := by
  induction times generalizing scene with
  | nil => exact Shrinks.of_entries rfl
  | cons time rest ih => exact (shrinks_drainExpired scene time).trans (ih _)

variable {now : Milliseconds} {published : List SceneDelta} {shape : Shape}

/-- What a refused shape leaves is what has not expired. -/
theorem add_refused {error : Error} (refused : (scene.add now shape).2 = .error error) :
    (scene.add now shape).1.core = (scene.drainExpired now).core := by
  unfold add at refused ⊢
  dsimp only at refused ⊢
  rw [core_beginPublication]
  split
  · rename_i valid
    rw [if_pos valid] at refused
    unfold addEntry at refused ⊢
    dsimp only at refused ⊢
    split
    · rfl
    rename_i fits
    rw [if_neg fits] at refused
    split
    · rename_i slot found
      rw [found] at refused
      cases refused
    rename_i none
    rw [none] at refused
    dsimp only at refused
    split
    · rfl
    · rename_i stores
      rw [if_neg stores] at refused
      cases refused
  · rfl

/-! ## Room -/

/-- How many shapes a scene can still take. -/
def room (scene : Scene) : Nat :=
  min (maximumSlot + 1 - scene.nextShapeSlot)
    (scene.freeSlots.length + (maximumSlot + 1 - scene.entries.length))

theorem room_of_core {other : Scene} (same : other.core = scene.core) : other.room = scene.room :=
  show other.core.room = scene.core.room from congrArg room same

theorem room_expire (scene : Scene) (deadline : Deadline) :
    scene.room ≤ (scene.expire deadline).room ∧
      (scene.expire deadline).newRecord = scene.newRecord := by
  unfold expire
  split
  · split
    · refine ⟨?_, rfl⟩
      simp only [room, vacate, queueChange, length_append, length_set, length_singleton]
      omega
    · exact ⟨Nat.le_refl _, rfl⟩
  · exact ⟨Nat.le_refl _, rfl⟩

/-- Expiry makes room and gives out no identity. -/
theorem room_drainExpired (scene : Scene) (now : Milliseconds) :
    scene.room ≤ (scene.drainExpired now).room ∧
      (scene.drainExpired now).newRecord = scene.newRecord := by
  have folded : ∀ (deadlines : List Deadline) (start : Scene),
      start.room ≤ (deadlines.foldl expire start).room ∧
        (deadlines.foldl expire start).newRecord = start.newRecord := by
    intro deadlines
    induction deadlines with
    | nil => exact fun start => ⟨Nat.le_refl _, rfl⟩
    | cons deadline rest ih =>
      intro start
      have first := room_expire start deadline
      have later := ih (start.expire deadline)
      exact ⟨first.1.trans later.1, later.2.trans first.2⟩
  exact folded _ scene

theorem room_aged (scene : Scene) (times : List Milliseconds) :
    scene.room ≤ (scene.aged times).room := by
  induction times generalizing scene with
  | nil => exact Nat.le_refl _
  | cons time rest ih => exact (room_drainExpired scene time).1.trans (ih _)

theorem room_store (scene : Scene) (entrySlot : Nat) (record : ShapeRecord) (now : Milliseconds) :
    scene.room ≤ (scene.store entrySlot record now).room := by
  rcases scene.insertDeadline_eq record entrySlot with ⟨deadlines, inserted⟩
  unfold store
  rw [inserted]
  split
  · exact (room_drainExpired (queueChange { scene with deadlines } (.upsert record)) now).1
  · exact Nat.le_refl _

/-- A record whose time is not over at once is stored. -/
theorem mem_store {entrySlot : Nat} {record other : ShapeRecord}
    (lasts : deadlineIsDue record now = false) (member : some other ∈ scene.entries) :
    some other ∈ (scene.store entrySlot record now).entries := by
  rcases scene.insertDeadline_eq record entrySlot with ⟨deadlines, inserted⟩
  rw [store, inserted, if_neg (Bool.eq_false_iff.mp lasts)]
  exact member

/-- What becomes of a shape for which there is room. -/
structure Accepts (scene : Scene) (shape : Shape) (now : Milliseconds)
    (result : Scene × Except Error ShapeId) : Prop where
  answer : result.2 = .ok (scene.newRecord shape now).id
  room : scene.room ≤ result.1.room + 1
  live : deadlineIsDue (scene.newRecord shape now) now = false →
    some (scene.newRecord shape now) ∈ result.1.entries

theorem addEntry_accepts (tracks : scene.Tracks published) (fits : 0 < scene.room) (shape : Shape)
    (now : Milliseconds) : scene.Accepts shape now (scene.addEntry shape now) := by
  have named : ¬maximumSlot < scene.nextShapeSlot := by
    intro exhausted
    rw [room, Nat.sub_eq_zero_of_le exhausted, Nat.zero_min] at fits
    exact Nat.lt_irrefl 0 fits
  unfold addEntry
  rw [if_neg named]
  cases last : scene.freeSlots.getLast? with
  | some entrySlot =>
    have vacant := tracks.table.vacant entrySlot (mem_of_getLast? last)
    have some_ : scene.freeSlots ≠ [] := by
      rintro none
      rw [none] at last
      cases last
    constructor
    case answer => rfl
    case room =>
      refine le_trans ?_ (Nat.add_le_add_right (room_store _ _ _ _) 1)
      have shorter : scene.freeSlots.dropLast.length + 1 = scene.freeSlots.length := by
        rw [length_dropLast, Nat.sub_add_cancel (length_pos_iff.mpr some_)]
      simp only [room, length_set]
      omega
    case live =>
      intro lasts
      apply mem_store lasts
      exact (SlotTable.mem_fill vacant).mpr (.inl rfl)
  | none =>
    have noneFree : scene.freeSlots = [] := getLast?_eq_none_iff.mp last
    have stores : ¬maximumSlot < scene.entries.length := by
      intro full
      rw [room, noneFree, Nat.sub_eq_zero_of_le full] at fits
      simp at fits
    rw [if_neg stores]
    constructor
    case answer => rfl
    case room =>
      refine le_trans ?_ (Nat.add_le_add_right (room_store _ _ _ _) 1)
      simp only [room, noneFree, length_append, length_singleton, length_nil]
      omega
    case live =>
      intro lasts
      apply mem_store lasts
      exact mem_append.mpr (.inr (mem_singleton_self _))

theorem addEntry_full (full : scene.room = 0) (shape : Shape) (now : Milliseconds) :
    ∃ error, (scene.addEntry shape now).2 = .error error := by
  unfold addEntry
  split
  · exact ⟨_, rfl⟩
  rename_i named
  have noneFree : scene.freeSlots = [] := by
    rw [← length_eq_zero_iff]
    simp only [room] at full
    omega
  have stores : maximumSlot < scene.entries.length := by
    simp only [room] at full
    omega
  rw [noneFree]
  dsimp only [getLast?_nil]
  rw [if_pos stores]
  exact ⟨_, rfl⟩

/-- What is known of a shape that was accepted. -/
theorem add_ok (tracks : scene.Tracks published) {id : ShapeId}
    (accepted : (scene.add now shape).2 = .ok id) :
    id = (scene.newRecord shape now).id ∧
      (deadlineIsDue (scene.newRecord shape now) now = false →
        some (scene.newRecord shape now) ∈ (scene.add now shape).1.entries) := by
  rcases tracks.drainExpired now with ⟨drained, _⟩
  have begun := core_beginPublication ((scene.drainExpired now).addEntry shape now).1
  unfold add at accepted ⊢
  dsimp only at accepted ⊢
  split at accepted
  · rename_i valid
    rw [if_pos valid]
    rcases Nat.eq_zero_or_pos (scene.drainExpired now).room with full | fits
    · rcases addEntry_full full shape now with ⟨error, refused⟩
      cases refused.symm.trans accepted
    have accepts := addEntry_accepts drained fits shape now
    have named := Except.ok.inj (accepted.symm.trans accepts.answer)
    rw [(room_drainExpired scene now).2] at named
    refine ⟨named, ?_⟩
    rw [entries_of_core begun, ← (room_drainExpired scene now).2]
    exact accepts.live
  · cases accepted

/-- A valid shape is accepted as long as there is room. -/
theorem add_accepts (tracks : scene.Tracks published) (fits : 0 < scene.room)
    (valid : shapeIsValid shape = true) (now : Milliseconds) :
    scene.Accepts shape now (scene.add now shape) := by
  rcases tracks.drainExpired now with ⟨drained, _⟩
  have makes := room_drainExpired scene now
  have accepts := addEntry_accepts drained (Nat.lt_of_lt_of_le fits makes.1) shape now
  have begun := core_beginPublication ((scene.drainExpired now).addEntry shape now).1
  unfold add
  dsimp only
  rw [if_pos valid]
  constructor
  case answer => rw [← makes.2]; exact accepts.answer
  case room => rw [room_of_core begun]; exact makes.1.trans accepts.room
  case live =>
    rw [entries_of_core begun, ← makes.2]
    exact accepts.live

end Scene

namespace Service

variable {setting : Setting} {start : Service} {middle after : Service}

/-! ## A service at rest -/

/-- The scene has only lost shapes to expiry, at readings of the clock since the start. -/
structure Aged (setting : Setting) (start service : Service) : Prop where
  later : start.readings ≤ service.readings
  expired : ∃ readings : List Nat,
    (∀ reading ∈ readings, start.readings ≤ reading ∧ reading < service.readings) ∧
      service.scene.core = (start.scene.aged (readings.map setting.clock)).core

/-- What is more, no drag is under way. -/
structure Idle (setting : Setting) (start service : Service) : Prop
    extends Aged setting start service where
  resting : service.session.interaction = none

theorem Aged.refl (service : Service) : Aged setting service service :=
  ⟨Nat.le_refl _, [], forall_mem_nil _, rfl⟩

theorem Aged.of_core (aged : Aged setting start middle)
    (core : after.scene.core = middle.scene.core) (readings : after.readings = middle.readings) :
    Aged setting start after := by
  rcases aged with ⟨later, times, within, same⟩
  rw [← readings] at later within
  exact ⟨later, times, within, core.trans same⟩

/-- One more reading of the clock. -/
theorem Aged.drained (aged : Aged setting start middle)
    (core : after.scene.core = (middle.scene.drainExpired (setting.clock middle.readings)).core)
    (readings : after.readings = middle.readings + 1) : Aged setting start after := by
  rcases aged with ⟨later, times, within, same⟩
  refine ⟨readings ▸ Nat.le_succ_of_le later, times ++ [middle.readings], ?_, ?_⟩
  · intro reading member
    rw [readings]
    rcases mem_append.mp member with earlier | last
    · have bounds := within reading earlier
      exact ⟨bounds.1, Nat.lt_succ_of_lt bounds.2⟩
    · cases mem_singleton.mp last
      exact ⟨later, Nat.lt_succ_self _⟩
  · rw [core, map_append, Scene.aged, foldl_append]
    exact Scene.core_drainExpired same _

theorem agedFrame (start : Service) : Frame (Aged setting start) :=
  ⟨fun aged scene _ _ _ _ readings => aged.of_core (congrArg Scene.core scene) readings⟩

theorem Idle.of_publishes {before after : Service} (idle : Idle setting start before)
    (publishes : Publishes before after) : Idle setting start after where
  toAged := idle.toAged.of_core publishes.core publishes.readings
  resting :=
    (congrArg (fun held : Holdings => held.session.interaction) publishes.holdings).trans
      idle.resting

theorem sceneSnapshot_idle : Keeps (Idle setting start) (sceneSnapshot setting) := by
  intro service idle
  have looks : Ensures (fun other => other = service) (sceneSnapshot setting) _ :=
    sceneSnapshot_looks
  rcases looks service rfl with ⟨holdings, readings, core, _⟩
  refine ⟨idle.toAged.drained core readings, ?_⟩
  exact (congrArg (fun held : Holdings => held.session.interaction) holdings).trans idle.resting

theorem recoverBestEffort_idle : Keeps (Idle setting start) (recoverBestEffort setting) := by
  unfold recoverBestEffort
  refine Keeps.get.bind fun service => Keeps.ite ?_ (Keeps.pure _)
  refine sceneSnapshot_idle.bind fun snapshot => Keeps.discard ?_
  intro service idle
  have keeps : Keeps (Publishes service) (recover setting snapshot) := recover_publishes snapshot
  exact idle.of_publishes (keeps service (Publishes.refl service))

theorem onSession_idle {change : Session → Session}
    (rests : ∀ session, (change session).interaction = session.interaction) :
    Keeps (Idle setting start) (onSession change) :=
  Keeps.modify fun _ idle =>
    ⟨idle.toAged.of_core rfl rfl, (rests _).trans idle.resting⟩

theorem refreshRegion_idle (shapes : List ShapeRecord) :
    Keeps (Idle setting start) (refreshRegion setting shapes) := by
  have installs : ∀ region, Keeps (Idle setting start) (setInputRegion setting region) := by
    intro region
    apply Ensures.modifyGet
    intro service idle
    split <;> exact ⟨idle.toAged.of_core rfl rfl, idle.resting⟩
  unfold refreshRegion
  refine Keeps.get.bind fun service => Keeps.ite ?_ (Keeps.pure _)
  refine Keeps.bind (Keeps.onlyIf (onSession_idle fun _ => rfl)) fun _ => ?_
  refine (installs _).bind fun installed => ?_
  exact Keeps.bind (Keeps.onlyIf (onSession_idle fun _ => rfl)) fun _ => Keeps.pure _

/-- There is no drag to cancel. -/
theorem cancelDrag_idle (restore : Bool) :
    Keeps (Idle setting start) (cancelDrag setting restore) := by
  unfold cancelDrag
  apply Ensures.get_bind
  intro current idle
  have rests : current.session.dragging = false := congrArg Option.isSome idle.resting
  dsimp only
  rw [rests]
  apply Ensures.pure
  rintro _ rfl
  exact idle

theorem failEdit_aged (notification : Option Notification) (error : Error) :
    Ensures (Idle setting start) (failEdit setting notification error)
      fun _ => Aged setting start := by
  unfold failEdit
  refine Ensures.bind (fun _ => Aged setting start) ?_ fun _ => ?_
  · have kept : Keeps (Idle setting start)
        (if notification.isNone then cancelDrag setting true else pure notification) :=
      Keeps.ite (cancelDrag_idle true) (Keeps.pure _)
    exact kept.weaken fun _ _ idle => idle.toAged
  · refine ((agedFrame start).onSession_kept _).bind fun _ => ?_
    exact (Keeps.discard (agedFrame start).terminateEdit_kept).bind fun _ => Keeps.pure _

/-- An edit session without a drag is brought up to date. -/
theorem refreshEdit_aged :
    Ensures (Idle setting start) (refreshEdit setting) fun _ => Aged setting start := by
  have rests : ∀ result : Option Notification, Ensures (Idle setting start)
      (pure result : Action (Option Notification)) fun _ => Aged setting start :=
    fun _ => Ensures.pure fun _ idle => idle.toAged
  unfold refreshEdit
  refine Ensures.bind (fun _ => Idle setting start) Keeps.get fun service => ?_
  split
  · exact rests none
  split
  · refine Ensures.strengthen ?_ fun _ idle => idle.toAged
    exact (Keeps.discard (agedFrame start).terminateEdit_kept).bind fun _ => Keeps.pure _
  refine Ensures.bind (fun _ => Idle setting start) ?_ fun refreshed => ?_
  · unfold refreshTarget
    refine sceneSnapshot_idle.bind fun snapshot => ?_
    refine Keeps.get.bind fun service => Keeps.ite ?_ (Keeps.pure _)
    refine (cancelDrag_idle false).bind fun notification => ?_
    exact sceneSnapshot_idle.bind fun _ => Keeps.pure _
  refine Ensures.bind (fun _ => Idle setting start) Keeps.get fun after => ?_
  split
  · exact rests _
  split
  · exact failEdit_aged _ _
  refine Ensures.bind (fun _ => Idle setting start) (refreshRegion_idle _) fun installed => ?_
  cases installed with
  | error error => exact failEdit_aged _ _
  | ok value => exact rests _

/-! ## Batches -/

/-- One identity for each shape, in order; a shape is live behind its own insertion, unless its time
is over at once. -/
inductive Inserted (setting : Setting) : Service → List Shape → List ShapeId → Prop
  | nil (service : Service) : Inserted setting service [] []
  | cons {service : Service} {record : ShapeRecord} {rest : List Shape} {ids : List ShapeId}
      (live : deadlineIsDue record (setting.clock service.readings) = false →
        some record ∈ ((sceneAdd setting record.shape).run service).2.scene.entries)
      (later : Inserted setting ((sceneAdd setting record.shape).run service).2 rest ids) :
      Inserted setting service (record.shape :: rest) (record.id :: ids)

variable {service : Service} {shapes : List Shape} {shape : Shape}

theorem addEach_refused {error : Error}
    (refused : ((sceneAdd setting shape).run service).1 = .error error) (ids : List ShapeId)
    (rest : List Shape) : (addEach setting ids (shape :: rest)).run service =
      (.error error, ((sceneAdd setting shape).run service).2) := by
  rw [addEach, StateT.run_bind]
  simp only [bind, refused]
  rfl

theorem addEach_added {id : ShapeId} (added : ((sceneAdd setting shape).run service).1 = .ok id)
    (ids : List ShapeId) (rest : List Shape) : (addEach setting ids (shape :: rest)).run service =
      (addEach setting (ids ++ [id]) rest).run ((sceneAdd setting shape).run service).2 := by
  rw [addEach, StateT.run_bind]
  simp only [bind, added]

theorem addEach_inserted (inStep : InStep setting service) (shapes : List Shape)
    (ids all : List ShapeId) (accepted : ((addEach setting ids shapes).run service).1 = .ok all) :
    ∃ new, Inserted setting service shapes new ∧ all = ids ++ new := by
  induction shapes generalizing service ids with
  | nil =>
    have same : ids = all := Except.ok.inj accepted
    exact ⟨[], Inserted.nil service, by rw [append_nil, same]⟩
  | cons shape rest ih =>
    have operates := onScene_operates setting (fun now scene => scene.add now shape) service
      service rfl
    cases answer : ((sceneAdd setting shape).run service).1 with
    | error error =>
      rw [addEach_refused answer] at accepted
      cases accepted
    | ok id =>
      rw [addEach_added answer] at accepted
      rcases inStep with ⟨deltas, synced⟩
      rcases Scene.add_ok synced.tracks (operates.value.symm.trans answer) with ⟨rfl, live⟩
      rcases ih (sceneAdd_inStep shape service ⟨deltas, synced⟩) _ accepted with
        ⟨new, inserted, rfl⟩
      rw [← Scene.entries_of_core operates.core] at live
      refine ⟨_, Inserted.cons live inserted, ?_⟩
      rw [append_assoc]
      rfl

/-- Valid shapes are all accepted when there is room for them. -/
theorem addEach_accepts (inStep : InStep setting service)
    (valid : ∀ shape ∈ shapes, shapeIsValid shape = true)
    (fits : shapes.length ≤ service.scene.room) (ids : List ShapeId) :
    ∃ all, ((addEach setting ids shapes).run service).1 = .ok all := by
  induction shapes generalizing service ids with
  | nil => exact ⟨ids, rfl⟩
  | cons shape rest ih =>
    have operates := onScene_operates setting (fun now scene => scene.add now shape) service
      service rfl
    rcases inStep with ⟨deltas, synced⟩
    have accepts := Scene.add_accepts synced.tracks
      (Nat.lt_of_lt_of_le (Nat.succ_pos rest.length) fits) (valid shape mem_cons_self)
      (setting.clock service.readings)
    have answer : ((sceneAdd setting shape).run service).1 = _ :=
      operates.value.trans accepts.answer
    have left := accepts.room
    rw [← Scene.room_of_core operates.core] at left
    rcases ih (sceneAdd_inStep shape service ⟨deltas, synced⟩)
      (fun other member => valid other (mem_cons_of_mem shape member))
      (Nat.le_of_succ_le_succ (fits.trans left)) (ids ++ [_]) with ⟨all, accepted⟩
    refine ⟨all, Eq.trans ?_ accepted⟩
    rw [addEach_added answer]

/-- The scene refuses no shape of a batch behind another one. -/
def Whole (setting : Setting) (service : Service) (shapes : List Shape) : Prop :=
  (∃ shape ∈ shapes, (setting.transformShape shape).isOk = false) ∨
    (∃ first rest, shapes = first :: rest ∧ shapeIsValid first = false) ∨
      (∀ shape ∈ shapes, shapeIsValid shape = true) ∧ shapes.length ≤ service.scene.room

/-- While the service relies on the delegate, the delegate shows what is live. -/
def Mirrors (setting : Setting) (service : Service) : Prop :=
  service.desynchronized = false →
    service.delegate.mirror.shapes.Perm (service.scene.live.map setting.image)

/-- All of a batch is added or nothing. -/
structure Atomic (setting : Setting) (service : Service) (shapes : List Shape) : Prop where
  refused : ∀ error, ((addMany setting shapes).run service).1 = .error error →
    Aged setting service ((addMany setting shapes).run service).2
  accepted : ∀ ids, ((addMany setting shapes).run service).1 = .ok ids →
    ∃ recovered, Aged setting service recovered ∧ Inserted setting recovered shapes ids
  before : Mirrors setting service
  after : Mirrors setting ((addMany setting shapes).run service).2

theorem InStep.mirrors (inStep : InStep setting service) : Mirrors setting service := by
  rcases inStep with ⟨deltas, synced⟩
  intro relied
  exact (synced.channel.follows relied).shapes.trans (synced.live_perm.symm.map _)

theorem isOk_of_mapM {shapes transformed : List Shape}
    (isTransformed : shapes.mapM setting.transformShape = .ok transformed) :
    ∀ shape ∈ shapes, (setting.transformShape shape).isOk = true := by
  induction shapes generalizing transformed with
  | nil => exact forall_mem_nil _
  | cons first rest ih =>
    rw [mapM_cons] at isTransformed
    cases one : setting.transformShape first with
    | error error =>
      rw [one] at isTransformed
      cases isTransformed
    | ok image =>
      cases others : rest.mapM setting.transformShape with
      | error error =>
        rw [one, others] at isTransformed
        cases isTransformed
      | ok images =>
        intro shape member
        rcases mem_cons.mp member with rfl | later
        · rw [one]
          rfl
        · exact ih others shape later

/-- Room never shrinks while shapes only expire. -/
theorem Aged.room (aged : Aged setting start service) : start.scene.room ≤ service.scene.room := by
  rcases aged.expired with ⟨readings, _, core⟩
  rw [Scene.room_of_core core]
  exact start.scene.room_aged _

/-- How the shapes of a batch are added to a service that was brought up to date. -/
theorem addEach_idle (inStep : InStep setting service) (idle : Idle setting start service)
    (whole : (∃ first rest, shapes = first :: rest ∧ shapeIsValid first = false) ∨
      (∀ shape ∈ shapes, shapeIsValid shape = true) ∧ shapes.length ≤ start.scene.room)
    (error : Error) (refused : ((addEach setting [] shapes).run service).1 = .error error) :
    Idle setting start ((addEach setting [] shapes).run service).2 := by
  rcases whole with ⟨first, rest, rfl, invalid⟩ | ⟨valid, fits⟩
  · have operates := onScene_operates setting (fun now scene => scene.add now first) service
      service rfl
    have answer : ∃ error, ((sceneAdd setting first).run service).1 = .error error := by
      refine ⟨Scene.invalidGeometry, operates.value.trans ?_⟩
      rw [Scene.add]
      rw [if_neg (Bool.eq_false_iff.mp invalid)]
    rcases answer with ⟨failure, failed⟩
    have aged := idle.toAged.drained (operates.core.trans
      (Scene.add_refused (operates.value.symm.trans failed))) operates.readings
    rw [addEach_refused failed]
    exact ⟨aged, (congrArg (fun held : Holdings => held.session.interaction)
      operates.holdings).trans idle.resting⟩
  · rcases addEach_accepts inStep valid (fits.trans idle.toAged.room) [] with ⟨all, accepted⟩
    cases accepted.symm.trans refused

def disc : Shape where
  geometry := .polygon []
  stroke := none
  fill := some { color := {} }

/-- Neither stroke nor fill. -/
def hollow : Shape := { disc with fill := none }

/-- A surface where every call succeeds. -/
def steadySurface : Setting where
  surfaceBounds := ⟨0, 0, 1920, 1080⟩
  transformShape := .ok
  detailedHitTest := fun _ _ _ => none
  editInputRegion := fun _ _ => []
  draggedShape := fun shape _ _ _ => some shape
  clock := fun reading => reading
  replies := fun _ => none
  leftover := fun _ => {}

end Service

end Grab.Overlay
