import Grab.Overlay.Mirror

/-!
# What the service changes

Operations on the scene leave the session, the region, the grab and the callbacks alone, and
publication leaves the shapes alone.  A shape the scene accepts is the only one under its id.
-/

namespace Grab.Overlay

open Grab.Lib List

/-! ## The scene without its queue -/

namespace Scene

/-- The scene with nothing queued. -/
def core (scene : Scene) : Scene :=
  { scene with pendingDeltas := [], publicationCursor := 0, publishing := false }

/-- Nothing new is live. -/
def Shrinks (before after : Scene) : Prop :=
  ∀ record, some record ∈ after.entries → some record ∈ before.entries

variable {scene before after : Scene} {published : List SceneDelta}

theorem core_beginPublication (scene : Scene) : scene.beginPublication.core = scene.core := by
  rw [scene.beginPublication_cases.1]
  rfl

theorem core_takeDelta (scene : Scene) : scene.takeDelta.1.core = scene.core := by
  unfold takeDelta
  split <;> rfl

variable (same : after.core = before.core)

include same

theorem entries_of_core : after.entries = before.entries :=
  show after.core.entries = before.core.entries from congrArg Scene.entries same

theorem live_of_core : after.live = before.live :=
  show after.core.live = before.core.live from congrArg Scene.live same

theorem deadlines_of_core : after.deadlines = before.deadlines :=
  show after.core.deadlines = before.core.deadlines from congrArg Scene.deadlines same

omit same

theorem core_expire (scene : Scene) (deadline : Deadline) :
    (scene.expire deadline).core = (scene.core.expire deadline).core := by
  have entries : scene.core.entries = scene.entries := rfl
  unfold expire
  rw [entries]
  split
  · split <;> rfl
  · rfl

theorem core_foldl_expire (deadlines : List Deadline) :
    ∀ {first second : Scene}, first.core = second.core →
      (deadlines.foldl expire first).core = (deadlines.foldl expire second).core := by
  induction deadlines with
  | nil => exact fun same => same
  | cons deadline rest later =>
    intro first second same
    apply later
    rw [core_expire first, core_expire second, same]

/-- What expires does not depend on what is queued. -/
theorem core_drainExpired (same : after.core = before.core) (now : Milliseconds) :
    (after.drainExpired now).core = (before.drainExpired now).core := by
  have deadlines := deadlines_of_core same
  have folded := core_foldl_expire
    (before.deadlines.takeWhile fun deadline => deadline.expiresAt ≤ now) same
  unfold drainExpired
  rw [deadlines]
  exact congrArg (fun scene : Scene => { scene with
    deadlines := before.deadlines.dropWhile fun deadline => deadline.expiresAt ≤ now }) folded

theorem Shrinks.trans {last : Scene} (first : before.Shrinks after) (second : after.Shrinks last) :
    before.Shrinks last :=
  fun record member => first record (second record member)

theorem Shrinks.of_entries (same : after.entries = before.entries) : before.Shrinks after := by
  intro record member
  rw [← same]
  exact member

/-- A scene with nothing live gains nothing from expiry. -/
theorem live_of_shrinks (empty : before.live = []) (shrinks : before.Shrinks after) :
    after.live = [] := by
  rw [live, eq_nil_iff_forall_not_mem] at empty ⊢
  intro record member
  rw [reduceOption_mem_iff] at member
  exact empty record (reduceOption_mem_iff.mpr (shrinks record member))

variable (scene : Scene)

theorem shrinks_vacate (entrySlot : Nat) (id : ShapeId) :
    scene.Shrinks (scene.vacate entrySlot id) := by
  intro record member
  rcases SlotTable.mem_set_cases member with written | ⟨index, _, here⟩
  · cases written
  · exact SlotTable.mem_cells_iff.mpr ⟨index, here⟩

theorem shrinks_expire (deadline : Deadline) : scene.Shrinks (scene.expire deadline) := by
  unfold expire
  split
  · split
    · exact shrinks_vacate scene _ _
    · exact fun _ => id
  · exact fun _ => id

/-- Expiry only takes shapes away. -/
theorem shrinks_drainExpired (now : Milliseconds) : scene.Shrinks (scene.drainExpired now) := by
  have folded : ∀ (deadlines : List Deadline) (start : Scene),
      start.Shrinks (deadlines.foldl expire start) := by
    intro deadlines
    induction deadlines with
    | nil => exact fun start record => id
    | cons deadline rest later =>
      exact fun start => (shrinks_expire start deadline).trans (later _)
  exact folded _ scene

end Scene

/-! ## The rest of the service -/

/-- What the service holds beside the scene and what follows it. -/
structure Holdings where
  session : Session
  owned : Bool
  pointerCaptured : Bool
  sessions : Nat
  region : List Rectangle
  grabbed : Bool
  begun : List Begun
  notified : List Notification

namespace Service

def holdings (service : Service) : Holdings where
  session := service.session
  owned := service.owned
  pointerCaptured := service.pointerCaptured
  sessions := service.sessions
  region := service.delegate.region
  grabbed := service.delegate.grabbed
  begun := service.begun
  notified := service.notified

/-- Nothing but what follows the scene is different. -/
structure Publishes (before after : Service) : Prop where
  holdings : after.holdings = before.holdings
  readings : after.readings = before.readings
  core : after.scene.core = before.scene.core

theorem Publishes.refl (service : Service) : Publishes service service := ⟨rfl, rfl, rfl⟩

theorem Publishes.trans {first second third : Service} (before : Publishes first second)
    (after : Publishes second third) : Publishes first third :=
  ⟨after.holdings.trans before.holdings, after.readings.trans before.readings,
    after.core.trans before.core⟩

variable {setting : Setting} {before : Service} {α : Type}

/-- A call about the scene. -/
theorem ask_publishes {accept : Delegate → Delegate} {refuse : Leftover → Delegate → Delegate}
    (accepted : ∀ delegate, (accept delegate).region = delegate.region ∧
      (accept delegate).grabbed = delegate.grabbed)
    (refused : ∀ leftover delegate, (refuse leftover delegate).region = delegate.region ∧
      (refuse leftover delegate).grabbed = delegate.grabbed) :
    Keeps (Publishes before) (ask setting accept refuse) := by
  apply Ensures.modifyGet
  intro service publishes
  apply publishes.trans
  split
  · refine ⟨?_, rfl, rfl⟩
    simp only [holdings, (accepted _).1, (accepted _).2]
  · refine ⟨?_, rfl, rfl⟩
    simp only [holdings, (refused _ _).1, (refused _ _).2]

theorem delegateApply_publishes (delta : SceneDelta) :
    Keeps (Publishes before) (delegateApply setting delta) :=
  ask_publishes (fun _ => ⟨rfl, rfl⟩) fun _ _ => ⟨rfl, rfl⟩

theorem delegateResync_publishes (snapshot : SceneSnapshot) :
    Keeps (Publishes before) (delegateResync setting snapshot) :=
  ask_publishes (fun _ => ⟨rfl, rfl⟩) fun _ _ => ⟨rfl, rfl⟩

theorem setDesynchronized_publishes (desynchronized : Bool) :
    Keeps (Publishes before) (setDesynchronized desynchronized) :=
  Keeps.modify fun _ publishes => publishes.trans ⟨rfl, rfl, rfl⟩

theorem publish_publishes (delta : SceneDelta) :
    Keeps (Publishes before) (publish setting delta) := by
  unfold publish
  refine Keeps.get.bind fun service => Keeps.ite (Keeps.pure _) ?_
  split
  · exact setDesynchronized_publishes true
  refine (delegateApply_publishes _).bind fun applied => ?_
  cases applied with
  | error error => exact setDesynchronized_publishes true
  | ok value => exact Keeps.pure _

theorem takeDelta_publishes : Keeps (Publishes before) takeDelta :=
  Keeps.modify fun service publishes =>
    publishes.trans ⟨rfl, rfl, Scene.core_takeDelta service.scene⟩

theorem drainPublications_publishes (deltas : List SceneDelta) :
    Keeps (Publishes before) (drainPublications setting deltas) := by
  induction deltas with
  | nil => exact takeDelta_publishes
  | cons delta rest later =>
    unfold drainPublications
    refine takeDelta_publishes.bind fun _ => ?_
    exact (publish_publishes delta).bind fun _ => later

theorem recover_publishes (snapshot : SceneSnapshot) :
    Keeps (Publishes before) (recover setting snapshot) := by
  unfold recover
  split
  · exact (setDesynchronized_publishes _).bind fun _ => Keeps.pure _
  refine (delegateResync_publishes _).bind fun resynced => ?_
  cases resynced with
  | error error | ok value => exact (setDesynchronized_publishes _).bind fun _ => Keeps.pure _

/-- An operation of the scene at the time the clock shows. -/
structure Operates {α : Type} (setting : Setting) (operation : Milliseconds → Scene → Scene × α)
    (before : Service) (value : α) (after : Service) : Prop where
  holdings : after.holdings = before.holdings
  readings : after.readings = before.readings + 1
  value : value = (operation (setting.clock before.readings) before.scene).2
  core : after.scene.core = (operation (setting.clock before.readings) before.scene).1.core

theorem onScene_operates (setting : Setting) (operation : Milliseconds → Scene → Scene × α)
    (before : Service) :
    Ensures (fun service => service = before) (onScene setting operation)
      (Operates setting operation before) := by
  unfold onScene
  refine Ensures.bind (fun now service => now = setting.clock before.readings ∧
    service = { before with readings := before.readings + 1 }) ?_ fun now => ?_
  · apply Ensures.modifyGet
    rintro _ rfl
    exact ⟨rfl, rfl⟩
  apply Ensures.get_bind
  rintro _ ⟨rfl, rfl⟩
  refine Ensures.bind (fun value service =>
    value = (operation (setting.clock before.readings) before.scene).2 ∧
    service = { before with
      readings := before.readings + 1
      scene := (operation (setting.clock before.readings) before.scene).1 }) ?_ fun value => ?_
  · apply Ensures.modifyGet
    rintro _ rfl
    exact ⟨rfl, rfl⟩
  apply Ensures.get_bind
  rintro after ⟨rfl, rfl⟩
  refine Ensures.bind (fun _ => Publishes { before with
    readings := before.readings + 1
    scene := (operation (setting.clock before.readings) before.scene).1 }) ?_ fun _ => ?_
  · refine Ensures.strengthen (Keeps.onlyIf (drainPublications_publishes _)) ?_
    rintro _ rfl
    exact Publishes.refl _
  · apply Ensures.pure
    intro service publishes
    exact ⟨publishes.holdings, publishes.readings, rfl, publishes.core⟩

theorem onScene_holdings (operation : Milliseconds → Scene → Scene × α) (held : Holdings) :
    Keeps (fun service => service.holdings = held) (onScene setting operation) := by
  intro service isHeld
  exact (onScene_operates setting operation service service rfl).holdings.trans isHeld

theorem recover_holdings (snapshot : SceneSnapshot) (held : Holdings) :
    Keeps (fun service => service.holdings = held) (recover setting snapshot) := by
  intro service isHeld
  have keeps : Keeps (Publishes service) (recover setting snapshot) := recover_publishes snapshot
  exact (keeps service (Publishes.refl service)).holdings.trans isHeld

theorem recoverBestEffort_holdings (held : Holdings) :
    Keeps (fun service => service.holdings = held) (recoverBestEffort setting) := by
  unfold recoverBestEffort
  refine Keeps.get.bind fun service => Keeps.ite ?_ (Keeps.pure _)
  refine (onScene_holdings _ held).bind fun snapshot => ?_
  exact Keeps.discard (recover_holdings snapshot held)

/-- A snapshot shows the scene it leaves, which is the one before without what has expired. -/
theorem sceneSnapshot_looks :
    Ensures (fun service => service = before) (sceneSnapshot setting) fun snapshot after =>
      after.holdings = before.holdings ∧ after.readings = before.readings + 1 ∧
        after.scene.core = (before.scene.drainExpired (setting.clock before.readings)).core ∧
        snapshot.shapes = after.scene.asSnapshot.shapes := by
  rintro service rfl
  have operates := onScene_operates setting (fun now scene => scene.snapshot now) service
    service rfl
  have core := operates.core.trans (Scene.core_beginPublication _)
  have live : (((sceneSnapshot setting).run service).2).scene.live =
      (service.scene.drainExpired (setting.clock service.readings)).live :=
    Scene.live_of_core core
  have shapes := congrArg SceneSnapshot.shapes operates.value
  refine ⟨operates.holdings, operates.readings, core, ?_⟩
  rw [Scene.asSnapshot, live]
  exact shapes

/-- Putting the original back changes the session by an error at most. -/
theorem restoreOriginal_holdings (id : ShapeId) :
    Ensures (fun service => service = before) (restoreOriginal setting id) fun _ after =>
      ∃ error, after.holdings =
        { before.holdings with session := { before.session with error := error } } := by
  unfold restoreOriginal
  apply Ensures.get_bind
  intro current isBefore
  rw [isBefore]
  split
  · rintro _ rfl
    exact ⟨_, rfl⟩
  rename_i shape isShape
  refine Ensures.bind (fun _ service => service.holdings = before.holdings) ?_ fun result => ?_
  · rintro service rfl
    exact onScene_holdings _ _ service rfl
  cases result with
  | ok value =>
    intro after holdings
    exact ⟨before.session.error, holdings⟩
  | error error =>
    refine Ensures.bind (fun _ after => ∃ error, after.holdings =
      { before.holdings with session := { before.session with error := error } }) ?_
      fun _ => Ensures.pure fun _ changed => changed
    unfold onlyIf
    split
    · intro after holdings
      have session : after.session = before.session := congrArg Holdings.session holdings
      refine ⟨before.session.error <|> some error, ?_⟩
      change { after.holdings with session := after.session.rememberError error } = _
      rw [holdings, session]
      rfl
    · intro after holdings
      exact ⟨before.session.error, holdings⟩

end Service

end Grab.Overlay
