import Grab.Overlay.Service

/-!
# What a service keeps

A condition on the scene and on what follows it, its flag and the delegate's mirror, is kept by
every step of a service as soon as the operations of the scene, a recovery and a flush keep it.  An
edit session that is brought up to date only reads and updates the scene.
-/

namespace Grab.Overlay

open Grab.Lib

namespace Service

/-- A condition that looks at the scene, the flag, the mirror, the capture and the clock only. -/
structure Frame (kept : Service → Prop) : Prop where
  keeps : ∀ {before after : Service}, kept before → after.scene = before.scene →
    after.desynchronized = before.desynchronized →
    after.delegate.mirror = before.delegate.mirror →
    after.delegate.traffic = before.delegate.traffic →
    after.pointerCaptured = before.pointerCaptured → after.readings = before.readings → kept after

/-- What has to be shown of a condition that the edit session keeps. -/
structure EditRule (setting : Setting) (kept : Service → Prop) : Prop where
  frame : Frame kept
  sceneUpdate : ∀ id shape, Keeps kept (sceneUpdate setting id shape)
  sceneSnapshot : Keeps kept (sceneSnapshot setting)

/-- What has to be shown of a condition that every step keeps. -/
structure Rule (setting : Setting) (kept : Service → Prop) : Prop
    extends EditRule setting kept where
  captures : ∀ captured, Keeps kept
    (modify fun service => { service with pointerCaptured := captured } : Action PUnit)
  sceneAdd : ∀ shape, Keeps kept (sceneAdd setting shape)
  sceneRemove : ∀ id, Keeps kept (sceneRemove setting id)
  sceneClear : Keeps kept (sceneClear setting)
  recoverBestEffort : Keeps kept (recoverBestEffort setting)
  flushAfter : Keeps kept (refreshEdit setting) → Keeps kept (flush setting)

variable {setting : Setting} {kept : Service → Prop}

/-! ## What does not concern the scene -/

variable (frame : Frame kept)

include frame

/-- A call about the region, the handler or the grab. -/
theorem Frame.ask_kept {accept : Delegate → Delegate} {refuse : Leftover → Delegate → Delegate}
    (accepted : ∀ delegate, (accept delegate).mirror = delegate.mirror ∧
      (accept delegate).traffic = delegate.traffic)
    (refused : ∀ leftover delegate, (refuse leftover delegate).mirror = delegate.mirror ∧
      (refuse leftover delegate).traffic = delegate.traffic) :
    Keeps kept (ask setting accept refuse) := by
  apply Ensures.modifyGet
  intro service holds
  split
  · exact frame.keeps holds rfl rfl (accepted _).1 (accepted _).2 rfl rfl
  · exact frame.keeps holds rfl rfl (refused _ _).1 (refused _ _).2 rfl rfl

theorem Frame.setInputRegion_kept (region : List Rectangle) :
    Keeps kept (setInputRegion setting region) :=
  frame.ask_kept (fun _ => ⟨rfl, rfl⟩) fun _ _ => ⟨rfl, rfl⟩

theorem Frame.setEditHandler_kept : Keeps kept (setEditHandler setting) :=
  frame.ask_kept (fun _ => ⟨rfl, rfl⟩) fun _ _ => ⟨rfl, rfl⟩

theorem Frame.delegateGrab_kept : Keeps kept (delegateGrab setting) :=
  frame.ask_kept (fun _ => ⟨rfl, rfl⟩) fun _ _ => ⟨rfl, rfl⟩

theorem Frame.delegateUngrab_kept : Keeps kept (delegateUngrab setting) :=
  frame.ask_kept (fun _ => ⟨rfl, rfl⟩) fun _ _ => ⟨rfl, rfl⟩

theorem Frame.onSession_kept (change : Session → Session) : Keeps kept (onSession change) :=
  Keeps.modify fun _ holds => frame.keeps holds rfl rfl rfl rfl rfl rfl

theorem Frame.invokeNotification_kept (notification : Option Notification) :
    Keeps kept (invokeNotification notification) :=
  Keeps.modify fun _ holds => frame.keeps holds rfl rfl rfl rfl rfl rfl

/-! ## The edit session -/

theorem Frame.refreshRegion_kept (shapes : List ShapeRecord) :
    Keeps kept (refreshRegion setting shapes) := by
  unfold refreshRegion
  refine Keeps.get.bind fun service => Keeps.ite ?_ (Keeps.pure _)
  refine (Keeps.onlyIf (frame.onSession_kept _)).bind fun _ => ?_
  refine (frame.setInputRegion_kept _).bind fun installed => ?_
  exact (Keeps.onlyIf (frame.onSession_kept _)).bind fun _ => Keeps.pure _

theorem Frame.grabPointer_kept : Keeps kept (grabPointer setting) := by
  unfold grabPointer
  refine Keeps.get.bind fun service => Keeps.ite (Keeps.pure _) (Keeps.ite ?_ (Keeps.pure _))
  exact (frame.onSession_kept _).bind fun _ => frame.delegateGrab_kept

theorem Frame.ungrab_kept : Keeps kept (ungrab setting) := by
  unfold ungrab
  refine Keeps.get.bind fun service => Keeps.ite ?_ (Keeps.pure _)
  refine frame.delegateUngrab_kept.bind fun released => ?_
  exact (Keeps.onlyIf (frame.onSession_kept _)).bind fun _ => Keeps.pure _

theorem Frame.releaseSessionPointer_kept : Keeps kept (releaseSessionPointer setting) := by
  unfold releaseSessionPointer
  refine Keeps.get.bind fun service => Keeps.ite ?_ ?_
  · refine frame.ungrab_kept.bind fun released => ?_
    exact Keeps.bind (Keeps.onError fun _ => frame.onSession_kept _) fun _ => Keeps.pure _
  · exact (frame.onSession_kept _).bind fun _ => Keeps.pure _

theorem Frame.emptyRegion_kept : Keeps kept (emptyRegion setting) := by
  unfold emptyRegion
  refine Keeps.get.bind fun service => Keeps.ite ?_ (Keeps.pure _)
  refine (frame.setInputRegion_kept _).bind fun emptied => ?_
  exact (Keeps.onlyIf (frame.onSession_kept _)).bind fun _ => Keeps.pure _

theorem Frame.clearHandler_kept : Keeps kept (clearHandler setting) := by
  unfold clearHandler
  refine Keeps.get.bind fun service => Keeps.ite ?_ (Keeps.pure _)
  refine frame.setEditHandler_kept.bind fun cleared => ?_
  exact (Keeps.onlyIf (frame.onSession_kept _)).bind fun _ => Keeps.pure _

theorem Frame.stop_kept : Keeps kept (stop setting) := by
  unfold stop
  refine (frame.onSession_kept _).bind fun _ => ?_
  refine Keeps.get.bind fun service => Keeps.ite ?_ ?_
  · refine frame.ungrab_kept.bind fun ungrabbed => ?_
    refine frame.emptyRegion_kept.bind fun emptied => ?_
    refine frame.clearHandler_kept.bind fun cleared => ?_
    exact Keeps.bind (Keeps.onError fun _ => frame.onSession_kept _) fun _ => Keeps.pure _
  · exact (frame.onSession_kept _).bind fun _ => Keeps.pure _

theorem Frame.stopTwice_kept : Keeps kept (stopTwice setting) := by
  unfold stopTwice
  refine frame.stop_kept.bind fun stopped => ?_
  cases stopped with
  | ok value => exact Keeps.pure _
  | error error => exact frame.stop_kept

theorem Frame.terminateEdit_kept : Keeps kept (terminateEdit setting) := by
  unfold terminateEdit
  refine frame.stopTwice_kept.bind fun stopped => ?_
  cases stopped with
  | error error => exact Keeps.pure _
  | ok value =>
    exact Keeps.bind (Keeps.modify
      fun _ holds => frame.keeps holds rfl rfl rfl rfl rfl rfl)
      fun _ => Keeps.pure _

omit frame

theorem EditRule.restoreOriginal_kept (rule : EditRule setting kept) (id : ShapeId) :
    Keeps kept (restoreOriginal setting id) := by
  unfold restoreOriginal
  refine Keeps.get.bind fun service => ?_
  split
  · exact Keeps.pure _
  refine (rule.sceneUpdate _ _).bind fun restored => ?_
  cases restored with
  | ok value => exact Keeps.pure _
  | error error =>
    exact (Keeps.onlyIf (rule.frame.onSession_kept _)).bind fun _ => Keeps.pure _

theorem EditRule.cancelDrag_kept (rule : EditRule setting kept) (restore : Bool) :
    Keeps kept (cancelDrag setting restore) := by
  unfold cancelDrag
  refine Keeps.get.bind fun service => Keeps.ite ?_ (Keeps.pure _)
  refine (Keeps.ite (rule.restoreOriginal_kept _) (Keeps.pure _)).bind fun restored => ?_
  refine (rule.frame.onSession_kept _).bind fun _ => ?_
  refine rule.frame.releaseSessionPointer_kept.bind fun released => ?_
  exact Keeps.bind (Keeps.onError fun _ => Keeps.discard rule.frame.terminateEdit_kept)
    fun _ => Keeps.pure _

theorem EditRule.failEdit_kept (rule : EditRule setting kept)
    (notification : Option Notification) (error : Error) :
    Keeps kept (failEdit setting notification error) := by
  unfold failEdit
  refine (Keeps.ite (rule.cancelDrag_kept _) (Keeps.pure _)).bind fun _ => ?_
  refine (rule.frame.onSession_kept _).bind fun _ => ?_
  exact (Keeps.discard rule.frame.terminateEdit_kept).bind fun _ => Keeps.pure _

theorem EditRule.refreshTarget_kept (rule : EditRule setting kept) :
    Keeps kept (refreshTarget setting) := by
  unfold refreshTarget
  refine rule.sceneSnapshot.bind fun snapshot => ?_
  refine Keeps.get.bind fun service => Keeps.ite ?_ (Keeps.pure _)
  refine (rule.cancelDrag_kept _).bind fun notification => ?_
  exact rule.sceneSnapshot.bind fun _ => Keeps.pure _

theorem EditRule.refreshEdit_kept (rule : EditRule setting kept) :
    Keeps kept (refreshEdit setting) := by
  unfold refreshEdit
  refine Keeps.get.bind fun service => Keeps.ite (Keeps.pure _) (Keeps.ite ?_ ?_)
  · exact (Keeps.discard rule.frame.terminateEdit_kept).bind fun _ => Keeps.pure _
  refine rule.refreshTarget_kept.bind fun refreshed => ?_
  refine Keeps.get.bind fun after => Keeps.ite (Keeps.pure _) (Keeps.ite ?_ ?_)
  · exact rule.failEdit_kept _ _
  refine (rule.frame.refreshRegion_kept _).bind fun installed => ?_
  cases installed with
  | error error => exact rule.failEdit_kept _ _
  | ok value => exact Keeps.pure _

/-! ## Operations -/

variable (rule : Rule setting kept) {service : Service}

include rule

theorem Rule.add_kept (shape : Shape) : Keeps kept (add setting shape) := by
  unfold add
  refine rule.recoverBestEffort.bind fun _ => ?_
  refine Keeps.bind ?_ fun result => ?_
  · split
    · exact Keeps.pure _
    · exact rule.sceneAdd shape
  · refine rule.refreshEdit_kept.bind fun notification => ?_
    exact (rule.frame.invokeNotification_kept _).bind fun _ => Keeps.pure _

theorem Rule.addEach_kept (ids : List ShapeId) (shapes : List Shape) :
    Keeps kept (addEach setting ids shapes) := by
  induction shapes generalizing ids with
  | nil => exact Keeps.pure _
  | cons shape rest later =>
    unfold addEach
    refine (rule.sceneAdd shape).bind fun added => ?_
    cases added with
    | error error => exact Keeps.pure _
    | ok id => exact later _

theorem Rule.addMany_kept (shapes : List Shape) : Keeps kept (addMany setting shapes) := by
  unfold addMany
  refine rule.recoverBestEffort.bind fun _ => ?_
  refine Keeps.bind ?_ fun result => ?_
  · split
    · exact Keeps.pure _
    · exact rule.addEach_kept _ _
  · refine rule.refreshEdit_kept.bind fun notification => ?_
    exact (rule.frame.invokeNotification_kept _).bind fun _ => Keeps.pure _

omit rule in
theorem EditRule.cancelTarget_kept (rule : EditRule setting kept) (id : ShapeId) :
    Keeps kept (cancelTarget setting id) := by
  unfold cancelTarget
  exact Keeps.get.bind fun service => Keeps.ite (rule.cancelDrag_kept _) (Keeps.pure _)

theorem Rule.update_kept (id : ShapeId) (shape : Shape) : Keeps kept (update setting id shape) := by
  unfold update
  refine rule.recoverBestEffort.bind fun _ => ?_
  split
  · refine rule.refreshEdit_kept.bind fun refreshed => ?_
    exact (rule.frame.invokeNotification_kept _).bind fun _ => Keeps.pure _
  refine (rule.sceneUpdate id shape).bind fun result => ?_
  refine (Keeps.ite (rule.cancelTarget_kept id) (Keeps.pure _)).bind fun notification => ?_
  refine rule.refreshEdit_kept.bind fun refreshed => ?_
  exact (rule.frame.invokeNotification_kept _).bind fun _ => Keeps.pure _

theorem Rule.remove_kept (id : ShapeId) : Keeps kept (remove setting id) := by
  unfold remove
  refine rule.recoverBestEffort.bind fun _ => ?_
  refine (rule.sceneRemove id).bind fun result => ?_
  refine (Keeps.ite (rule.cancelTarget_kept id) (Keeps.pure _)).bind fun notification => ?_
  refine rule.refreshEdit_kept.bind fun refreshed => ?_
  exact (rule.frame.invokeNotification_kept _).bind fun _ => Keeps.pure _

theorem Rule.clear_kept : Keeps kept (clear setting) := by
  unfold clear
  refine rule.recoverBestEffort.bind fun _ => ?_
  refine rule.sceneClear.bind fun _ => ?_
  refine Keeps.get.bind fun service => ?_
  refine (Keeps.ite (rule.cancelDrag_kept _) (Keeps.pure _)).bind fun notification => ?_
  exact rule.refreshEdit_kept.bind fun refreshed => rule.frame.invokeNotification_kept _

theorem Rule.flush_kept : Keeps kept (flush setting) := rule.flushAfter rule.refreshEdit_kept

omit rule in
theorem Frame.rollback_kept (frame : Frame kept) : Keeps kept (rollback setting) := by
  unfold rollback
  exact (Keeps.discard frame.stopTwice_kept).bind fun _ => frame.onSession_kept _

omit rule in
theorem Frame.startSession_kept (frame : Frame kept) (shapes : List ShapeRecord) (editable :
    List ShapeId) : Keeps kept (startSession setting shapes editable) := by
  unfold startSession
  refine Keeps.get.bind fun service => ?_
  refine Keeps.bind (Keeps.modify
    fun _ holds => frame.keeps holds rfl rfl rfl rfl rfl rfl) fun _ => ?_
  refine frame.setEditHandler_kept.bind fun selected => ?_
  cases selected with
  | error error => exact frame.rollback_kept.bind fun _ => Keeps.pure _
  | ok value =>
    refine (frame.refreshRegion_kept shapes).bind fun installed => ?_
    cases installed with
    | error error =>
      refine (frame.onSession_kept _).bind fun _ => ?_
      exact frame.rollback_kept.bind fun _ => Keeps.pure _
    | ok value =>
      exact Keeps.bind (Keeps.modify
        fun _ holds => frame.keeps holds rfl rfl rfl rfl rfl rfl)
        fun _ => Keeps.pure _

theorem Rule.startFresh_kept (editable : List ShapeId) :
    Keeps kept (startFresh setting editable) := by
  unfold startFresh
  refine rule.recoverBestEffort.bind fun _ => ?_
  refine rule.sceneSnapshot.bind fun snapshot => ?_
  split
  · exact Keeps.pure _
  · exact rule.frame.startSession_kept _ _

theorem Rule.startEdit_kept (editable : List ShapeId) :
    Keeps kept (startEdit setting editable) := by
  unfold startEdit
  refine Keeps.get.bind fun service => Keeps.ite (Keeps.ite (Keeps.pure _) ?_)
    (rule.startFresh_kept editable)
  refine rule.frame.terminateEdit_kept.bind fun cleaned => ?_
  cases cleaned with
  | error error => exact Keeps.pure _
  | ok value => exact rule.startFresh_kept editable

theorem Rule.stopEdit_kept (number : Nat) : Keeps kept (stopEdit setting number) := by
  unfold stopEdit
  refine Keeps.get.bind fun service => Keeps.ite ?_ (Keeps.pure _)
  refine (rule.cancelDrag_kept _).bind fun notification => ?_
  refine Keeps.get.bind fun after => ?_
  refine (Keeps.ite rule.frame.terminateEdit_kept (Keeps.pure _)).bind fun result => ?_
  exact (rule.frame.invokeNotification_kept _).bind fun _ => Keeps.pure _

theorem Rule.releasePointer_kept : Keeps kept (releasePointer setting) := by
  unfold releasePointer
  refine Keeps.get.bind fun service => Keeps.ite ?_ (Keeps.pure _)
  refine rule.frame.delegateUngrab_kept.bind fun released => ?_
  refine (rule.frame.setInputRegion_kept _).bind fun emptied => ?_
  refine (rule.captures _).bind fun _ => ?_
  cases released with
  | error error | ok value => exact Keeps.pure _

theorem Rule.capturePointer_kept : Keeps kept (capturePointer setting) := by
  unfold capturePointer
  refine Keeps.get.bind fun service => Keeps.ite (Keeps.pure _) (Keeps.ite (Keeps.pure _) ?_)
  refine (rule.frame.setInputRegion_kept _).bind fun installed => ?_
  cases installed with
  | error error => exact Keeps.pure _
  | ok value =>
    refine (rule.captures _).bind fun _ => ?_
    refine rule.frame.delegateGrab_kept.bind fun grabbed => ?_
    cases grabbed with
    | error error =>
      exact (Keeps.discard rule.releasePointer_kept).bind fun _ => Keeps.pure _
    | ok value => exact Keeps.pure _

/-! ## Edit events -/

omit rule in
theorem Frame.beginDrag_kept (frame : Frame kept) (shapes : List ShapeRecord) (event : EditEvent) :
    Keeps kept (beginDrag setting shapes event) := by
  unfold beginDrag
  refine Keeps.get.bind fun service => ?_
  dsimp only
  split
  · exact Keeps.pure _
  · exact Keeps.bind (Keeps.modify
    fun _ holds => frame.keeps holds rfl rfl rfl rfl rfl rfl) fun _ => Keeps.pure _

theorem Rule.buttonPress_kept (event : EditEvent) : Keeps kept (buttonPress setting event) := by
  unfold buttonPress
  refine Keeps.get.bind fun service => Keeps.ite ?_ (Keeps.pure _)
  refine rule.sceneSnapshot.bind fun snapshot => ?_
  refine (rule.frame.beginDrag_kept _ _).bind fun began => Keeps.ite ?_ (Keeps.pure _)
  refine rule.frame.grabPointer_kept.bind fun grabbed => ?_
  cases grabbed with
  | ok value => exact Keeps.pure _
  | error error =>
    refine (rule.frame.onSession_kept _).bind fun _ => ?_
    refine (rule.cancelDrag_kept _).bind fun notification => ?_
    exact (Keeps.discard rule.frame.terminateEdit_kept).bind fun _ => Keeps.pure _

theorem Rule.refuseShape_kept (error : Error) : Keeps kept (refuseShape setting error) := by
  unfold refuseShape
  refine Keeps.ite (rule.cancelDrag_kept _) ?_
  refine (rule.cancelDrag_kept _).bind fun notification => ?_
  refine (rule.frame.onSession_kept _).bind fun _ => ?_
  exact (Keeps.discard rule.frame.terminateEdit_kept).bind fun _ => Keeps.pure _

theorem Rule.pointerMotion_kept (event : EditEvent) : Keeps kept (pointerMotion setting event) := by
  unfold pointerMotion
  refine Keeps.get.bind fun service => ?_
  dsimp only
  split
  · exact Keeps.pure _
  refine (rule.sceneUpdate _ _).bind fun applied => ?_
  cases applied with
  | error error => exact rule.refuseShape_kept error
  | ok value => exact rule.refreshEdit_kept

theorem Rule.commitDrag_kept (target : ShapeId) (event : EditEvent)
    (notification : Option Notification) :
    Keeps kept (commitDrag setting target event notification) := by
  unfold commitDrag
  refine rule.frame.releaseSessionPointer_kept.bind fun released => ?_
  cases released with
  | error error =>
    refine (rule.cancelDrag_kept _).bind fun cancelled => ?_
    exact (Keeps.discard rule.frame.terminateEdit_kept).bind fun _ => Keeps.pure _
  | ok value =>
    refine Keeps.get.bind fun service => ?_
    dsimp only
    split
    · exact Keeps.pure _
    · exact (rule.frame.onSession_kept _).bind fun _ => Keeps.pure _

theorem Rule.buttonRelease_kept (event : EditEvent) : Keeps kept (buttonRelease setting event) := by
  unfold buttonRelease
  refine Keeps.get.bind fun service => Keeps.ite ?_ (Keeps.pure _)
  split
  · exact Keeps.pure _
  refine (rule.sceneUpdate _ _).bind fun applied => ?_
  cases applied with
  | error error => exact rule.refuseShape_kept error
  | ok value =>
    refine rule.refreshEdit_kept.bind fun notification => ?_
    exact Keeps.get.bind fun after => Keeps.ite (rule.commitDrag_kept _ _ _) (Keeps.pure _)

theorem Rule.notifyUngrab_kept : Keeps kept (notifyUngrab setting) := by
  unfold notifyUngrab
  refine (rule.frame.onSession_kept _).bind fun _ => ?_
  refine Keeps.get.bind fun service => Keeps.ite ?_ (Keeps.pure _)
  refine (rule.cancelDrag_kept _).bind fun notification => ?_
  exact rule.refreshEdit_kept.bind fun refreshed => Keeps.pure _

theorem Rule.dispatch_kept (event : EditEvent) (notification :
    Option Notification) : Keeps kept (dispatch setting event notification) := by
  unfold dispatch
  split
  · exact Keeps.ite (rule.buttonPress_kept event) (Keeps.pure _)
  · exact Keeps.ite (rule.pointerMotion_kept event) (Keeps.pure _)
  · exact Keeps.ite (rule.buttonRelease_kept event) (Keeps.pure _)
  · exact rule.notifyUngrab_kept.bind fun cancelled => Keeps.pure _

theorem Rule.handleEditEvent_kept (number : Nat) (event : EditEvent) :
    Keeps kept (handleEditEvent setting number event) := by
  unfold handleEditEvent
  refine Keeps.get.bind fun service => Keeps.ite ?_ (Keeps.pure _)
  refine Keeps.bind (Keeps.onlyIf (Keeps.modify
    fun _ holds => rule.frame.keeps holds rfl rfl rfl rfl rfl rfl))
    fun _ => ?_
  refine rule.refreshEdit_kept.bind fun notification => ?_
  refine Keeps.get.bind fun after => ?_
  refine (Keeps.ite (rule.dispatch_kept _ _) (Keeps.pure _)).bind fun final => ?_
  exact rule.frame.invokeNotification_kept _

/-! ## Steps -/

theorem Rule.step_kept (holds : kept service) (step : Step) : kept (service.step setting step) := by
  have keeps : Keeps kept (perform setting step) := by
    cases step with
    | add shape => exact Keeps.discard (rule.add_kept shape)
    | addMany shapes => exact Keeps.discard (rule.addMany_kept shapes)
    | update id shape => exact Keeps.discard (rule.update_kept id shape)
    | remove id => exact Keeps.discard (rule.remove_kept id)
    | clear => exact rule.clear_kept
    | flush => exact Keeps.discard rule.flush_kept
    | startEdit editable => exact Keeps.discard (rule.startEdit_kept editable)
    | stopEdit session => exact Keeps.discard (rule.stopEdit_kept session)
    | capturePointer => exact Keeps.discard rule.capturePointer_kept
    | releasePointer => exact Keeps.discard rule.releasePointer_kept
    | editEvent session event => exact rule.handleEditEvent_kept session event
  exact keeps service holds

theorem Rule.run_kept (holds : kept service) (steps : List Step) :
    kept (service.run setting steps) := by
  induction steps generalizing service with
  | nil => exact holds
  | cons step rest later => exact later (rule.step_kept holds step)

end Service

end Grab.Overlay
