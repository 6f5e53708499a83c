import Grab.Lib.Stateful
import Grab.Overlay.Replay

/-!
# The overlay service

`kernel/presentation/overlay_service.cpp` with its edit session (`overlay_edit_session.cpp`) and the
interaction behind a drag (`overlay_edit.cpp`), over a delegate whose calls may fail.  An operation
runs to its end under the mutex of the service; the callbacks it owes come last.

Taken as given: the transform into the space of the delegate, the hit test, the outline of what can
be edited, and the shape a drag makes.
-/

namespace Grab.Overlay

open Grab.Lib

structure Rectangle where
  x : Int
  y : Int
  width : Nat
  height : Nat
  deriving DecidableEq, Repr

inductive EditEventKind where
  | buttonPress | pointerMotion | buttonRelease | notifyUngrab
  deriving DecidableEq, Repr

structure EditEvent where
  kind : EditEventKind
  position : SpacePoint
  button : Nat := 0

inductive ResizeHandle where
  | topLeft | top | topRight | right | bottomRight | bottom | bottomLeft | left
  deriving DecidableEq, Repr

/-- What a call that failed leaves behind in the delegate. -/
structure Leftover where
  mirror : SceneSnapshot := {}
  region : List Rectangle := []
  grabbed : Bool := false

/-- What the service is built on, and what happens to it from outside. -/
structure Setting where
  delegateSpace : CoordinateSpaceId := ⟨0⟩
  surfaceBounds : Rectangle
  transformShape : Shape → Except Error Shape
  /-- The record hit, and the handle if one was hit. -/
  detailedHitTest : List ShapeRecord → List ShapeId → SpacePoint →
    Option (ShapeRecord × Option ResizeHandle)
  editInputRegion : List ShapeRecord → List ShapeId → List Rectangle
  /-- A shape dragged from one point to another. -/
  draggedShape : Shape → Option ResizeHandle → SpacePoint → SpacePoint → Option Shape
  /-- The readings of the clock. -/
  clock : Nat → Milliseconds
  /-- Which calls of the delegate fail, and how. -/
  replies : Nat → Option Error
  leftover : Nat → Leftover

/-! ## Geometry in the space of the delegate -/

def pathCommandIsInSpace (space : CoordinateSpaceId) : PathCommand → Bool
  | .moveTo point => point.space == space
  | .lineTo point => point.space == space
  | .bezierTo control => control.all fun point => point.space == space
  | .closePath => true

def geometryIsInSpace (space : CoordinateSpaceId) : Geometry → Bool
  | .path commands _ => commands.all (pathCommandIsInSpace space)
  | .rect bounds => bounds.space == space
  | .ellipse center _ _ => center.space == space
  | .polygon points => points.all fun point => point.space == space

namespace Setting

def transformRecord (setting : Setting) (record : ShapeRecord) : Except Error ShapeRecord :=
  (setting.transformShape record.shape).map fun shape => { record with shape }

def transformDelta (setting : Setting) (delta : SceneDelta) : Except Error SceneDelta :=
  match delta.change with
  | .upsert record =>
    (setting.transformRecord record).map fun record => { delta with change := .upsert record }
  | _ => .ok delta

def transformSnapshot (setting : Setting) (snapshot : SceneSnapshot) : Except Error SceneSnapshot :=
  (snapshot.shapes.mapM setting.transformRecord).map fun shapes => { snapshot with shapes }

end Setting

/-! ## The delegate -/

/-- What the service asked of the delegate about the scene, and whether it was done. -/
inductive Traffic where
  | applied (delta : SceneDelta)
  | applyFailed (delta : SceneDelta)
  | resynced (snapshot : SceneSnapshot)
  | resyncFailed (snapshot : SceneSnapshot)

structure Delegate where
  mirror : SceneSnapshot := {}
  region : List Rectangle := []
  grabbed : Bool := false
  traffic : List Traffic := []

/-! ## Edit sessions -/

/-- A drag under way. -/
structure Interaction where
  original : Shape
  target : ShapeId
  beganAt : SpacePoint
  handle : Option ResizeHandle

structure Session where
  number : Nat
  editable : List ShapeId := []
  live : Bool := false
  /-- The session still knows the delegate. -/
  attached : Bool := true
  interaction : Option Interaction := none
  target : Option ShapeId := none
  originalShape : Option Shape := none
  button : Nat := 0
  pointerGrabbed : Bool := false
  editHandlerInstalled : Bool := false
  nonemptyRegionInstalled : Bool := false
  error : Option Error := none

def Interaction.update (setting : Setting) (interaction : Interaction) (position : SpacePoint) :
    Option Shape :=
  if pointIsFinite position ∧ position.space = interaction.beganAt.space then
    setting.draggedShape interaction.original interaction.handle interaction.beganAt position
  else none

namespace Session

def dragging (session : Session) : Bool := session.interaction.isSome

/-- The interaction that begins at a point, with the record it is about. -/
def beginning (setting : Setting) (session : Session) (shapes : List ShapeRecord)
    (position : SpacePoint) : Option (Interaction × ShapeRecord) :=
  if session.live ∧ position.space = setting.delegateSpace ∧ ¬session.dragging then
    match setting.detailedHitTest shapes session.editable position with
    | none => none
    | some (hit, handle) =>
      if session.editable.contains hit.id && hit.shape.animation.isNone then
        (shapes.find? fun record => record.id == hit.id).map fun record =>
          ({ original := hit.shape, target := hit.id, beganAt := position, handle }, record)
      else none
  else none

def update (setting : Setting) (session : Session) (position : SpacePoint) : Option Shape :=
  session.interaction.bind fun interaction => interaction.update setting position

def finishDrag (session : Session) : Session :=
  { session with originalShape := none, target := none, button := 0 }

def cancelInteraction (session : Session) : Session :=
  { session with interaction := none }.finishDrag

def rememberError (session : Session) (error : Error) : Session :=
  { session with error := session.error <|> some error }

def detachDelegate (session : Session) : Session :=
  { session with
    live := false
    attached := false
    pointerGrabbed := false
    editHandlerInstalled := false
    nonemptyRegionInstalled := false }.cancelInteraction

end Session

/-! ## The service -/

structure Notification where
  session : Nat
  id : ShapeId
  /-- The committed shape; without one the drag was cancelled. -/
  shape : Option Shape
  /-- The shape from before the drag was put back. -/
  restored : Bool := false

/-- A drag that began: its session, its target and the shape the target had. -/
structure Begun where
  session : Nat
  target : ShapeId
  shape : Shape

structure Service where
  scene : Scene := {}
  desynchronized : Bool := false
  pointerCaptured : Bool := false
  /-- The last session. -/
  session : Session := { number := 0, attached := false }
  /-- The service holds that session. -/
  owned : Bool := false
  sessions : Nat := 0
  delegate : Delegate := {}
  readings : Nat := 0
  calls : Nat := 0
  begun : List Begun := []
  notified : List Notification := []

abbrev Action := StateM Service

namespace Service

variable (setting : Setting)

def clock : Action Milliseconds :=
  modifyGet fun service =>
    (setting.clock service.readings, { service with readings := service.readings + 1 })

/-- One call of the delegate. -/
def ask (accept : Delegate → Delegate) (refuse : Leftover → Delegate → Delegate) :
    Action (Except Error Unit) :=
  modifyGet fun service =>
    match setting.replies service.calls with
    | none =>
      (.ok (), { service with calls := service.calls + 1, delegate := accept service.delegate })
    | some error =>
      (.error error,
        { service with
          calls := service.calls + 1
          delegate := refuse (setting.leftover service.calls) service.delegate })

variable {setting} in
/-- A call is accepted and carried out, or refused with whatever that leaves. -/
theorem ask_bind {α : Type} {pre : Service → Prop} {post : α → Service → Prop}
    {accept : Delegate → Delegate} {refuse : Leftover → Delegate → Delegate}
    {next : Except Error Unit → Action α}
    (accepted : ∀ service, pre service → setting.replies service.calls = none →
      Ensures (fun after => after = { service with
        calls := service.calls + 1, delegate := accept service.delegate }) (next (.ok ())) post)
    (refused : ∀ service error, pre service → setting.replies service.calls = some error →
      Ensures (fun after => after = { service with
        calls := service.calls + 1
        delegate := refuse (setting.leftover service.calls) service.delegate })
        (next (.error error)) post) :
    Ensures pre (ask setting accept refuse >>= next) post := by
  refine Ensures.bind (fun result after => ∃ service, pre service ∧
    (setting.replies service.calls = none ∧ result = .ok () ∧ after = { service with
      calls := service.calls + 1, delegate := accept service.delegate } ∨
    ∃ error, setting.replies service.calls = some error ∧ result = .error error ∧
      after = { service with
        calls := service.calls + 1
        delegate := refuse (setting.leftover service.calls) service.delegate })) ?_ ?_
  · apply Ensures.modifyGet
    intro service holds
    split
    · rename_i reply
      exact ⟨service, holds, .inl ⟨reply, rfl, rfl⟩⟩
    · rename_i error reply
      exact ⟨service, holds, .inr ⟨error, reply, rfl, rfl⟩⟩
  · rintro result after ⟨service, holds, ⟨reply, rfl, rfl⟩ | ⟨error, reply, rfl, rfl⟩⟩
    · exact accepted service holds reply _ rfl
    · exact refused service error holds reply _ rfl

/-- A change carried out on a copy of the scene. -/
def mirrored (mirror : SceneSnapshot) (delta : SceneDelta) : SceneSnapshot where
  epoch := delta.epoch
  throughRevision := delta.revision
  shapes := applyChange mirror.shapes delta.change

def delegateApply (delta : SceneDelta) : Action (Except Error Unit) :=
  ask setting
    (fun delegate =>
      { delegate with
        mirror := mirrored delegate.mirror delta
        traffic := delegate.traffic ++ [.applied delta] })
    (fun leftover delegate =>
      { delegate with
        mirror := leftover.mirror
        traffic := delegate.traffic ++ [.applyFailed delta] })

def delegateResync (snapshot : SceneSnapshot) : Action (Except Error Unit) :=
  ask setting
    (fun delegate =>
      { delegate with
        mirror := snapshot
        traffic := delegate.traffic ++ [.resynced snapshot] })
    (fun leftover delegate =>
      { delegate with
        mirror := leftover.mirror
        traffic := delegate.traffic ++ [.resyncFailed snapshot] })

def delegateFlush : Action (Except Error Unit) :=
  ask setting id fun leftover delegate => { delegate with mirror := leftover.mirror }

def setInputRegion (region : List Rectangle) : Action (Except Error Unit) :=
  ask setting (fun delegate => { delegate with region })
    fun leftover delegate => { delegate with region := leftover.region }

def setEditHandler : Action (Except Error Unit) := ask setting id fun _ delegate => delegate

def delegateGrab : Action (Except Error Unit) :=
  ask setting (fun delegate => { delegate with grabbed := true })
    fun leftover delegate => { delegate with grabbed := leftover.grabbed }

def delegateUngrab : Action (Except Error Unit) :=
  ask setting (fun delegate => { delegate with grabbed := false })
    fun leftover delegate => { delegate with grabbed := leftover.grabbed }

/-! ### Following the scene -/

def setDesynchronized (desynchronized : Bool) : Action PUnit :=
  modify fun service => { service with desynchronized }

/-- The sink of the scene. -/
def publish (delta : SceneDelta) : Action PUnit := do
  if (← get).desynchronized then
    pure ⟨⟩
  else
    match setting.transformDelta delta with
    | .error _ => setDesynchronized true
    | .ok transformed =>
      match ← delegateApply setting transformed with
      | .error _ => setDesynchronized true
      | .ok () => pure ⟨⟩

def takeDelta : Action PUnit :=
  modify fun service => { service with scene := service.scene.takeDelta.1 }

/-- Publish the deltas that are queued; the sink does not come back to the scene. -/
def drainPublications : List SceneDelta → Action PUnit
  | [] => takeDelta
  | delta :: rest => do
      takeDelta
      publish setting delta
      drainPublications rest

/-- An operation of the scene, with the publication it has to do. -/
def onScene {α : Type} (operation : Milliseconds → Scene → Scene × α) : Action α := do
  let now ← clock setting
  let before ← get
  let result ← modifyGet fun service =>
    ((operation now service.scene).2, { service with scene := (operation now service.scene).1 })
  let after ← get
  onlyIf (!before.scene.publishing && after.scene.publishing)
    (drainPublications setting (after.scene.pendingDeltas.drop after.scene.publicationCursor))
  pure result

def sceneAdd (shape : Shape) : Action (Except Error ShapeId) :=
  onScene setting fun now scene => scene.add now shape

def sceneUpdate (id : ShapeId) (shape : Shape) : Action (Except Error Unit) :=
  onScene setting fun now scene => scene.update now id shape

def sceneRemove (id : ShapeId) : Action (Except Error Unit) :=
  onScene setting fun now scene => scene.remove now id

def sceneClear : Action PUnit := onScene setting fun now scene => (scene.clear now, ⟨⟩)

def sceneSnapshot : Action SceneSnapshot := onScene setting fun now scene => scene.snapshot now

def recover (snapshot : SceneSnapshot) : Action (Except Error Unit) := do
  match setting.transformSnapshot snapshot with
  | .error error =>
    setDesynchronized true
    pure (.error error)
  | .ok transformed =>
    match ← delegateResync setting transformed with
    | .error error =>
      setDesynchronized true
      pure (.error error)
    | .ok () =>
      setDesynchronized false
      pure (.ok ())

def recoverBestEffort : Action PUnit := do
  if (← get).desynchronized then
    let snapshot ← sceneSnapshot setting
    discard (recover setting snapshot)

/-! ### The edit session -/

def onSession (change : Session → Session) : Action PUnit :=
  modify fun service => { service with session := change service.session }

def detached : Error := { code := .invalidArgument, message := "overlay edit session is detached" }

def refreshRegion (shapes : List ShapeRecord) : Action (Except Error Unit) := do
  let session := (← get).session
  if session.attached then
    let region := setting.editInputRegion shapes session.editable
    onlyIf (!region.isEmpty)
      (onSession fun session => { session with nonemptyRegionInstalled := true })
    let installed ← setInputRegion setting region
    onlyIf installed.isOk
      (onSession fun session => { session with nonemptyRegionInstalled := !region.isEmpty })
    pure installed
  else
    pure (.error detached)

def grabPointer : Action (Except Error Unit) := do
  let session := (← get).session
  if session.pointerGrabbed then
    pure (.ok ())
  else if session.attached then
    onSession fun session => { session with pointerGrabbed := true }
    delegateGrab setting
  else
    pure (.error detached)

/-- Give up a grab that may be held. -/
def ungrab : Action (Except Error Unit) := do
  if (← get).session.pointerGrabbed then
    let released ← delegateUngrab setting
    onlyIf released.isOk (onSession fun session => { session with pointerGrabbed := false })
    pure released
  else
    pure (.ok ())

def releaseSessionPointer : Action (Except Error Unit) := do
  if (← get).session.attached then
    let released ← ungrab setting
    onError released fun error => onSession fun session => session.rememberError error
    pure released
  else
    onSession fun session => { session with pointerGrabbed := false }
    pure (.ok ())

def emptyRegion : Action (Except Error Unit) := do
  let session := (← get).session
  if session.editHandlerInstalled || session.nonemptyRegionInstalled then
    let emptied ← setInputRegion setting []
    onlyIf emptied.isOk (onSession fun session => { session with nonemptyRegionInstalled := false })
    pure emptied
  else
    pure (.ok ())

def clearHandler : Action (Except Error Unit) := do
  if (← get).session.editHandlerInstalled then
    let cleared ← setEditHandler setting
    onlyIf cleared.isOk (onSession fun session => { session with editHandlerInstalled := false })
    pure cleared
  else
    pure (.ok ())

/-- The first of three failures. -/
def firstError : Except Error Unit → Except Error Unit → Except Error Unit → Except Error Unit
  | .error error, _, _ => .error error
  | .ok (), .error error, _ => .error error
  | .ok (), .ok (), third => third

def stop : Action (Except Error Unit) := do
  onSession fun session => { session with live := false }.cancelInteraction
  if (← get).session.attached then
    let ungrabbed ← ungrab setting
    let emptied ← emptyRegion setting
    let cleared ← clearHandler setting
    onError (firstError ungrabbed emptied cleared) fun error =>
      onSession fun session => session.rememberError error
    pure (firstError ungrabbed emptied cleared)
  else
    onSession fun session =>
      { session with
        pointerGrabbed := false
        editHandlerInstalled := false
        nonemptyRegionInstalled := false }
    pure (.ok ())

/-- Stop, once more when the first time failed. -/
def stopTwice : Action (Except Error Unit) := do
  let stopped ← stop setting
  match stopped with
  | .ok () => pure (.ok ())
  | .error _ => stop setting

/-- The service lets go of a session that is stopped, and keeps one whose cleanup failed. -/
def terminateEdit : Action (Except Error Unit) := do
  let stopped ← stopTwice setting
  match stopped with
  | .error error => pure (.error error)
  | .ok () =>
    modify fun service =>
      { service with session := service.session.detachDelegate, owned := false }
    pure (.ok ())

/-- Put the original shape back; whether that was accepted. -/
def restoreOriginal (id : ShapeId) : Action Bool := do
  match (← get).session.originalShape with
  | none => pure false
  | some shape =>
    match ← sceneUpdate setting id shape with
    | .ok () => pure true
    | .error error =>
      onlyIf (error.code != .staleShape) (onSession fun session => session.rememberError error)
      pure false

def cancelDrag (restore : Bool) : Action (Option Notification) := do
  let session := (← get).session
  if session.dragging then
    let id := session.target.getD {}
    let restored ← (if restore then restoreOriginal setting id else pure false)
    onSession Session.cancelInteraction
    let released ← releaseSessionPointer setting
    onError released fun _ => discard (terminateEdit setting)
    pure (some { session := session.number, id, shape := none, restored })
  else
    pure none

/-- Keep the first of two notifications. -/
def keepFirst (first second : Option Notification) : Option Notification := first <|> second

def becameIneligible (editable : List ShapeId) (shapes : List ShapeRecord) : Bool :=
  shapes.any fun record =>
    editable.contains record.id &&
      (record.shape.animation.isSome ||
        !geometryIsInSpace setting.delegateSpace record.shape.geometry)

def ineligible : Error :=
  { code := .invalidArgument, message := "an editable overlay shape became ineligible" }

/-- End the session with an error; a drag that was not cancelled yet is. -/
def failEdit (notification : Option Notification) (error : Error) :
    Action (Option Notification) := do
  let notification ←
    (if notification.isNone then cancelDrag setting true else pure notification)
  onSession fun session => session.rememberError error
  discard (terminateEdit setting)
  pure notification

/-- A snapshot, after a drag whose target is gone was cancelled. -/
def refreshTarget : Action (Option Notification × SceneSnapshot) := do
  let snapshot ← sceneSnapshot setting
  let session := (← get).session
  if session.dragging &&
      !snapshot.shapes.any fun record => record.id == session.target.getD {} then
    let notification ← cancelDrag setting false
    let snapshot ← sceneSnapshot setting
    pure (notification, snapshot)
  else
    pure (none, snapshot)

def refreshEdit : Action (Option Notification) := do
  let service ← get
  if !service.owned then
    pure none
  else if !service.session.live then
    discard (terminateEdit setting)
    pure none
  else
    let (notification, snapshot) ← refreshTarget setting
    let service ← get
    if !service.owned then
      pure notification
    else if becameIneligible setting service.session.editable snapshot.shapes then
      failEdit setting notification ineligible
    else
      match ← refreshRegion setting snapshot.shapes with
      | .error error => failEdit setting notification error
      | .ok () => pure notification

def invokeNotification (notification : Option Notification) : Action PUnit :=
  modify fun service => { service with notified := service.notified ++ notification.toList }

/-! ### Operations -/

def add (shape : Shape) : Action (Except Error ShapeId) := do
  recoverBestEffort setting
  let result ←
    (match setting.transformShape shape with
    | .error error => pure (.error error)
    | .ok _ => sceneAdd setting shape)
  let notification ← refreshEdit setting
  invokeNotification notification
  pure result

/-- Add shapes until one is refused. -/
def addEach (ids : List ShapeId) : List Shape → Action (Except Error (List ShapeId))
  | [] => pure (.ok ids)
  | shape :: rest => do
      match ← sceneAdd setting shape with
      | .error error => pure (.error error)
      | .ok id => addEach (ids ++ [id]) rest

def addMany (shapes : List Shape) : Action (Except Error (List ShapeId)) := do
  recoverBestEffort setting
  let result ←
    (match shapes.mapM setting.transformShape with
    | .error error => pure (.error error)
    | .ok _ => addEach setting [] shapes)
  let notification ← refreshEdit setting
  invokeNotification notification
  pure result

/-- A drag on a shape that was changed or removed is over. -/
def cancelTarget (id : ShapeId) : Action (Option Notification) := do
  let service ← get
  if service.owned && service.session.dragging && service.session.target.getD {} == id then
    cancelDrag setting false
  else
    pure none

def update (id : ShapeId) (shape : Shape) : Action (Except Error Unit) := do
  recoverBestEffort setting
  match setting.transformShape shape with
  | .error error =>
    let refreshed ← refreshEdit setting
    invokeNotification refreshed
    pure (.error error)
  | .ok _ =>
    let result ← sceneUpdate setting id shape
    let notification ← (if result.isOk then cancelTarget setting id else pure none)
    let refreshed ← refreshEdit setting
    invokeNotification (keepFirst notification refreshed)
    pure result

def remove (id : ShapeId) : Action (Except Error Unit) := do
  recoverBestEffort setting
  let result ← sceneRemove setting id
  let notification ← (if result.isOk then cancelTarget setting id else pure none)
  let refreshed ← refreshEdit setting
  invokeNotification (keepFirst notification refreshed)
  pure result

def clear : Action PUnit := do
  recoverBestEffort setting
  sceneClear setting
  let service ← get
  let notification ←
    (if service.owned && service.session.dragging then cancelDrag setting false else pure none)
  let refreshed ← refreshEdit setting
  invokeNotification (keepFirst notification refreshed)

/-- A fence; when it fails it is tried once more behind a resync. -/
def fence (snapshot : SceneSnapshot) : Action (Except Error Unit) := do
  let flushed ← delegateFlush setting
  match flushed with
  | .ok () => pure (.ok ())
  | .error _ =>
    setDesynchronized true
    match ← recover setting snapshot with
    | .error error => pure (.error error)
    | .ok () =>
      let again ← delegateFlush setting
      match again with
      | .ok () => pure (.ok ())
      | .error error =>
        setDesynchronized true
        pure (.error error)

def flush : Action (Except Error Unit) := do
  let notification ← refreshEdit setting
  let snapshot ← sceneSnapshot setting
  let service ← get
  let recovered ←
    (if service.desynchronized then recover setting snapshot else pure (.ok ()))
  let result ←
    (match recovered with
    | .error error => pure (.error error)
    | .ok () => fence setting snapshot)
  invokeNotification notification
  pure result

/-! ### Sessions and the pointer -/

def sessionExists : Error :=
  { code := .sessionExists, message := "an overlay edit session is already active" }

/-- Why a shape cannot be edited. -/
def editableError (shapes : List ShapeRecord) (id : ShapeId) : Option Error :=
  match shapes.find? fun record => record.id == id with
  | none => some { code := .staleShape, message := "overlay edit shape id is stale" }
  | some record =>
    if record.shape.animation.isSome then
      some { code := .invalidArgument, message := "animated overlay shapes are not editable" }
    else if geometryIsInSpace setting.delegateSpace record.shape.geometry then
      none
    else
      some
        { code := .invalidArgument
          message := "overlay edit geometry must already be in delegate space" }

/-- Undo a session that did not start. -/
def rollback : Action PUnit := do
  discard (stopTwice setting)
  onSession Session.detachDelegate

/-- `OverlayEditSession::start`. -/
def startSession (shapes : List ShapeRecord) (editable : List ShapeId) :
    Action (Except Error Nat) := do
  let number := (← get).sessions
  modify fun service =>
    { service with
      session := { number, editable, editHandlerInstalled := true }
      owned := false
      sessions := service.sessions + 1 }
  match ← setEditHandler setting with
  | .error error =>
    rollback setting
    pure (.error error)
  | .ok () =>
    match ← refreshRegion setting shapes with
    | .error error =>
      onSession fun session => session.rememberError error
      rollback setting
      pure (.error error)
    | .ok () =>
      modify fun service =>
        { service with session := { service.session with live := true }, owned := true }
      pure (.ok number)

def startFresh (editable : List ShapeId) : Action (Except Error Nat) := do
  recoverBestEffort setting
  let snapshot ← sceneSnapshot setting
  match editable.findSome? (editableError setting snapshot.shapes) with
  | some error => pure (.error error)
  | none => startSession setting snapshot.shapes editable

def startEdit (editable : List ShapeId) : Action (Except Error Nat) := do
  let service ← get
  if service.owned then
    if service.session.live then
      pure (.error sessionExists)
    else
      match ← terminateEdit setting with
      | .error error => pure (.error error)
      | .ok () => startFresh setting editable
  else
    startFresh setting editable

def stopEdit (number : Nat) : Action (Except Error Unit) := do
  let service ← get
  if service.owned && service.session.number == number then
    let notification ← cancelDrag setting true
    let service ← get
    let result ← (if service.owned then terminateEdit setting else pure (.ok ()))
    invokeNotification notification
    pure result
  else
    pure (.ok ())

def releasePointer : Action (Except Error Unit) := do
  if (← get).pointerCaptured then
    let released ← delegateUngrab setting
    let emptied ← setInputRegion setting []
    modify fun service => { service with pointerCaptured := false }
    match released with
    | .error error => pure (.error error)
    | .ok () => pure emptied
  else
    pure (.ok ())

def noExtent : Error :=
  { code := .capabilityUnavailable
    message := "overlay delegate does not report a surface extent" }

def capturePointer : Action (Except Error Unit) := do
  if (← get).pointerCaptured then
    pure (.ok ())
  else if setting.surfaceBounds.width == 0 || setting.surfaceBounds.height == 0 then
    pure (.error noExtent)
  else
    match ← setInputRegion setting [setting.surfaceBounds] with
    | .error error => pure (.error error)
    | .ok () =>
      modify fun service => { service with pointerCaptured := true }
      match ← delegateGrab setting with
      | .error error =>
        discard (releasePointer setting)
        pure (.error error)
      | .ok () => pure (.ok ())

/-! ### Edit events -/

def primaryPointerButton : Nat := 1

/-- Begin a drag, if something is hit. -/
def beginDrag (shapes : List ShapeRecord) (event : EditEvent) : Action Bool := do
  let session := (← get).session
  match session.beginning setting shapes event.position with
  | none => pure false
  | some (interaction, record) =>
    modify fun service =>
      { service with
        session :=
          { session with
            interaction := some interaction
            target := some interaction.target
            originalShape := some record.shape
            button := event.button }
        begun := service.begun ++
          [{ session := session.number, target := interaction.target, shape := record.shape }] }
    pure true

def buttonPress (event : EditEvent) : Action (Option Notification) := do
  let session := (← get).session
  if !session.dragging && event.button == primaryPointerButton then
    let snapshot ← sceneSnapshot setting
    if ← beginDrag setting snapshot.shapes event then
      match ← grabPointer setting with
      | .ok () => pure none
      | .error error =>
        onSession fun session => session.rememberError error
        let notification ← cancelDrag setting false
        discard (terminateEdit setting)
        pure notification
    else
      pure none
  else
    pure none

/-- The scene refused the shape of a drag. -/
def refuseShape (error : Error) : Action (Option Notification) := do
  if error.code = .staleShape then
    cancelDrag setting false
  else
    let notification ← cancelDrag setting true
    onSession fun session => session.rememberError error
    discard (terminateEdit setting)
    pure notification

def pointerMotion (event : EditEvent) : Action (Option Notification) := do
  let session := (← get).session
  match session.update setting event.position with
  | none => pure none
  | some preview =>
    match ← sceneUpdate setting (session.target.getD {}) preview with
    | .error error => refuseShape setting error
    | .ok () => refreshEdit setting

/-- Commit a drag whose last shape the scene has accepted. -/
def commitDrag (target : ShapeId) (event : EditEvent) (notification : Option Notification) :
    Action (Option Notification) := do
  match ← releaseSessionPointer setting with
  | .error _ =>
    let notification ← cancelDrag setting true
    discard (terminateEdit setting)
    pure notification
  | .ok () =>
    let session := (← get).session
    match session.update setting event.position with
    | none => pure notification
    | some committed =>
      onSession Session.cancelInteraction
      pure (some { session := session.number, id := target, shape := some committed })

def buttonRelease (event : EditEvent) : Action (Option Notification) := do
  let session := (← get).session
  if event.button == session.button then
    match session.update setting event.position with
    | none => pure none
    | some final =>
      let target := session.target.getD {}
      match ← sceneUpdate setting target final with
      | .error error => refuseShape setting error
      | .ok () =>
        let notification ← refreshEdit setting
        let service ← get
        if service.owned && service.session.dragging then
          commitDrag setting target event notification
        else
          pure notification
  else
    pure none

def notifyUngrab : Action (Option Notification) := do
  onSession fun session => { session with pointerGrabbed := false }
  if (← get).session.dragging then
    let notification ← cancelDrag setting true
    let refreshed ← refreshEdit setting
    pure (keepFirst notification refreshed)
  else
    pure none

/-- An event behind the refresh that comes first. -/
def dispatch (event : EditEvent) (notification : Option Notification) :
    Action (Option Notification) := do
  match event.kind with
  | .buttonPress => if notification.isNone then buttonPress setting event else pure notification
  | .pointerMotion => if notification.isNone then pointerMotion setting event else pure notification
  | .buttonRelease => if notification.isNone then buttonRelease setting event else pure notification
  | .notifyUngrab => return keepFirst (← notifyUngrab setting) notification

def loseGrab : Action PUnit :=
  modify fun service => { service with delegate := { service.delegate with grabbed := false } }

/-- An event for a session; the server takes the grab away before it says so. -/
def handleEditEvent (number : Nat) (event : EditEvent) : Action PUnit := do
  let service ← get
  if service.owned && service.session.number == number && service.session.live then
    onlyIf (event.kind == .notifyUngrab) loseGrab
    let notification ← refreshEdit setting
    let service ← get
    let notification ←
      (if service.owned && service.session.live then dispatch setting event notification
      else pure notification)
    invokeNotification notification

/-! ### Runs -/

inductive Step where
  | add (shape : Shape)
  | addMany (shapes : List Shape)
  | update (id : ShapeId) (shape : Shape)
  | remove (id : ShapeId)
  | clear
  | flush
  | startEdit (editable : List ShapeId)
  | stopEdit (session : Nat)
  | capturePointer
  | releasePointer
  | editEvent (session : Nat) (event : EditEvent)

def perform : Step → Action PUnit
  | .add shape => discard (add setting shape)
  | .addMany shapes => discard (addMany setting shapes)
  | .update id shape => discard (update setting id shape)
  | .remove id => discard (remove setting id)
  | .clear => clear setting
  | .flush => discard (flush setting)
  | .startEdit editable => discard (startEdit setting editable)
  | .stopEdit session => discard (stopEdit setting session)
  | .capturePointer => discard (capturePointer setting)
  | .releasePointer => discard (releasePointer setting)
  | .editEvent session event => handleEditEvent setting session event

def step (service : Service) (step : Step) : Service := ((perform setting step).run service).2

def run (service : Service) (steps : List Step) : Service := steps.foldl (step setting) service

end Service

end Grab.Overlay
