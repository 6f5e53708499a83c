import Grab.Sequence.Command

/-!
# The overlay scene

`kernel/presentation/overlay_scene.cpp`: shapes in reusable entries, deadlines in order of
expiry, and the queue of deltas that a consumer replays.  Every function here is what one caller
does under the mutex.

Epochs and revisions do not reach their 64-bit limits; shape slots do reach theirs.
-/

namespace Grab.Overlay

open Grab.Lib

structure ShapeId where
  epoch : Nat := 0
  slot : Nat := 0
  deriving DecidableEq, Repr

structure ShapeRecord where
  id : ShapeId
  shape : Shape
  startedAt : Milliseconds
  deriving DecidableEq

inductive Change where
  | upsert (record : ShapeRecord)
  | remove (id : ShapeId)
  | clear (newEpoch : Nat)
  deriving DecidableEq

structure SceneDelta where
  epoch : Nat
  revision : Nat
  change : Change
  deriving DecidableEq

structure SceneSnapshot where
  epoch : Nat := 0
  throughRevision : Nat := 0
  shapes : List ShapeRecord := []
  deriving DecidableEq

/-! ## Shapes -/

def pointIsFinite (point : SpacePoint) : Bool := point.x.isFinite && point.y.isFinite

def pathCommandIsFinite : PathCommand → Bool
  | .moveTo point => pointIsFinite point
  | .lineTo point => pointIsFinite point
  | .bezierTo control => control.all pointIsFinite
  | .closePath => true

def geometryIsValid : Geometry → Bool
  | .path commands _ => !commands.isEmpty && commands.all pathCommandIsFinite
  | .rect bounds =>
    bounds.x.isFinite && bounds.y.isFinite && bounds.w.isFinite && bounds.h.isFinite
  | .ellipse center radiusX radiusY =>
    pointIsFinite center && radiusX.isFinite && radiusY.isFinite &&
      !radiusX.isNegative && !radiusY.isNegative
  | .polygon points => points.all pointIsFinite

def shapeIsValid (shape : Shape) : Bool :=
  (shape.stroke.isSome || shape.fill.isSome) && geometryIsValid shape.geometry

/-- Addition of two 64-bit counts that stops at the ends of their range. -/
def saturatingAdd (left right : Milliseconds) : Milliseconds :=
  max (-2 ^ 63) (min (2 ^ 63 - 1) (left + right))

def deadlineFor (record : ShapeRecord) : Option Milliseconds :=
  match record.shape.lifetime with
  | .persistent => none
  | .ttl duration => some (saturatingAdd record.startedAt duration)
  | .fade duration => some (saturatingAdd record.startedAt duration)

def deadlineIsDue (record : ShapeRecord) (now : Milliseconds) : Bool :=
  match deadlineFor record with
  | none => false
  | some deadline => deadline ≤ now

/-- Two lifetimes of the same kind. -/
def sameLifetime : LifetimePolicy → LifetimePolicy → Bool
  | .persistent, .persistent => true
  | .ttl _, .ttl _ => true
  | .fade _, .fade _ => true
  | _, _ => false

/-! ## The scene -/

structure Deadline where
  expiresAt : Milliseconds
  id : ShapeId
  entrySlot : Nat
  deriving DecidableEq, Repr

structure Scene where
  /-- Entries that are not live hold nothing. -/
  entries : List (Option ShapeRecord) := []
  /-- Entries to reuse, the next one last. -/
  freeSlots : List Nat := []
  deadlines : List Deadline := []
  pendingDeltas : List SceneDelta := []
  publicationCursor : Nat := 0
  epoch : Nat := 0
  revision : Nat := 0
  nextShapeSlot : Nat := 0
  publishing : Bool := false

def maximumSlot : Nat := 4294967295

namespace Scene

def deadlineLess (left right : Deadline) : Bool :=
  left.expiresAt < right.expiresAt ||
    left.expiresAt == right.expiresAt && left.id.slot < right.id.slot

def liveEntrySlot (scene : Scene) (id : ShapeId) : Option Nat :=
  scene.entries.findIdx? fun entry =>
    match entry with
    | some record => record.id == id
    | none => false

def removeDeadline (scene : Scene) (id : ShapeId) : Scene :=
  { scene with deadlines := scene.deadlines.filter fun deadline => deadline.id != id }

/-- Insertion in order, before what is not less. -/
def insertDeadline (scene : Scene) (record : ShapeRecord) (entrySlot : Nat) : Scene :=
  match deadlineFor record with
  | none => scene
  | some expiresAt =>
    let deadline : Deadline := { expiresAt, id := record.id, entrySlot }
    { scene with
      deadlines :=
        scene.deadlines.takeWhile (fun other => deadlineLess other deadline) ++
          deadline :: scene.deadlines.dropWhile fun other => deadlineLess other deadline }

def queueChange (scene : Scene) (change : Change) : Scene :=
  { scene with
    pendingDeltas := scene.pendingDeltas ++
      [{ epoch := scene.epoch, revision := scene.revision + 1, change }]
    revision := scene.revision + 1 }

/-- Take a live entry away. -/
def vacate (scene : Scene) (entrySlot : Nat) (id : ShapeId) : Scene :=
  { scene with
    entries := scene.entries.set entrySlot none
    freeSlots := scene.freeSlots ++ [entrySlot] }.queueChange (.remove id)

/-- One expired deadline; it may be out of date. -/
def expire (scene : Scene) (deadline : Deadline) : Scene :=
  match scene.entries[deadline.entrySlot]? with
  | some (some record) =>
    if record.id = deadline.id then scene.vacate deadline.entrySlot record.id else scene
  | _ => scene

def drainExpired (scene : Scene) (now : Milliseconds) : Scene :=
  let expired := scene.deadlines.takeWhile fun deadline => deadline.expiresAt ≤ now
  let waiting := scene.deadlines.dropWhile fun deadline => deadline.expiresAt ≤ now
  { expired.foldl expire scene with deadlines := waiting }

/-- Whether the caller has to publish; then it is the only one that does. -/
def beginPublication (scene : Scene) : Scene :=
  if scene.publishing ∨ scene.publicationCursor = scene.pendingDeltas.length then scene
  else { scene with publishing := true }

/-- Store a record in its entry, with its deadline, and queue it. -/
def store (scene : Scene) (entrySlot : Nat) (record : ShapeRecord) (now : Milliseconds) : Scene :=
  let stored := (scene.insertDeadline record entrySlot).queueChange (.upsert record)
  if deadlineIsDue record now then stored.drainExpired now else stored

/-- The record of a shape that is added now. -/
def newRecord (scene : Scene) (shape : Shape) (now : Milliseconds) : ShapeRecord where
  id := { epoch := scene.epoch, slot := scene.nextShapeSlot }
  shape := shape
  startedAt := now

def addEntry (scene : Scene) (shape : Shape) (now : Milliseconds) : Scene × Except Error ShapeId :=
  let record := scene.newRecord shape now
  if maximumSlot < scene.nextShapeSlot then
    (scene, .error { code := .overflowed, message := "overlay shape ids are exhausted" })
  else
    match scene.freeSlots.getLast? with
    | some entrySlot =>
      ({ scene with
          freeSlots := scene.freeSlots.dropLast
          entries := scene.entries.set entrySlot (some record)
          nextShapeSlot := scene.nextShapeSlot + 1 }.store entrySlot record now,
        .ok record.id)
    | none =>
      if maximumSlot < scene.entries.length then
        (scene, .error { code := .overflowed, message := "overlay shape storage is exhausted" })
      else
        ({ scene with
            entries := scene.entries ++ [some record]
            nextShapeSlot := scene.nextShapeSlot + 1 }.store scene.entries.length record now,
          .ok record.id)

def invalidGeometry : Error :=
  { code := .invalidArgument, message := "overlay shape geometry is invalid" }

def staleShape : Error := { code := .staleShape, message := "overlay shape id is stale" }

def add (scene : Scene) (now : Milliseconds) (shape : Shape) : Scene × Except Error ShapeId :=
  let drained := scene.drainExpired now
  let (added, result) :=
    if shapeIsValid shape then drained.addEntry shape now else (drained, .error invalidGeometry)
  (added.beginPublication, result)

/-- The entry of a shape of the current epoch. -/
def find (scene : Scene) (id : ShapeId) : Option Nat :=
  if id.epoch = scene.epoch then scene.liveEntrySlot id else none

def updateEntry (scene : Scene) (entrySlot : Nat) (id : ShapeId) (shape : Shape)
    (now : Milliseconds) : Scene :=
  match scene.entries[entrySlot]? with
  | some (some old) =>
    let startedAt := if sameLifetime old.shape.lifetime shape.lifetime then old.startedAt else now
    let record : ShapeRecord := { id, shape, startedAt }
    { scene.removeDeadline id with
      entries := scene.entries.set entrySlot (some record) }.store entrySlot record now
  | _ => scene

def update (scene : Scene) (now : Milliseconds) (id : ShapeId) (shape : Shape) :
    Scene × Except Error Unit :=
  let drained := scene.drainExpired now
  match drained.find id with
  | none => (drained.beginPublication, .error staleShape)
  | some entrySlot =>
    if shapeIsValid shape then
      ((drained.updateEntry entrySlot id shape now).beginPublication, .ok ())
    else
      (drained.beginPublication, .error invalidGeometry)

def remove (scene : Scene) (now : Milliseconds) (id : ShapeId) : Scene × Except Error Unit :=
  let drained := scene.drainExpired now
  match drained.find id with
  | none => (drained.beginPublication, .error staleShape)
  | some entrySlot =>
    (((drained.removeDeadline id).vacate entrySlot id).beginPublication, .ok ())

def clear (scene : Scene) (now : Milliseconds) : Scene :=
  let drained := scene.drainExpired now
  { drained with
    entries := drained.entries.map fun _ => none
    freeSlots := (List.range drained.entries.length).reverse
    deadlines := []
    epoch := drained.epoch + 1
    revision := 0
    nextShapeSlot := 0 }.queueChange (.clear (drained.epoch + 1)) |>.beginPublication

def bandOrder : Band → Nat
  | .annotationBand => 0
  | .trailBand => 1

/-- Band, then height, then slot. -/
def paintedBefore (left right : ShapeRecord) : Bool :=
  bandOrder left.shape.band < bandOrder right.shape.band ||
    left.shape.band == right.shape.band &&
      (left.shape.z < right.shape.z ||
        left.shape.z == right.shape.z && left.id.slot ≤ right.id.slot)

/-- The records of the live entries. -/
def live (scene : Scene) : List ShapeRecord := scene.entries.reduceOption

def snapshot (scene : Scene) (now : Milliseconds) : Scene × SceneSnapshot :=
  let drained := scene.drainExpired now
  (drained.beginPublication,
    { epoch := drained.epoch
      throughRevision := drained.revision
      shapes := drained.live.mergeSort paintedBefore })

/-- One round of `drain_publications` under the mutex: the next delta, or the end. -/
def takeDelta (scene : Scene) : Scene × Option SceneDelta :=
  match scene.pendingDeltas[scene.publicationCursor]? with
  | none =>
    ({ scene with pendingDeltas := [], publicationCursor := 0, publishing := false }, none)
  | some delta => ({ scene with publicationCursor := scene.publicationCursor + 1 }, some delta)

end Scene

end Grab.Overlay
