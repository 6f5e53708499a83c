import Grab.Overlay.Effects
import Grab.Sequence.Player.Core

/-!
# The overlay of a sequence run

What `sequence/session_seat.hpp` draws: the handles of a document, the shapes they name and the
overlay they are placed on.  Beside it stands `track_handles` of `kernel/sequence/interpreter.cpp`,
the loader's idea of a handle that is live.

Taken as given: what opening a session yields, where the pointer is, and the floating-point
arithmetic of a carry.
-/

namespace Grab.Sequence

open Grab.Lib
open Grab.Geometry (Point)
open Grab.Overlay (Shape Geometry PathCommand ShapeId ShapeRecord Service)

/-! ## Geometry -/

def stampCommand (space : CoordinateSpaceId) : PathCommand → PathCommand
  | .moveTo point => .moveTo { point with space }
  | .lineTo point => .lineTo { point with space }
  | .bezierTo control => .bezierTo (control.map fun point => { point with space })
  | .closePath => .closePath

/-- A document names no space. -/
def stampSpace (space : CoordinateSpaceId) : Geometry → Geometry
  | .path commands closed => .path (commands.map (stampCommand space)) closed
  | .rect bounds => .rect { bounds with space }
  | .ellipse center radiusX radiusY => .ellipse { center with space } radiusX radiusY
  | .polygon points => .polygon (points.map fun point => { point with space })

def stamped (space : CoordinateSpaceId) (shape : Shape) : Shape :=
  { shape with geometry := stampSpace space shape.geometry }

/-! ## The seat -/

/-- Where a shape that rides the pointer stays. -/
inductive Offset where
  | given (offset : Point)
  /-- The gap a shape had when it was picked up. -/
  | gap (geometry : Geometry) (pointer : Point)

structure Placed where
  handle : String
  id : ShapeId
  shape : Shape
  offset : Offset := .given {}
  attached : Bool := false

/-- The overlay with the shapes that have a handle. -/
structure Surface where
  service : Service
  /-- The session behind the facade is closed. -/
  closed : Bool := false
  shapes : List Placed := []
  /-- How often the pointer was looked for. -/
  readings : Nat := 0

/-- Nothing is placed before the overlay is open. -/
structure SessionSeat where
  surface : Option Surface := none
  openings : Nat := 0

structure SeatSetting where
  overlay : Overlay.Setting
  /-- What an attempt to open a session comes to. -/
  opened : Nat → Except Error Service
  position : Nat → Except Error Point
  carried : Geometry → Offset → Point → Geometry

abbrev Answer := Except Error Unit

def sessionClosed : Error := { code := .sessionClosed, message := "session is closed" }

def unknownHandle (handle : String) : Error :=
  { code := .noMatch
    message := "overlay handle '" ++ handle ++ "' names no shape this run has added" }

/-- A shape that is gone already is as good as removed. -/
def forgiven : Answer → Answer
  | .ok () => .ok ()
  | .error error => if error.code = .staleShape then .ok () else .error error

namespace Surface

/-- One call of the facade. -/
def invoke {α : Type} (surface : Surface) (operation : Overlay.Action (Except Error α)) :
    Except Error α × Surface :=
  if surface.closed then (.error sessionClosed, surface)
  else
    let (result, service) := operation.run surface.service
    (result, { surface with service })

/-- The handles that name a shape. -/
def handles (surface : Surface) : List String := surface.shapes.map Placed.handle

def findShape (surface : Surface) (handle : String) : Option Placed :=
  surface.shapes.find? fun entry => entry.handle == handle

/-- Take the entries of a handle away. -/
def forget (surface : Surface) (handle : String) : Surface :=
  { surface with shapes := surface.shapes.filter fun entry => entry.handle != handle }

/-- Write an entry where one with its handle is. -/
def store (surface : Surface) (entry : Placed) : Surface :=
  { surface with
    shapes := surface.shapes.map fun other => if other.handle = entry.handle then entry else other }

/-- What is written down once the facade has accepted a call. -/
def settle {α : Type} (result : Except Error α × Surface) (next : α → Surface → Surface) :
    Answer × Surface :=
  match result.1 with
  | .error error => (.error error, result.2)
  | .ok value => (.ok (), next value result.2)

/-- Shapes without a handle are never referred to again. -/
def keep (surface : Surface) (handle : String) (id : ShapeId) (shape : Shape) : Surface :=
  if handle = "" then surface
  else
    let surface := surface.forget handle
    { surface with shapes := surface.shapes ++ [{ handle, id, shape }] }

variable (setting : SeatSetting)

def place (surface : Surface) (handle : String) (shape : Shape) : Answer × Surface :=
  let shape := stamped setting.overlay.delegateSpace shape
  settle (surface.invoke (Service.add setting.overlay shape)) fun id surface =>
    surface.keep handle id shape

def update (shape : Shape) (surface : Surface) (entry : Placed) : Answer × Surface :=
  let shape := stamped setting.overlay.delegateSpace shape
  settle (surface.invoke (Service.update setting.overlay entry.id shape)) fun _ surface =>
    surface.store { entry with shape }

def remove (surface : Surface) (entry : Placed) : Answer × Surface :=
  let (removed, surface) :=
    (surface.forget entry.handle).invoke (Service.remove setting.overlay entry.id)
  (forgiven removed, surface)

/-- What the facade answers is not looked at. -/
def clear (surface : Surface) : Answer × Surface :=
  let (_, surface) := surface.invoke do
    Service.clear setting.overlay
    return (.ok () : Answer)
  (.ok (), { surface with shapes := [] })

def attach (offset : Option Point) (surface : Surface) (entry : Placed) : Answer × Surface :=
  match offset with
  | some offset => (.ok (), surface.store { entry with offset := .given offset, attached := true })
  | none =>
    let looked := { surface with readings := surface.readings + 1 }
    match setting.position surface.readings with
    | .error error => (.error error, looked)
    | .ok pointer =>
      (.ok (), looked.store
        { entry with offset := .gap entry.shape.geometry pointer, attached := true })

def detach (surface : Surface) (entry : Placed) : Answer × Surface :=
  (.ok (), surface.store { entry with attached := false })

/-- Move the attached shapes, until one is refused. -/
def carryAttached (position : Point) (surface : Surface) : List Placed → Surface
  | [] => surface
  | entry :: rest =>
    if entry.attached then
      let shape := { entry.shape with
        geometry := setting.carried entry.shape.geometry entry.offset position }
      let (moved, surface) := (surface.store { entry with shape }).invoke
        (Service.update setting.overlay entry.id shape)
      match moved with
      | .error _ => surface
      | .ok () => surface.carryAttached position rest
    else surface.carryAttached position rest

end Surface

namespace SessionSeat

variable (setting : SeatSetting)

def handles (seat : SessionSeat) : List String :=
  match seat.surface with
  | none => []
  | some surface => surface.handles

def put (seat : SessionSeat) (result : Answer × Surface) : Answer × SessionSeat :=
  (result.1, { seat with surface := some result.2 })

def ensureOverlay (seat : SessionSeat) : Except Error Surface × SessionSeat :=
  match seat.surface with
  | some surface => (.ok surface, seat)
  | none =>
    let tried := { seat with openings := seat.openings + 1 }
    match setting.opened seat.openings with
    | .error error => (.error error, tried)
    | .ok service => (.ok { service }, { tried with surface := some { service } })

/-- What a step does with the overlay it opens. -/
def onOverlay (seat : SessionSeat) (use : Surface → Answer × Surface) : Answer × SessionSeat :=
  match seat.ensureOverlay setting with
  | (.error error, seat) => (.error error, seat)
  | (.ok surface, seat) => seat.put (use surface)

/-- What a step does with an overlay that is open. -/
def onSurface (seat : SessionSeat) (use : Surface → Answer × Surface) : Answer × SessionSeat :=
  match seat.surface with
  | none => (.ok (), seat)
  | some surface => seat.put (use surface)

/-- What a step does with the shape of a handle. -/
def onShape (seat : SessionSeat) (handle : String) (use : Surface → Placed → Answer × Surface) :
    Answer × SessionSeat :=
  match seat.surface with
  | none => (.error (unknownHandle handle), seat)
  | some surface =>
    match surface.findShape handle with
    | none => (.error (unknownHandle handle), seat)
    | some entry => seat.put (use surface entry)

def overlayAdd (seat : SessionSeat) (handle : String) (shape : Shape) : Answer × SessionSeat :=
  seat.onOverlay setting fun surface => surface.place setting handle shape

def overlayUpdate (seat : SessionSeat) (handle : String) (shape : Shape) : Answer × SessionSeat :=
  seat.onShape handle (Surface.update setting shape)

def overlayRemove (seat : SessionSeat) (handle : String) : Answer × SessionSeat :=
  seat.onShape handle (Surface.remove setting)

def overlayClear (seat : SessionSeat) : Answer × SessionSeat :=
  seat.onSurface (Surface.clear setting)

def overlayGrab (seat : SessionSeat) : Answer × SessionSeat :=
  seat.onOverlay setting fun surface =>
    surface.invoke (Service.capturePointer setting.overlay)

def overlayRelease (seat : SessionSeat) : Answer × SessionSeat :=
  seat.onSurface fun surface => surface.invoke (Service.releasePointer setting.overlay)

def overlayAttach (seat : SessionSeat) (handle : String) (offset : Option Point) :
    Answer × SessionSeat :=
  seat.onShape handle (Surface.attach setting offset)

def overlayDetach (seat : SessionSeat) (handle : String) : Answer × SessionSeat :=
  seat.onShape handle Surface.detach

/-- The overlay half of a command; the others draw nothing. -/
def perform (seat : SessionSeat) : Command → Answer × SessionSeat
  | .overlayAdd handle shape => seat.overlayAdd setting handle shape
  | .overlayUpdate handle shape => seat.overlayUpdate setting handle shape
  | .overlayRemove handle => seat.overlayRemove setting handle
  | .overlayClear => seat.overlayClear setting
  | .overlayGrab => seat.overlayGrab setting
  | .overlayRelease => seat.overlayRelease setting
  | .overlayAttach handle offset => seat.overlayAttach setting handle offset
  | .overlayDetach handle => seat.overlayDetach handle
  | _ => (.ok (), seat)

/-! ## Runs -/

/-- What happens to the overlay of a seat, one thing after the other. -/
inductive Event where
  | step (command : Command)
  /-- A waypoint of a motion. -/
  | waypoint (position : Point)
  /-- Something else happens to the service: an expiry, an edit, a shape of someone else. -/
  | meanwhile (change : Service → Service)
  | close

def occur (seat : SessionSeat) : Event → SessionSeat
  | .step command => (seat.perform setting command).2
  | .waypoint position =>
    { seat with
      surface := seat.surface.map fun surface =>
        surface.carryAttached setting position surface.shapes }
  | .meanwhile change =>
    { seat with
      surface := seat.surface.map fun surface =>
        { surface with service := change surface.service } }
  | .close =>
    { seat with surface := seat.surface.map fun surface => { surface with closed := true } }

def play (seat : SessionSeat) (events : List Event) : SessionSeat :=
  events.foldl (occur setting) seat

/-- The commands of a run, in order. -/
def commands (events : List Event) : List Command :=
  events.filterMap fun event =>
    match event with
    | .step command => some command
    | _ => none

end SessionSeat

/-! ## The loader -/

/-- Where in a document something stands. -/
structure Scope where
  origin : String := ""
  pointer : String := ""
  subject : String := ""

def childPointer (base token : String) : String := base ++ "/" ++ token

def reject {α : Type} (scope : Scope) (pointer reason : String) : Except Error α :=
  .error
    { code := .invalidArgument
      message := scope.origin ++ pointer ++ ": " ++
        (if scope.subject = "" then "" else scope.subject ++ ": ") ++ reason }

/-- A handle that is used has to be live; a removal retires it. -/
def useHandle (scope : Scope) (live : Finset String) (used : String) (retires : Bool) :
    Except Error (Finset String) :=
  if used ∉ live then
    reject scope (childPointer scope.pointer "handle")
      ("uses handle '" ++ used ++ "' before any overlay.add creates it")
  else if retires then .ok (live.erase used)
  else .ok live

def trackHandles (scope : Scope) (live : Finset String) : Command → Except Error (Finset String)
  | .overlayAdd handle _ =>
    if handle = "" then .ok live
    else if handle ∈ live then
      reject scope (childPointer scope.pointer "handle")
        ("reuses handle '" ++ handle ++
          "' while it is still live; remove it before adding it again")
    else .ok (insert handle live)
  | .overlayUpdate handle _ => useHandle scope live handle false
  | .overlayRemove handle => useHandle scope live handle true
  | .overlayAttach handle _ => useHandle scope live handle false
  | .overlayDetach handle => useHandle scope live handle false
  | _ => .ok live

/-- The steps of a document from one index on. -/
def trackDocument (scope : Nat → Scope) (index : Nat) (live : Finset String) :
    List Command → Except Error (Finset String)
  | [] => .ok live
  | command :: rest =>
    match trackHandles (scope index) live command with
    | .error error => .error error
    | .ok live => trackDocument scope (index + 1) live rest

end Grab.Sequence
