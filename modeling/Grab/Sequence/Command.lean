import Grab.Space
import Grab.Sequence.Types

/-!
# Commands and steps

The closed command variant a sequence step carries, the descriptor table the
scheduler reads its retry and blocking columns from, and the step that holds a
command.  The mutability, consent and timing columns of the table are read by
no modelled function and are left out.
-/

namespace Grab

open Grab.Lib

/-! ## Geometry and overlay shapes -/

namespace Geometry

/-- A device point; both components are 32-bit in the source. -/
structure Point where
  x : Int := 0
  y : Int := 0
  deriving DecidableEq, Repr

structure PointF where
  x : Double
  y : Double
  deriving DecidableEq

/-- A Bezier curve by its control points. -/
structure Curve where
  control : List PointF
  deriving DecidableEq

end Geometry

namespace Overlay

structure Color where
  r : UInt8 := 0
  g : UInt8 := 0
  b : UInt8 := 0
  a : UInt8 := 255
  deriving DecidableEq, Repr

structure StrokeStyle where
  color : Color
  widthPx : Single
  deriving DecidableEq

structure FillStyle where
  color : Color
  deriving DecidableEq

inductive LifetimePolicy where
  | persistent
  | ttl (duration : Milliseconds)
  | fade (duration : Milliseconds)
  deriving DecidableEq, Repr

inductive Easing where
  | linear | inQuad | outQuad | inOutQuad | inCubic | outCubic | inOutCubic
  deriving DecidableEq, Repr

inductive Axis where
  | x | y
  deriving DecidableEq, Repr

inductive Edge where
  | min | max
  deriving DecidableEq, Repr

structure ScaleChannel where
  easing : Easing
  duration : Milliseconds
  start : Double
  stop : Double
  deriving DecidableEq

structure OpacityChannel where
  easing : Easing
  duration : Milliseconds
  start : Double
  stop : Double
  deriving DecidableEq

structure TranslateChannel where
  easing : Easing
  duration : Milliseconds
  dx : Double
  dy : Double
  deriving DecidableEq

structure RevealChannel where
  easing : Easing
  duration : Milliseconds
  axis : Axis
  fromEdge : Edge
  start : Double
  stop : Double
  deriving DecidableEq

structure AnimationSpec where
  scale : Option ScaleChannel := none
  opacity : Option OpacityChannel := none
  translate : Option TranslateChannel := none
  reveal : Option RevealChannel := none
  deriving DecidableEq

inductive Band where
  | annotationBand | trailBand
  deriving DecidableEq, Repr

inductive PathCommand where
  | moveTo (point : SpacePoint)
  | lineTo (point : SpacePoint)
  | bezierTo (control : List SpacePoint)
  | closePath
  deriving DecidableEq

inductive Geometry where
  | path (commands : List PathCommand) (closed : Bool)
  | rect (bounds : SpaceRect)
  | ellipse (center : SpacePoint) (radiusX radiusY : Double)
  | polygon (points : List SpacePoint)
  deriving DecidableEq

structure Shape where
  geometry : Geometry
  stroke : Option StrokeStyle
  fill : Option FillStyle
  lifetime : LifetimePolicy := .persistent
  band : Band := .annotationBand
  z : Int := 0
  animation : Option AnimationSpec := none
  deriving DecidableEq

end Overlay

namespace Input

inductive PathKind where
  | linear | cubic
  deriving DecidableEq, Repr

structure DragOptions where
  interpolationSteps : Int := 16
  stepDwell : Milliseconds := 8
  path : PathKind := .linear
  deriving DecidableEq, Repr

def minimumInterpolationSteps : Int := 1

def maximumInterpolationSteps : Int := 65535

/-- X11 delivers wheel motion as button events. -/
inductive PointerButton where
  | primary | middle | secondary | wheelUp | wheelDown | wheelLeft | wheelRight
  deriving DecidableEq, Repr

def buttonCode : PointerButton → UInt8
  | .primary => 1
  | .middle => 2
  | .secondary => 3
  | .wheelUp => 4
  | .wheelDown => 5
  | .wheelLeft => 6
  | .wheelRight => 7

def primaryButton : UInt8 := buttonCode .primary

end Input

/-! ## Command kinds and their descriptors -/

inductive CommandKind where
  | doctor | daemon | type | click | drag | dragCurve | capture | windows | focus
  | place | batch | compare | watch | key | session | overlayTrail | overlayShape
  | overlayFeedback | overlaySketch | move | warp | follow | press | release | scroll
  | clickAt | keyDown | keyUp | wait | play | overlayAdd | overlayUpdate
  | overlayRemove | overlayClear | overlayGrab | overlayRelease | overlayAttach
  | overlayDetach
  deriving DecidableEq, Repr

structure CommandDescriptor where
  name : String
  kind : CommandKind
  retry : RetryClass
  blocking : Bool
  deriving DecidableEq, Repr

def commandDescriptors : List CommandDescriptor :=
  [ ⟨"system.doctor", .doctor, .idempotent, true⟩,
    ⟨"service.daemon", .daemon, .never, false⟩,
    ⟨"input.type", .type, .never, false⟩,
    ⟨"input.click", .click, .never, false⟩,
    ⟨"input.drag", .drag, .never, false⟩,
    ⟨"input.drag_curve", .dragCurve, .never, false⟩,
    ⟨"screen.capture", .capture, .idempotent, true⟩,
    ⟨"screen.windows", .windows, .idempotent, true⟩,
    ⟨"window.focus", .focus, .idempotent, false⟩,
    ⟨"window.place", .place, .idempotent, false⟩,
    ⟨"screen.batch", .batch, .idempotent, true⟩,
    ⟨"image.compare", .compare, .idempotent, true⟩,
    ⟨"screen.watch", .watch, .idempotent, false⟩,
    ⟨"input.key", .key, .never, false⟩,
    ⟨"session.open", .session, .never, false⟩,
    ⟨"overlay.trail", .overlayTrail, .resolveOnly, false⟩,
    ⟨"overlay.shape", .overlayShape, .resolveOnly, false⟩,
    ⟨"overlay.feedback", .overlayFeedback, .resolveOnly, false⟩,
    ⟨"overlay.sketch", .overlaySketch, .resolveOnly, false⟩,
    ⟨"input.move", .move, .never, false⟩,
    ⟨"input.warp", .warp, .never, false⟩,
    ⟨"input.follow", .follow, .never, false⟩,
    ⟨"input.press", .press, .never, false⟩,
    ⟨"input.release", .release, .never, false⟩,
    ⟨"input.scroll", .scroll, .never, false⟩,
    ⟨"input.click_at", .clickAt, .never, false⟩,
    ⟨"input.key_down", .keyDown, .never, false⟩,
    ⟨"input.key_up", .keyUp, .never, false⟩,
    ⟨"time.wait", .wait, .idempotent, false⟩,
    ⟨"system.play", .play, .never, false⟩,
    ⟨"overlay.add", .overlayAdd, .never, false⟩,
    ⟨"overlay.update", .overlayUpdate, .never, false⟩,
    ⟨"overlay.remove", .overlayRemove, .idempotent, false⟩,
    ⟨"overlay.clear", .overlayClear, .idempotent, false⟩,
    ⟨"overlay.grab", .overlayGrab, .never, false⟩,
    ⟨"overlay.release", .overlayRelease, .idempotent, false⟩,
    ⟨"overlay.attach", .overlayAttach, .never, false⟩,
    ⟨"overlay.detach", .overlayDetach, .idempotent, false⟩ ]

def commandName (kind : CommandKind) : String :=
  match commandDescriptors.find? (fun row => row.kind == kind) with
  | some row => row.name
  | none => ""

def commandKind (name : String) : Option CommandKind :=
  (commandDescriptors.find? (fun row => row.name == name)).map CommandDescriptor.kind

def isBlockingCommand (kind : CommandKind) : Bool :=
  match commandDescriptors.find? (fun row => row.kind == kind) with
  | some row => row.blocking
  | none => false

end Grab

namespace Grab.Sequence

open Grab.Geometry

/-- The closed command variant of a step. -/
inductive Command where
  | type (text : String)
  | key (key : String)
  | keyDown (key : String)
  | keyUp (key : String)
  | click (button : UInt8)
  | clickAt (position : Point) (button : UInt8)
  | press (button : UInt8)
  | release (button : UInt8)
  | scroll (dx dy : Int)
  | warp (target : Point)
  | move (start : Option Point) (target : Point) (options : Input.DragOptions)
  | follow (path : Curve) (options : Input.DragOptions)
  | drag (start target : Point) (button : UInt8) (options : Input.DragOptions)
  | capture (output locator : String)
  | wait (duration : Nanoseconds)
  | overlayAdd (handle : String) (shape : Overlay.Shape)
  | overlayUpdate (handle : String) (shape : Overlay.Shape)
  | overlayRemove (handle : String)
  | overlayClear
  | overlayGrab
  | overlayRelease
  | overlayAttach (handle : String) (offset : Option Point)
  | overlayDetach (handle : String)
  deriving DecidableEq

def kindOf : Command → CommandKind
  | .type .. => .type
  | .key .. => .key
  | .keyDown .. => .keyDown
  | .keyUp .. => .keyUp
  | .click .. => .click
  | .clickAt .. => .clickAt
  | .press .. => .press
  | .release .. => .release
  | .scroll .. => .scroll
  | .warp .. => .warp
  | .move .. => .move
  | .follow .. => .follow
  | .drag .. => .drag
  | .capture .. => .capture
  | .wait .. => .wait
  | .overlayAdd .. => .overlayAdd
  | .overlayUpdate .. => .overlayUpdate
  | .overlayRemove .. => .overlayRemove
  | .overlayClear => .overlayClear
  | .overlayGrab => .overlayGrab
  | .overlayRelease => .overlayRelease
  | .overlayAttach .. => .overlayAttach
  | .overlayDetach .. => .overlayDetach

/-! Whether a command is on a button is seen from its kind, without a search among the
button codes. -/

instance (command : Command) : Decidable (∀ button, command = .click button → False) :=
  decidable_of_iff (kindOf command ≠ .click) (by cases command <;> simp [kindOf])

instance (command : Command) : Decidable (∀ button, command = .press button → False) :=
  decidable_of_iff (kindOf command ≠ .press) (by cases command <;> simp [kindOf])

instance (command : Command) : Decidable (∀ button, command = .release button → False) :=
  decidable_of_iff (kindOf command ≠ .release) (by cases command <;> simp [kindOf])

/-- What a step does when its command fails. -/
inductive ErrorPolicy where
  | abort | continue | goto
  deriving DecidableEq, Repr

/-- One node of the document. -/
structure Step where
  id : StepId := StepId.nil
  label : String := ""
  command : Command
  after : List StepId := []
  onError : ErrorPolicy := .abort
  onErrorTarget : String := ""
  extraGrace : Milliseconds := 0
  deriving DecidableEq

/-- How a step is named in an error message: the author's label when there is
one, its document position otherwise. -/
def stepName (step : Step) : String :=
  if step.label = "" then
    "at index " ++ toString step.id.index
  else
    "'" ++ step.label ++ "'"

end Grab.Sequence
