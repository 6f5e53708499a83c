import Mathlib.Data.Int.ConditionallyCompleteOrder
import Mathlib.Data.Rat.Floor
import Grab.Events.Bus
import Grab.Lib.Cadence
import Grab.Space

/-!
# The gesture classifier

`kernel/input/gesture_classifier.cpp`: a state machine turns pointer events into gestures.  Its
deadlines are looked at before every event and whenever somebody asks.

Coordinates are of any type with the operations of the source; `hypot` is the one of the platform.
A timestamp is a rational number of seconds and a moment a number of milliseconds.
-/

namespace Grab.Input

open Grab.Lib Grab.Events

structure Position (K : Type) [Zero K] where
  x : K := 0
  y : K := 0
  space : CoordinateSpaceId := ⟨0⟩

inductive Gesture where
  | move | hold | holdEnd | holdCancel | click | doubleClick | pause
  deriving DecidableEq, Repr

structure GestureEvent (K : Type) [Zero K] where
  kind : Gesture
  position : Position K
  button : UInt32

structure GestureThresholds (K : Type) where
  hold : Int := 500
  doubleClick : Int := 400
  pause : Int := 700
  slopPx : K

inductive Payload (K : Type) [Zero K] where
  | mouseMove (position : Option (Position K))
  | mouseButton (button : UInt32) (position : Option (Position K))
  | other

structure PointerEvent (K : Type) [Zero K] where
  kind : EventKind
  timestamp : ℚ
  payload : Payload K

variable {K : Type} [Zero K]

def noButton : UInt32 := 0

def isEligibleButton (button : UInt32) : Bool := 1 ≤ button && button ≤ 3

def buttonBit (button : UInt32) : UInt8 := (1 <<< (button - 1)).toUInt8

/-- Whole milliseconds of a number of seconds, rounded towards zero. -/
def eventTime (timestamp : ℚ) : Int :=
  if 0 ≤ timestamp then ⌊timestamp * 1000⌋ else ⌈timestamp * 1000⌉

def exceedsSlop [Sub K] [LT K] [DecidableLT K] (hypot : K → K → K) (source destination : Position K)
    (slopPx : K) : Bool :=
  if source.space ≠ destination.space then true
  else decide (slopPx < hypot (destination.x - source.x) (destination.y - source.y))

inductive State where
  | idle | moving | pressed | holding | awaitDouble | postDouble
  deriving DecidableEq, Repr

structure GestureClassifier (K : Type) [Zero K] where
  thresholds : GestureThresholds K
  state : State := .idle
  pressAt : Position K := {}
  pressTime : Int := 0
  lastMotionAt : Position K := {}
  lastMotionTime : Int := 0
  ownerButton : UInt32 := 0
  buttonsDown : UInt8 := 0

namespace GestureClassifier

def buttonIsDown (classifier : GestureClassifier K) (button : UInt32) : Bool :=
  isEligibleButton button && classifier.buttonsDown &&& buttonBit button != 0

/-- Whether the button was up. -/
def markButtonDown (classifier : GestureClassifier K) (button : UInt32) :
    GestureClassifier K × Bool :=
  ({ classifier with buttonsDown := classifier.buttonsDown ||| buttonBit button },
    classifier.buttonsDown &&& buttonBit button == 0)

/-- Whether the button was down. -/
def markButtonUp (classifier : GestureClassifier K) (button : UInt32) :
    GestureClassifier K × Bool :=
  ({ classifier with buttonsDown := classifier.buttonsDown &&& ~~~buttonBit button },
    classifier.buttonsDown &&& buttonBit button != 0)

def beginPress (classifier : GestureClassifier K) (button : UInt32) (position : Position K)
    (now : Int) : GestureClassifier K :=
  { classifier with
    state := .pressed
    pressAt := position
    pressTime := now
    ownerButton := button }

def beginMoving (classifier : GestureClassifier K) (position : Position K) (now : Int) :
    GestureClassifier K :=
  { classifier with
    state := .moving
    lastMotionAt := position
    lastMotionTime := now }

def processDeadline (now : Int) (classifier : GestureClassifier K) :
    GestureClassifier K × List (GestureEvent K) :=
  match classifier.state with
  | .pressed =>
    if classifier.thresholds.hold ≤ now - classifier.pressTime then
      ({ classifier with state := .holding }, [⟨.hold, classifier.pressAt, classifier.ownerButton⟩])
    else (classifier, [])
  | .moving =>
    if classifier.thresholds.pause ≤ now - classifier.lastMotionTime then
      ({ classifier with state := .idle }, [⟨.pause, classifier.lastMotionAt, noButton⟩])
    else (classifier, [])
  | .awaitDouble =>
    if classifier.thresholds.doubleClick < now - classifier.pressTime then
      ({ classifier with
          state := .idle
          ownerButton :=
            if classifier.buttonIsDown classifier.ownerButton then classifier.ownerButton
            else noButton },
        [⟨.click, classifier.pressAt, classifier.ownerButton⟩])
    else (classifier, [])
  | .idle | .holding | .postDouble => (classifier, [])

def advance (now : Int) (classifier : GestureClassifier K) :
    GestureClassifier K × List (GestureEvent K) :=
  processDeadline now classifier

variable [Sub K] [LT K] [DecidableLT K] (hypot : K → K → K)

def handleMotion (position : Position K) (now : Int) (classifier : GestureClassifier K) :
    GestureClassifier K × List (GestureEvent K) :=
  let leaves := exceedsSlop hypot classifier.pressAt position classifier.thresholds.slopPx
  match classifier.state with
  | .idle | .moving => (classifier.beginMoving position now, [⟨.move, position, noButton⟩])
  | .pressed =>
    if leaves then (classifier.beginMoving position now, [⟨.move, position, noButton⟩])
    else (classifier, [])
  | .holding =>
    if leaves then
      (classifier.beginMoving position now,
        [⟨.holdCancel, position, classifier.ownerButton⟩, ⟨.move, position, noButton⟩])
    else (classifier, [])
  | .awaitDouble =>
    if leaves then
      ({ classifier with ownerButton := noButton }.beginMoving position now,
        [⟨.click, classifier.pressAt, classifier.ownerButton⟩, ⟨.move, position, noButton⟩])
    else (classifier, [])
  | .postDouble =>
    let owner := if classifier.buttonIsDown classifier.ownerButton then classifier.ownerButton
      else noButton
    ({ classifier with ownerButton := owner }.beginMoving position now,
      [⟨.move, position, noButton⟩])

/-- A press claims ownership when the owner is up, and starts a gesture when it has a position. -/
def claim (classifier : GestureClassifier K) (ownerIsDown : Bool) (button : UInt32)
    (position : Option (Position K)) (now : Int) : GestureClassifier K :=
  if ownerIsDown then classifier
  else
    match position with
    | none => { classifier with ownerButton := button }
    | some position => classifier.beginPress button position now

def handleButtonDown (button : UInt32) (position : Option (Position K)) (now : Int)
    (classifier : GestureClassifier K) : GestureClassifier K × List (GestureEvent K) :=
  if isEligibleButton button = false then (classifier, [])
  else
    let ownerIsDown := classifier.buttonIsDown classifier.ownerButton
    let (marked, wasUp) := classifier.markButtonDown button
    if wasUp = false then (marked, [])
    else
      match marked.state with
      | .idle | .moving | .postDouble => (marked.claim ownerIsDown button position now, [])
      | .pressed | .holding => (marked, [])
      | .awaitDouble =>
        match position with
        | none => (marked, [])
        | some position =>
          if button ≠ marked.ownerButton then (marked, [])
          else if now - marked.pressTime ≤ marked.thresholds.doubleClick ∧
              exceedsSlop hypot marked.pressAt position marked.thresholds.slopPx = false then
            ({ marked with state := .postDouble }, [⟨.doubleClick, position, button⟩])
          else
            (marked.beginPress button position now, [⟨.click, marked.pressAt, marked.ownerButton⟩])

def handleButtonUp (button : UInt32) (position : Option (Position K))
    (classifier : GestureClassifier K) : GestureClassifier K × List (GestureEvent K) :=
  if isEligibleButton button = false then (classifier, [])
  else
    let (marked, wasDown) := classifier.markButtonUp button
    if wasDown = false ∨ button ≠ marked.ownerButton then (marked, [])
    else
      match marked.state with
      | .pressed =>
        match position with
        | none => ({ marked with state := .awaitDouble }, [])
        | some position =>
          if exceedsSlop hypot marked.pressAt position marked.thresholds.slopPx then
            ({ marked with state := .idle, ownerButton := noButton }, [])
          else ({ marked with state := .awaitDouble }, [])
      | .holding =>
        ({ marked with state := .idle, ownerButton := noButton },
          [⟨.holdEnd, position.getD marked.pressAt, marked.ownerButton⟩])
      | .moving | .idle => ({ marked with ownerButton := noButton }, [])
      | .awaitDouble | .postDouble => (marked, [])

/-- What `feed` does with an event after the deadlines. -/
def handle (event : PointerEvent K) (now : Int) (classifier : GestureClassifier K) :
    GestureClassifier K × List (GestureEvent K) :=
  match event.kind, event.payload with
  | .mouseMove, .mouseMove (some position) => handleMotion hypot position now classifier
  | .mouseButtonDown, .mouseButton button position =>
    handleButtonDown hypot button position now classifier
  | .mouseButtonUp, .mouseButton button position =>
    handleButtonUp hypot button position classifier
  | _, _ => (classifier, [])

def feed (event : PointerEvent K) (classifier : GestureClassifier K) :
    GestureClassifier K × List (GestureEvent K) :=
  let now := eventTime event.timestamp
  andThen (processDeadline now classifier) (handle hypot event now)

end GestureClassifier

end Grab.Input
