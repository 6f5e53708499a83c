import Grab.Sequence.Player.Core

/-!
# Executing a command on a seat

The enter/tick/exit triple every command runs through.  The seat is a
parameter: which capabilities it has, and a state that answers each call.  Its
answers are arbitrary, so every pattern of successes and failures is covered.

`Wire` is the seat together with the record of the calls made on it; nothing
here reads the record back.  Sampling a curve is floating-point work and a
parameter as well; only the number of points matters below.  Log records are
left out.
-/

namespace Grab.Kernel

open Grab.Sequence Grab.Geometry

/-! ## Seats -/

/-- Which of the seat concepts a seat satisfies. -/
structure Capabilities where
  pointer : Bool
  locating : Bool
  keyboard : Bool
  text : Bool
  capturing : Bool
  overlay : Bool
  deriving DecidableEq

/-- One call on the seat. -/
inductive SeatCall where
  | movePointerAbsolute (x y : Int)
  | button (code : UInt8) (pressed : Bool)
  | flush
  | keyByName (name : String) (pressed : Bool)
  | typeText (text : String)
  | beginCapture (output locator : String)
  | overlayAdd (handle : String) (shape : Overlay.Shape)
  | overlayUpdate (handle : String) (shape : Overlay.Shape)
  | overlayRemove (handle : String)
  | overlayClear
  | overlayGrab
  | overlayRelease
  | overlayAttach (handle : String) (offset : Option Point)
  | overlayDetach (handle : String)
  deriving DecidableEq

/-- Whether a call is on a button is seen without a search among the button codes. -/
instance (call : SeatCall) (pressed : Bool) :
    Decidable (∀ code, call = .button code pressed → False) :=
  match call with
  | .button code other =>
    if same : other = pressed then isFalse fun none => none code (by rw [same])
    else isTrue (by intro _ equal; cases equal; exact same rfl)
  | .movePointerAbsolute .. | .flush | .keyByName .. | .typeText .. | .beginCapture ..
  | .overlayAdd .. | .overlayUpdate .. | .overlayRemove .. | .overlayClear | .overlayGrab
  | .overlayRelease | .overlayAttach .. | .overlayDetach .. =>
    isTrue (by intro _ equal; cases equal)

/-- A seat over a state of its own. -/
structure Seat (σ : Type) where
  capabilities : Capabilities
  call : SeatCall → σ → Bool × σ
  pointerPosition : σ → Option Point × σ
  pollCapture : σ → Option Bool × σ
  /-- The point at an index of a curve sampled at a count. -/
  samplePoint : Curve → Nat → Nat → Point
  /-- The cubic a curved walk between two points follows. -/
  cubicBetween : Point → Point → Curve

inductive Phase where
  | enter | tick | exit | reap
  deriving DecidableEq, Repr

/-- On whose behalf a seat call is made. -/
inductive Origin where
  | step (phase : Phase) (step : Step)
  | outstanding
  deriving DecidableEq

/-- What a hold is on: a button, a key or the pointer capture. -/
inductive Hold where
  | button (code : UInt8)
  | key (name : String)
  | capture
  deriving DecidableEq

/-- The record of a run on the seat: its calls, and the completions of steps
that lifted a hold. -/
inductive Record where
  | call (origin : Origin) (call : SeatCall) (succeeded : Bool)
  | lifted (hold : Hold)
  deriving DecidableEq

structure Wire (σ : Type) where
  seat : σ
  log : List Record

/-- A piece of seat work that succeeds or fails. -/
abbrev Attempt (σ : Type) := Wire σ → Bool × Wire σ

namespace Attempt

variable {σ : Type}

/-- Give up at the first failure. -/
def andThen (first second : Attempt σ) : Attempt σ := fun wire =>
  let answer := first wire
  if answer.1 then second answer.2 else (false, answer.2)

/-- Refused without a call. -/
def refuse : Attempt σ := fun wire => (false, wire)

def done : Attempt σ := fun wire => (true, wire)

end Attempt

section

variable {σ : Type} (seat : Seat σ) (origin : Origin)

/-- Make one call and record it. -/
def seatCall (call : SeatCall) : Attempt σ := fun wire =>
  let answer := seat.call call wire.seat
  (answer.1, ⟨answer.2, wire.log ++ [.call origin call answer.1]⟩)

/-! ## Round trips -/

def coordinateMinimum : Int := -32768

def coordinateMaximum : Int := 32767

def inSeatRange (point : Point) : Bool :=
  decide (coordinateMinimum ≤ point.x ∧ point.x ≤ coordinateMaximum ∧
    coordinateMinimum ≤ point.y ∧ point.y ≤ coordinateMaximum)

def seatFlush : Attempt σ := seatCall seat origin .flush

def seatButton (code : UInt8) (pressed : Bool) : Attempt σ :=
  seatCall seat origin (.button code pressed)

def warpTo (point : Point) : Attempt σ :=
  if inSeatRange point then
    (seatCall seat origin (.movePointerAbsolute point.x point.y)).andThen (seatFlush seat origin)
  else Attempt.refuse

def driveButton (code : UInt8) (pressed : Bool) : Attempt σ :=
  (seatButton seat origin code pressed).andThen (seatFlush seat origin)

def driveKey (name : String) (pressed : Bool) : Attempt σ :=
  (seatCall seat origin (.keyByName name pressed)).andThen (seatFlush seat origin)

/-! ## Scratch of a running command -/

structure CommandState where
  started : TimePoint := 0
  deadline : TimePoint := 0
  emitted : Nat := 0
  entered : Bool := false
  held : Bool := false
  documentHold : Bool := false
  overlayGrabHeld : Bool := false
  interrupted : Bool := false
  waypoints : List Point := []
  worstOvershoot : TimePoint := 0
  deriving DecidableEq

/-- What a body answers: its status, its scratch and the wire. -/
abbrev Answer (σ : Type) := Status × CommandState × Wire σ

/-- An instant body: the work is the step. -/
def settled (attempt : Attempt σ) (state : CommandState) (wire : Wire σ) : Answer σ :=
  let answer := attempt wire
  (if answer.1 then .success else .failure, state, answer.2)

def failed (state : CommandState) (wire : Wire σ) : Answer σ := (.failure, state, wire)

/-! ## Walks -/

def validateOptions (options : Input.DragOptions) : Bool :=
  decide (Input.minimumInterpolationSteps ≤ options.interpolationSteps ∧
    options.interpolationSteps ≤ Input.maximumInterpolationSteps ∧ 0 ≤ options.stepDwell)

def validateReachable (points : List Point) : Bool := points.all inSeatRange

/-- Integer interpolation; the quotient truncates towards zero. -/
def interpolatedPoint (start target : Point) (step stepCount : Int) : Point :=
  ⟨start.x + ((target.x - start.x) * step).tdiv stepCount,
    start.y + ((target.y - start.y) * step).tdiv stepCount⟩

/-- A curve sampled at `count` points. -/
def sample (curve : Curve) (count : Nat) : List Point :=
  (List.range count).map (seat.samplePoint curve count)

/-- The walk excludes its start and includes its target. -/
def waypoints (start target : Point) (options : Input.DragOptions) : List Point :=
  match options.path with
  | .cubic =>
    (sample seat (seat.cubicBetween start target) (options.interpolationSteps.toNat + 1)).drop 1
  | .linear =>
    (List.range options.interpolationSteps.toNat).map fun step =>
      interpolatedPoint start target (step + 1) options.interpolationSteps

/-- The instant the next waypoint of a walk is due. -/
def waypointInstant (state : CommandState) (dwell : Milliseconds) : TimePoint :=
  state.started + nanosecondsOf dwell * (state.emitted + 1)

/-- Emit every waypoint whose instant has arrived; `remaining` is the number of
waypoints still to emit. -/
def advanceLoop (dwell : Milliseconds) (now : TimePoint) : Nat → CommandState → Wire σ → Answer σ
  | 0, state, wire => (.success, state, wire)
  | remaining + 1, state, wire =>
    if now < waypointInstant state dwell then (.running, state, wire)
    else
      match state.waypoints[state.emitted]? with
      | none => (.success, state, wire)
      | some point =>
        let moved := warpTo seat origin point wire
        if moved.1 then
          advanceLoop dwell now remaining
            { state with
              emitted := state.emitted + 1
              worstOvershoot := max state.worstOvershoot (now - waypointInstant state dwell) }
            moved.2
        else (.failure, state, moved.2)

def advanceWalk (state : CommandState) (dwell : Milliseconds) (now : TimePoint)
    (wire : Wire σ) : Answer σ :=
  advanceLoop seat origin dwell now (state.waypoints.length - state.emitted) state wire

/-- Put the pointer where a walk starts, when it declares a start. -/
def placeStart (start : Option Point) : Attempt σ :=
  match start with
  | some point => warpTo seat origin point
  | none => Attempt.done

/-- Range-check the walk, put the pointer on its first point and set the
deadline. -/
def beginWalk (state : CommandState) (options : Input.DragOptions) (start : Option Point)
    (walk : List Point) (wire : Wire σ) : Answer σ :=
  if validateReachable walk = false then failed state wire
  else
    let placed := placeStart seat origin start wire
    if placed.1 then
      (.running,
        { state with
          waypoints := walk
          deadline := state.started + nanosecondsOf options.stepDwell * walk.length },
        placed.2)
    else failed state placed.2

/-- Where a move starts: the declared origin, or where the pointer is. -/
def resolveOrigin (declared : Option Point) (wire : Wire σ) : Option Point × Wire σ :=
  match declared with
  | some point => (some point, wire)
  | none =>
    if seat.capabilities.locating then
      let answer := seat.pointerPosition wire.seat
      (answer.1, { wire with seat := answer.2 })
    else (none, wire)

/-! ## Entering -/

/-- A press and a release of one button, as a click and a wheel notch make them. -/
def pressRelease (code : UInt8) : Attempt σ :=
  (seatButton seat origin code true).andThen (seatButton seat origin code false)

def clickWork (code : UInt8) : Attempt σ :=
  (pressRelease seat origin code).andThen (seatFlush seat origin)

/-- Wheel notches, one press and release each. -/
def notches (code : UInt8) : Nat → Attempt σ
  | 0 => Attempt.done
  | count + 1 => (pressRelease seat origin code).andThen (notches code count)

/-- The notches of one axis; a zero offset sends none. -/
def scrollAxis (offset : Int) (positive negative : Input.PointerButton) : Attempt σ :=
  if offset = 0 then Attempt.done
  else
    notches seat origin (Input.buttonCode (if 0 < offset then positive else negative)) offset.natAbs

def scrollWork (dx dy : Int) : Attempt σ :=
  (scrollAxis seat origin dy .wheelDown .wheelUp).andThen
    ((scrollAxis seat origin dx .wheelRight .wheelLeft).andThen (seatFlush seat origin))

def minimumCurveControlPoints : Nat := 2

/-- The walk of a follow: the samples of the curve without the first. -/
def enterFollow (path : Curve) (options : Input.DragOptions) (state : CommandState)
    (wire : Wire σ) : Answer σ :=
  if validateOptions options = false then failed state wire
  else if path.control.length < minimumCurveControlPoints then failed state wire
  else
    let sampled := sample seat path (options.interpolationSteps.toNat + 1)
    beginWalk seat origin state options sampled.head? (sampled.drop 1) wire

def enterMove (start : Option Point) (target : Point) (options : Input.DragOptions)
    (state : CommandState) (wire : Wire σ) : Answer σ :=
  if validateOptions options = false then failed state wire
  else
    let resolved := resolveOrigin seat start wire
    match resolved.1 with
    | none => failed state resolved.2
    | some point =>
      beginWalk seat origin state options start (waypoints seat point target options) resolved.2

def enterDrag (start target : Point) (code : UInt8) (options : Input.DragOptions)
    (state : CommandState) (wire : Wire σ) : Answer σ :=
  if validateOptions options = false then failed state wire
  else
    let begun := beginWalk seat origin state options (some start)
      (waypoints seat start target options) wire
    if begun.1 ≠ .running then begun
    else
      -- the flag goes up before the press, which may commit whatever it reports
      let state := { begun.2.1 with held := true }
      let pressed := driveButton seat origin code true begun.2.2
      (if pressed.1 then .running else .failure, state, pressed.2)

/-- The body of a command that names a shape; every one but an addition needs
its handle. -/
def handled (handle : String) (call : SeatCall) (state : CommandState) (wire : Wire σ) : Answer σ :=
  if handle = "" then failed state wire
  else settled (seatCall seat origin call) state wire

/-- Run a body when the seat has the capability it needs. -/
def available (capability : Bool) (body : CommandState → Wire σ → Answer σ)
    (state : CommandState) (wire : Wire σ) : Answer σ :=
  if capability then body state wire else failed state wire

def enterCommand (command : Command) : CommandState → Wire σ → Answer σ :=
  match command with
  | .wait duration => fun state wire =>
    if duration < 0 then failed state wire
    else (.running, { state with deadline := state.started + duration }, wire)
  | .warp target => available seat.capabilities.pointer
      (settled (warpTo seat origin target))
  | .click code => available seat.capabilities.pointer
      (settled (clickWork seat origin code))
  | .clickAt position code => available seat.capabilities.pointer
      (settled ((warpTo seat origin position).andThen (clickWork seat origin code)))
  | .press code => available seat.capabilities.pointer fun state wire =>
    settled (driveButton seat origin code true) { state with documentHold := true } wire
  | .release code => available seat.capabilities.pointer
      (settled (driveButton seat origin code false))
  | .scroll dx dy => available seat.capabilities.pointer
      (settled (scrollWork seat origin dx dy))
  | .type text => available seat.capabilities.text
      (settled (seatCall seat origin (.typeText text)))
  | .key key => available seat.capabilities.keyboard
      (settled ((seatCall seat origin (.keyByName key true)).andThen
        (driveKey seat origin key false)))
  | .keyDown key => available seat.capabilities.keyboard fun state wire =>
    settled (driveKey seat origin key true) { state with documentHold := true } wire
  | .keyUp key => available seat.capabilities.keyboard
      (settled (driveKey seat origin key false))
  | .move start target options => available seat.capabilities.pointer
      (enterMove seat origin start target options)
  | .follow path options => available seat.capabilities.pointer
      (enterFollow seat origin path options)
  | .drag start target code options => available seat.capabilities.pointer
      (enterDrag seat origin start target code options)
  | .capture output locator => available seat.capabilities.capturing fun state wire =>
    if output.isEmpty == locator.isEmpty then failed state wire
    else
      let begun := seatCall seat origin (.beginCapture output locator) wire
      (if begun.1 then .running else .failure, state, begun.2)
  | .overlayAdd handle shape => available seat.capabilities.overlay
      (settled (seatCall seat origin (.overlayAdd handle shape)))
  | .overlayUpdate handle shape => available seat.capabilities.overlay
      (handled seat origin handle (.overlayUpdate handle shape))
  | .overlayRemove handle => available seat.capabilities.overlay
      (handled seat origin handle (.overlayRemove handle))
  | .overlayClear => available seat.capabilities.overlay
      (settled (seatCall seat origin .overlayClear))
  | .overlayGrab => available seat.capabilities.overlay fun state wire =>
    settled (seatCall seat origin .overlayGrab) { state with overlayGrabHeld := true } wire
  | .overlayRelease => available seat.capabilities.overlay fun state wire =>
    settled (seatCall seat origin .overlayRelease) { state with overlayGrabHeld := false } wire
  | .overlayAttach handle offset => available seat.capabilities.overlay
      (handled seat origin handle (.overlayAttach handle offset))
  | .overlayDetach handle => available seat.capabilities.overlay
      (handled seat origin handle (.overlayDetach handle))

/-! ## Ticking -/

def tickDrag (code : UInt8) (options : Input.DragOptions) (now : TimePoint)
    (state : CommandState) (wire : Wire σ) : Answer σ :=
  let walked := advanceWalk seat origin state options.stepDwell now wire
  if walked.1 ≠ .success then walked
  else
    let released := driveButton seat origin code false walked.2.2
    if released.1 then (.success, { walked.2.1 with held := false }, released.2)
    else (.failure, walked.2.1, released.2)

def tickCommand (command : Command) (now : TimePoint) : CommandState → Wire σ → Answer σ :=
  match command with
  | .wait _ => fun state wire =>
    if now < state.deadline then (.running, state, wire)
    else (.success, { state with worstOvershoot := now - state.deadline }, wire)
  | .move _ _ options => available seat.capabilities.pointer fun state wire =>
    advanceWalk seat origin state options.stepDwell now wire
  | .follow _ options => available seat.capabilities.pointer fun state wire =>
    advanceWalk seat origin state options.stepDwell now wire
  | .drag _ _ code options => available seat.capabilities.pointer
      (tickDrag seat origin code options now)
  | .capture _ _ => available seat.capabilities.capturing fun state wire =>
    let polled := seat.pollCapture wire.seat
    let wire := { wire with seat := polled.2 }
    match polled.1 with
    | none => (.running, state, wire)
    | some succeeded => (if succeeded then .success else .failure, state, wire)
  | _ => fun state wire => (.success, state, wire)

/-! ## Exiting -/

def exitCommand (command : Command) (state : CommandState) (wire : Wire σ) :
    CommandState × Wire σ :=
  match command with
  | .drag _ _ code _ =>
    if seat.capabilities.pointer ∧ state.held then
      ({ state with held := false }, (driveButton seat origin code false wire).2)
    else (state, wire)
  | .press code =>
    if seat.capabilities.pointer ∧ state.documentHold ∧ state.interrupted then
      ({ state with documentHold := false }, (driveButton seat origin code false wire).2)
    else (state, wire)
  | .keyDown key =>
    if seat.capabilities.keyboard ∧ state.documentHold ∧ state.interrupted then
      ({ state with documentHold := false }, (driveKey seat origin key false wire).2)
    else (state, wire)
  | .overlayGrab =>
    if seat.capabilities.overlay ∧ state.overlayGrabHeld ∧ state.interrupted then
      ({ state with overlayGrabHeld := false }, (seatCall seat origin .overlayRelease wire).2)
    else (state, wire)
  | _ => (state, wire)

/-- Enter a command on fresh scratch. -/
def enterBody (command : Command) (now : TimePoint) (state : CommandState) (wire : Wire σ) :
    Answer σ :=
  enterCommand seat origin command
    { state with
      entered := true
      started := now
      deadline := now
      emitted := 0
      worstOvershoot := 0
      waypoints := [] }
    wire

def tickBody (command : Command) (now : TimePoint) (state : CommandState) (wire : Wire σ) :
    Answer σ :=
  if state.entered = false then failed state wire
  else tickCommand seat origin command now state wire

def exitBody (command : Command) (state : CommandState) (wire : Wire σ) : CommandState × Wire σ :=
  if state.entered = false then (state, wire)
  else exitCommand seat origin command state wire

/-- The unwind path. -/
def interruptBody (command : Command) (state : CommandState) (wire : Wire σ) :
    CommandState × Wire σ :=
  exitBody seat origin command { state with interrupted := true } wire

end

end Grab.Kernel
