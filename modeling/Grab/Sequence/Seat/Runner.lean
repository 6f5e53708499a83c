import Grab.Sequence.Seat.Execute

/-!
# The seat runner

The production command runner.  A hold outlives the step that took it, so the
runner keeps its own book of the buttons, the keys and the pointer capture that
are down, beside the scratch of every step.  Two mechanisms lift what a document
left down: `releaseHolds`, asked by the player's unwind for the steps it already
exited, and `releaseOutstanding`, the backstop after the run.
-/

namespace Grab.Kernel

open Grab.Sequence

/-- Per-step scratch of the runner. -/
structure Entry where
  state : CommandState := {}
  lastStatus : Status := .running
  error : ErrorCode := .providerFailed
  used : Bool := false
  exited : Bool := false
  deriving DecidableEq

/-- The state of the runner over a seat. -/
structure SeatState (σ : Type) where
  wire : Wire σ
  entries : Nat → Entry := fun _ => {}
  buttons : List UInt8 := []
  keys : List String := []
  captureHeld : Bool := false

namespace SeatRunner

variable {σ : Type} (seat : Seat σ)

/-- Which capability a kind needs, answered against this seat. -/
def capabilityAvailable (kind : CommandKind) : Bool :=
  match kind with
  | .warp | .click | .clickAt | .press | .release | .scroll | .move | .follow | .drag =>
    seat.capabilities.pointer
  | .type => seat.capabilities.text
  | .key | .keyDown | .keyUp => seat.capabilities.keyboard
  | .capture => seat.capabilities.capturing
  | .overlayAdd | .overlayUpdate | .overlayRemove | .overlayClear | .overlayGrab
  | .overlayRelease | .overlayAttach | .overlayDetach => seat.capabilities.overlay
  | .wait => true
  | _ => false

/-- The error code a failed step reports, derived from its scratch. -/
def classify (step : Step) (state : CommandState) : ErrorCode :=
  if capabilityAvailable seat (kindOf step.command) = false then .capabilityUnavailable
  else if state.held || state.documentHold then .possiblyCommitted
  else .providerFailed

/-! ## The book of holds -/

/-- The book after a step succeeded. -/
def rememberHold (command : Command) (runner : SeatState σ) : SeatState σ :=
  match command with
  | .press code =>
    if code ∈ runner.buttons then runner
    else { runner with buttons := runner.buttons ++ [code] }
  | .release code => { runner with buttons := runner.buttons.filter (· ≠ code) }
  | .keyDown key =>
    if key ∈ runner.keys then runner else { runner with keys := runner.keys ++ [key] }
  | .keyUp key => { runner with keys := runner.keys.filter (· ≠ key) }
  | .overlayRelease => { runner with captureHeld := false }
  | _ => runner

def forgetHold (command : Command) (runner : SeatState σ) : SeatState σ :=
  match command with
  | .press code => { runner with buttons := runner.buttons.filter (· ≠ code) }
  | .keyDown key => { runner with keys := runner.keys.filter (· ≠ key) }
  | .overlayGrab => { runner with captureHeld := false }
  | _ => runner

@[simp]
theorem rememberHold_wire (command : Command) (runner : SeatState σ) :
    (rememberHold command runner).wire = runner.wire := by
  unfold rememberHold
  split <;> (try split) <;> rfl

@[simp]
theorem forgetHold_wire (command : Command) (runner : SeatState σ) :
    (forgetHold command runner).wire = runner.wire := by
  unfold forgetHold
  split <;> rfl

/-- Is the explicit hold this step took still down? -/
def stillOutstanding (command : Command) (runner : SeatState σ) : Bool :=
  match command with
  | .press code => decide (code ∈ runner.buttons)
  | .keyDown key => decide (key ∈ runner.keys)
  | _ => false

/-- The hold a completed step lifts on purpose. -/
def liftedBy (command : Command) : Option Hold :=
  match command with
  | .release code => some (.button code)
  | .keyUp key => some (.key key)
  | .overlayRelease => some .capture
  | _ => none

/-- Record that a step succeeded. -/
def noteCompletion (command : Command) (runner : SeatState σ) : SeatState σ :=
  match liftedBy command with
  | none => runner
  | some hold =>
    { runner with wire := ⟨runner.wire.seat, runner.wire.log ++ [.lifted hold]⟩ }

def setEntry (runner : SeatState σ) (id : StepId) (entry : Entry) : SeatState σ :=
  { runner with entries := Function.update runner.entries id.index entry }

/-- The scratch of a step that was entered before. -/
def findEntry (runner : SeatState σ) (id : StepId) : Option Entry :=
  if (runner.entries id.index).used then some (runner.entries id.index) else none

/-! ## The runner's calls -/

/-- What an answer leaves in the entry and in the book. -/
def recordAnswer (step : Step) (entry : Entry) (answer : Answer σ) (runner : SeatState σ) :
    SeatState σ :=
  let entry :=
    { entry with
      state := answer.2.1
      lastStatus := answer.1
      error := if answer.1 = .failure then classify seat step answer.2.1 else entry.error }
  let runner := setEntry { runner with wire := answer.2.2 } step.id entry
  if answer.1 = .success then rememberHold step.command (noteCompletion step.command runner)
  else runner

def enter (step : Step) (now : TimePoint) (runner : SeatState σ) : Status × SeatState σ :=
  let answer := enterBody seat (.step .enter step) step.command now {} runner.wire
  let runner := recordAnswer seat step
    { runner.entries step.id.index with state := {}, used := true, exited := false }
    answer runner
  (answer.1, if answer.2.1.overlayGrabHeld then { runner with captureHeld := true } else runner)

def tick (step : Step) (now : TimePoint) (runner : SeatState σ) : Status × SeatState σ :=
  match findEntry runner step.id with
  | none => (.failure, runner)
  | some entry =>
    let answer := tickBody seat (.step .tick step) step.command now entry.state runner.wire
    (answer.1, recordAnswer seat step entry answer runner)

/-- Whether a scratch still holds anything. -/
def holdsAnything (state : CommandState) : Bool :=
  state.held || state.documentHold || state.overlayGrabHeld

def exit (step : Step) (_ : TimePoint) (runner : SeatState σ) :
    NeutralizationOutcome × SeatState σ :=
  match findEntry runner step.id with
  | none => (.notAttempted, runner)
  | some entry =>
    if entry.state.entered = false ∨ entry.exited = true then (.notAttempted, runner)
    else
      let closed :=
        if entry.lastStatus ≠ .success then
          interruptBody seat (.step .exit step) step.command entry.state runner.wire
        else exitBody seat (.step .exit step) step.command entry.state runner.wire
      let runner := setEntry { runner with wire := closed.2 } step.id
        { entry with state := closed.1, exited := true }
      if holdsAnything entry.state = false then (.nothingHeld, runner)
      else if holdsAnything closed.1 then (.notAttempted, runner)
      else (.released, forgetHold step.command runner)

def liftDocumentHold (command : Command) (origin : Origin) (wire : Wire σ) : Bool × Wire σ :=
  match command with
  | .press code =>
    if seat.capabilities.pointer then
      let up := seatButton seat origin code false wire
      let flushed := seatFlush seat origin up.2
      (flushed.1 && up.1, flushed.2)
    else (false, wire)
  | .keyDown key =>
    if seat.capabilities.keyboard then
      seatCall seat origin (.keyByName key false) wire
    else (false, wire)
  | _ => (false, wire)

def liftCapture (origin : Origin) (runner : SeatState σ) : Bool × SeatState σ :=
  let runner := { runner with captureHeld := false }
  if seat.capabilities.overlay then
    let answer := seatCall seat origin .overlayRelease runner.wire
    (answer.1, { runner with wire := answer.2 })
  else (true, runner)

def releaseHolds (step : Step) (runner : SeatState σ) : NeutralizationOutcome × SeatState σ :=
  match findEntry runner step.id with
  | none => (.notAttempted, runner)
  | some entry =>
    if entry.state.entered = false then (.notAttempted, runner)
    else
      let buttonOrKey := entry.state.documentHold && stillOutstanding step.command runner
      let capture := entry.state.overlayGrabHeld && runner.captureHeld
      if buttonOrKey = false ∧ capture = false then (.notAttempted, runner)
      else
        let origin := Origin.step .reap step
        let lifted : Bool × SeatState σ :=
          if buttonOrKey then
            let answer := liftDocumentHold seat step.command origin runner.wire
            (answer.1, setEntry { runner with wire := answer.2 } step.id
              { entry with state := { entry.state with documentHold := false } })
          else (true, runner)
        let freed : Bool × SeatState σ :=
          if capture then
            let current := lifted.2.entries step.id.index
            let answer := liftCapture seat origin (setEntry lifted.2 step.id
              { current with state := { current.state with overlayGrabHeld := false } })
            (answer.1 && lifted.1, answer.2)
          else lifted
        (if freed.1 then .released else .failed, forgetHold step.command freed.2)

/-- Lift a list of holds, remembering whether all went up. -/
def liftAll {α : Type} (call : α → SeatCall) : List α → Bool × Wire σ → Bool × Wire σ
  | [], progress => progress
  | item :: rest, progress =>
    let answer := seatCall seat .outstanding (call item) progress.2
    liftAll call rest (answer.1 && progress.1, answer.2)

def releaseOutstanding (runner : SeatState σ) : NeutralizationOutcome × SeatState σ :=
  if runner.buttons = [] ∧ runner.keys = [] ∧ runner.captureHeld = false then
    (.nothingHeld, runner)
  else
    let progress : Bool × Wire σ := (true, runner.wire)
    let progress :=
      if seat.capabilities.pointer then
        liftAll seat (SeatCall.button · false) runner.buttons progress
      else progress
    let progress :=
      if seat.capabilities.keyboard then
        liftAll seat (SeatCall.keyByName · false) runner.keys progress
      else progress
    let progress :=
      if seat.capabilities.pointer then
        let flushed := seatFlush seat .outstanding progress.2
        (flushed.1 && progress.1, flushed.2)
      else progress
    let runner := { runner with wire := progress.2 }
    let freed : Bool × SeatState σ :=
      if runner.captureHeld then
        let answer := liftCapture seat .outstanding runner
        (answer.1 && progress.1, answer.2)
      else (progress.1, runner)
    (if freed.1 then .released else .failed, { freed.2 with buttons := [], keys := [] })

def outstandingHolds (runner : SeatState σ) : Nat :=
  runner.buttons.length + runner.keys.length + (if runner.captureHeld then 1 else 0)

/-! ## Wake-ups -/

def lastError (runner : SeatState σ) (step : Step) : ErrorCode :=
  match findEntry runner step.id with
  | none => .providerFailed
  | some entry => entry.error

def waypointDue (options : Input.DragOptions) (state : CommandState) : Option TimePoint :=
  if state.waypoints.length ≤ state.emitted then none
  else some (waypointInstant state options.stepDwell)

def dueAt (command : Command) (state : CommandState) : Option TimePoint :=
  match command with
  | .wait _ => some state.deadline
  | .move _ _ options => waypointDue options state
  | .follow _ options => waypointDue options state
  | .drag _ _ _ options => waypointDue options state
  | _ => none

def nextTick (runner : SeatState σ) (step : Step) : Option TimePoint :=
  match findEntry runner step.id with
  | none => none
  | some entry => if entry.state.entered then dueAt step.command entry.state else none

end SeatRunner

/-- The seat runner as the player sees it. -/
def seatRunner {σ : Type} (seat : Seat σ) : CommandRunner (SeatState σ) where
  enter := SeatRunner.enter seat
  tick := SeatRunner.tick seat
  exit := SeatRunner.exit seat
  join _ runner := runner
  releaseHolds := SeatRunner.releaseHolds seat
  lastError := SeatRunner.lastError
  nextTick := SeatRunner.nextTick
  declaredDuration _ := declaredWait

/-- A runner that has done nothing yet. -/
def SeatState.fresh {σ : Type} (seat : σ) : SeatState σ := { wire := ⟨seat, []⟩ }

end Grab.Kernel
