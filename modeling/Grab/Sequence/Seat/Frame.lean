import Grab.Sequence.Seat.Runner

/-!
# What a step leaves alone

A property of the seat's state that every call but a capture keeps is kept by every
request on a step that is not a capture, and by the exit and the unwind of any step.
-/

namespace Grab.Kernel

open Grab.Sequence Grab.Geometry

/-- The steps that drive the capture half of a seat. -/
def isCapture (command : Command) : Bool :=
  match command with
  | .capture .. => true
  | _ => false

/-- A property that every call but the start of a capture keeps. -/
structure Framed {σ : Type} (seat : Seat σ) (property : σ → Prop) : Prop where
  call : ∀ request state, (∀ output locator, request ≠ .beginCapture output locator) →
    property state → property (seat.call request state).2
  position : ∀ state, property state → property (seat.pointerPosition state).2

/-- A piece of seat work that keeps a property. -/
def Attempt.Keeps {σ : Type} (attempt : Attempt σ) (property : σ → Prop) : Prop :=
  ∀ wire, property wire.seat → property (attempt wire).2.seat

/-- A body that keeps a property. -/
def BodyKeeps {σ : Type} (body : CommandState → Wire σ → Answer σ) (property : σ → Prop) :
    Prop :=
  ∀ state wire, property wire.seat → property (body state wire).2.2.seat

section

variable {σ : Type} {seat : Seat σ} {property : σ → Prop} {origin : Origin}

namespace Attempt.Keeps

theorem andThen {first second : Attempt σ} (keepsFirst : first.Keeps property)
    (keepsSecond : second.Keeps property) : (first.andThen second).Keeps property := by
  intro wire holds
  unfold Attempt.andThen
  dsimp only
  split
  · exact keepsSecond _ (keepsFirst wire holds)
  · exact keepsFirst wire holds

theorem done : (Attempt.done : Attempt σ).Keeps property := fun _ holds => holds

theorem refuse : (Attempt.refuse : Attempt σ).Keeps property := fun _ holds => holds

theorem settled {attempt : Attempt σ} (keeps : attempt.Keeps property) :
    BodyKeeps (settled attempt) property :=
  fun _ wire holds => keeps wire holds

end Attempt.Keeps

theorem BodyKeeps.available {capability : Bool} {body : CommandState → Wire σ → Answer σ}
    (keeps : BodyKeeps body property) : BodyKeeps (available capability body) property := by
  intro state wire holds
  unfold Kernel.available
  split
  · exact keeps state wire holds
  · exact holds

namespace Framed

variable (framed : Framed seat property) {request : SeatCall}
include framed

/-! ## Round trips -/

theorem seatCall (other : ∀ output locator, request ≠ .beginCapture output locator) :
    (Kernel.seatCall seat origin request).Keeps property :=
  fun wire holds => framed.call request wire.seat other holds

theorem seatFlush : (Kernel.seatFlush seat origin).Keeps property := framed.seatCall (by simp)

variable (code : UInt8) {command : Command}

theorem seatButton (pressed : Bool) : (Kernel.seatButton seat origin code pressed).Keeps property :=
  framed.seatCall (by simp)

theorem warpTo (point : Point) : (Kernel.warpTo seat origin point).Keeps property := by
  unfold Kernel.warpTo
  split
  · exact (framed.seatCall (by simp)).andThen framed.seatFlush
  · exact Attempt.Keeps.refuse

theorem driveButton (pressed : Bool) :
    (Kernel.driveButton seat origin code pressed).Keeps property :=
  (framed.seatButton code pressed).andThen framed.seatFlush

theorem driveKey (name : String) (pressed : Bool) :
    (Kernel.driveKey seat origin name pressed).Keeps property :=
  (framed.seatCall (by simp)).andThen framed.seatFlush

theorem clickWork : (Kernel.clickWork seat origin code).Keeps property :=
  ((framed.seatButton code true).andThen (framed.seatButton code false)).andThen framed.seatFlush

theorem notches (count : Nat) : (Kernel.notches seat origin code count).Keeps property := by
  induction count with
  | zero => exact Attempt.Keeps.done
  | succ count ih =>
    exact ((framed.seatButton code true).andThen (framed.seatButton code false)).andThen ih

theorem scrollAxis (offset : Int) (positive negative : Input.PointerButton) :
    (Kernel.scrollAxis seat origin offset positive negative).Keeps property := by
  unfold Kernel.scrollAxis
  split
  · exact Attempt.Keeps.done
  · exact framed.notches _ _

theorem scrollWork (dx dy : Int) : (Kernel.scrollWork seat origin dx dy).Keeps property :=
  (framed.scrollAxis _ _ _).andThen ((framed.scrollAxis _ _ _).andThen framed.seatFlush)

/-! ## Walks -/

theorem advanceLoop (dwell : Milliseconds) (now : TimePoint) (remaining : Nat) :
    BodyKeeps (Kernel.advanceLoop seat origin dwell now remaining) property := by
  induction remaining with
  | zero => exact fun _ _ holds => holds
  | succ remaining ih =>
    intro state wire holds
    rw [Kernel.advanceLoop]
    split
    · exact holds
    split
    · exact holds
    rename_i point _
    have moved : property (Kernel.warpTo seat origin point wire).2.seat :=
      framed.warpTo point wire holds
    dsimp only
    split
    · exact ih _ _ moved
    · exact moved

theorem placeStart (start : Option Point) :
    (Kernel.placeStart seat origin start).Keeps property := by
  cases start with
  | none => exact Attempt.Keeps.done
  | some point => exact framed.warpTo point

theorem beginWalk (options : Input.DragOptions) (start : Option Point) (walk : List Point) :
    BodyKeeps (fun state => Kernel.beginWalk seat origin state options start walk)
      property := by
  intro state wire holds
  have placed : property (Kernel.placeStart seat origin start wire).2.seat :=
    framed.placeStart start wire holds
  dsimp only
  unfold Kernel.beginWalk
  split
  · exact holds
  dsimp only
  split <;> exact placed

theorem resolveOrigin (declared : Option Point) (wire : Wire σ) (holds : property wire.seat) :
    property (Kernel.resolveOrigin seat declared wire).2.seat := by
  unfold Kernel.resolveOrigin
  split
  · exact holds
  · split
    · exact framed.position wire.seat holds
    · exact holds

/-! ## Entering, ticking and exiting -/

theorem enterMove (start : Option Point) (target : Point) (options : Input.DragOptions) :
    BodyKeeps (Kernel.enterMove seat origin start target options) property := by
  intro state wire holds
  have resolved := framed.resolveOrigin start wire holds
  unfold Kernel.enterMove
  split
  · exact holds
  dsimp only
  split
  · exact resolved
  · exact framed.beginWalk _ _ _ state _ resolved

theorem enterFollow (path : Curve) (options : Input.DragOptions) :
    BodyKeeps (Kernel.enterFollow seat origin path options) property := by
  intro state wire holds
  unfold Kernel.enterFollow
  split
  · exact holds
  · split
    · exact holds
    · exact framed.beginWalk _ _ _ state _ holds

theorem enterDrag (start target : Point) (code : UInt8) (options : Input.DragOptions) :
    BodyKeeps (Kernel.enterDrag seat origin start target code options) property := by
  intro state wire holds
  have begun : property (Kernel.beginWalk seat origin state options (some start)
      (waypoints seat start target options) wire).2.2.seat :=
    framed.beginWalk options (some start) _ state wire holds
  unfold Kernel.enterDrag
  split
  · exact holds
  dsimp only
  split
  · exact begun
  · exact framed.driveButton code true _ begun

theorem handled (handle : String) (other : ∀ output locator, request ≠ .beginCapture output locator)
    : BodyKeeps (Kernel.handled seat origin handle request) property := by
  intro state wire holds
  unfold Kernel.handled
  split
  · exact holds
  · exact framed.seatCall other wire holds

theorem enterCommand (plain : isCapture command = false) :
    BodyKeeps (Kernel.enterCommand seat origin command) property := by
  unfold Kernel.enterCommand
  cases command with
  | wait duration =>
    intro state wire holds
    dsimp only
    split <;> exact holds
  | warp target => exact (framed.warpTo target).settled.available
  | click code => exact (framed.clickWork code).settled.available
  | clickAt position code =>
    exact ((framed.warpTo position).andThen (framed.clickWork code)).settled.available
  | press code =>
    exact BodyKeeps.available fun _ wire holds => framed.driveButton code true wire holds
  | release code => exact (framed.driveButton code false).settled.available
  | scroll dx dy => exact (framed.scrollWork dx dy).settled.available
  | type text | overlayAdd handle shape | overlayClear =>
    exact (framed.seatCall (by simp)).settled.available
  | key key =>
    exact ((framed.seatCall (by simp)).andThen (framed.driveKey key false)).settled.available
  | keyDown key =>
    exact BodyKeeps.available fun _ wire holds => framed.driveKey key true wire holds
  | keyUp key => exact (framed.driveKey key false).settled.available
  | move start target options => exact (framed.enterMove start target options).available
  | follow path options => exact (framed.enterFollow path options).available
  | drag start target code options =>
    exact (framed.enterDrag start target code options).available
  | capture output locator => cases plain
  | overlayUpdate handle shape | overlayRemove handle | overlayAttach handle offset
  | overlayDetach handle => exact (framed.handled handle (by simp)).available
  | overlayGrab | overlayRelease =>
    exact BodyKeeps.available fun _ wire holds => framed.seatCall (by simp) wire holds

theorem tickDrag (options : Input.DragOptions) (now : TimePoint) :
    BodyKeeps (Kernel.tickDrag seat origin code options now) property := by
  intro state wire holds
  have walked : property (advanceWalk seat origin state options.stepDwell now wire).2.2.seat :=
    framed.advanceLoop options.stepDwell now _ state wire holds
  unfold Kernel.tickDrag
  dsimp only
  split
  · exact walked
  · split <;> exact framed.driveButton code false _ walked

theorem tickCommand (plain : isCapture command = false) (now : TimePoint) :
    BodyKeeps (Kernel.tickCommand seat origin command now) property := by
  unfold Kernel.tickCommand
  split
  · intro state wire holds
    dsimp only
    split <;> exact holds
  · exact BodyKeeps.available fun state wire holds => framed.advanceLoop _ now _ state wire holds
  · exact BodyKeeps.available fun state wire holds => framed.advanceLoop _ now _ state wire holds
  · exact (framed.tickDrag _ _ now).available
  · cases plain
  · exact fun _ _ holds => holds

theorem exitBody (command : Command) (state : CommandState) (wire : Wire σ)
    (holds : property wire.seat) :
    property (Kernel.exitBody seat origin command state wire).2.seat := by
  unfold Kernel.exitBody
  split
  · exact holds
  unfold Kernel.exitCommand
  split
  · split
    · exact framed.driveButton _ false wire holds
    · exact holds
  · split
    · exact framed.driveButton _ false wire holds
    · exact holds
  · split
    · exact framed.driveKey _ false wire holds
    · exact holds
  · split
    · exact framed.seatCall (by simp) wire holds
    · exact holds
  · exact holds

end Framed

/-! ## The runner -/

namespace SeatRunner

@[simp]
theorem noteCompletion_seat (command : Command) (runner : SeatState σ) :
    (noteCompletion command runner).wire.seat = runner.wire.seat := by
  unfold noteCompletion
  split <;> rfl

@[simp]
theorem recordAnswer_seat (seat : Seat σ) (step : Step) (entry : Entry) (answer : Answer σ)
    (runner : SeatState σ) :
    (recordAnswer seat step entry answer runner).wire.seat = answer.2.2.seat := by
  unfold recordAnswer
  dsimp only
  split
  · rw [rememberHold_wire, noteCompletion_seat]
    rfl
  · rfl

theorem enter_seat (seat : Seat σ) (step : Step) (now : TimePoint) (runner : SeatState σ) :
    (enter seat step now runner).2.wire.seat =
      (enterBody seat (.step .enter step) step.command now {} runner.wire).2.2.seat := by
  unfold enter
  dsimp only
  split <;> exact recordAnswer_seat seat step _ _ runner

theorem tick_seat {step : Step} {now : TimePoint} {runner : SeatState σ} {entry : Entry}
    (found : findEntry runner step.id = some entry) : (tick seat step now runner).2.wire.seat =
      (tickBody seat (.step .tick step) step.command now entry.state runner.wire).2.2.seat := by
  simp only [tick, found, recordAnswer_seat]

end SeatRunner

namespace Framed

variable (framed : Framed seat property) {step : Step}
include framed

theorem enter (plain : isCapture step.command = false) (now : TimePoint) (runner : SeatState σ)
    (holds : property runner.wire.seat) :
    property (SeatRunner.enter seat step now runner).2.wire.seat := by
  rw [SeatRunner.enter_seat]
  exact framed.enterCommand plain _ _ holds

theorem tick (plain : isCapture step.command = false) (now : TimePoint) (runner : SeatState σ)
    (holds : property runner.wire.seat) :
    property (SeatRunner.tick seat step now runner).2.wire.seat := by
  cases found : SeatRunner.findEntry runner step.id with
  | none => simpa only [SeatRunner.tick, found] using holds
  | some entry =>
    rw [SeatRunner.tick_seat found]
    unfold tickBody
    split
    · exact holds
    · exact framed.tickCommand plain now _ _ holds

theorem exit (step : Step) (now : TimePoint) (runner : SeatState σ)
    (holds : property runner.wire.seat) :
    property (SeatRunner.exit seat step now runner).2.wire.seat := by
  unfold SeatRunner.exit
  split
  · exact holds
  rename_i entry _
  split
  · exact holds
  dsimp only
  generalize closing : (if entry.lastStatus ≠ .success then
      interruptBody seat (.step .exit step) step.command entry.state runner.wire
    else Kernel.exitBody seat (.step .exit step) step.command entry.state runner.wire) =
      closed
  have kept : property closed.2.seat := by
    rw [← closing]
    split <;> exact framed.exitBody _ _ _ holds
  split
  · exact kept
  split
  · exact kept
  · rw [SeatRunner.forgetHold_wire]
    exact kept

theorem liftDocumentHold (command : Command) (wire : Wire σ) (holds : property wire.seat) :
    property (SeatRunner.liftDocumentHold seat command origin wire).2.seat := by
  unfold SeatRunner.liftDocumentHold
  split
  · split
    · exact framed.seatFlush _ (framed.seatButton _ false wire holds)
    · exact holds
  · split
    · exact framed.seatCall (by simp) wire holds
    · exact holds
  · exact holds

theorem liftCapture (runner : SeatState σ) (holds : property runner.wire.seat) :
    property (SeatRunner.liftCapture seat origin runner).2.wire.seat := by
  unfold SeatRunner.liftCapture
  split
  · exact framed.seatCall (by simp) runner.wire holds
  · exact holds

theorem releaseHolds (step : Step) (runner : SeatState σ) (holds : property runner.wire.seat) :
    property (SeatRunner.releaseHolds seat step runner).2.wire.seat := by
  unfold SeatRunner.releaseHolds
  split
  · exact holds
  split
  · exact holds
  dsimp only
  split
  · exact holds
  have lifted : property (SeatRunner.liftDocumentHold seat step.command
      (.step .reap step) runner.wire).2.seat :=
    framed.liftDocumentHold step.command runner.wire holds
  rw [SeatRunner.forgetHold_wire]
  split <;> split <;> first
    | exact framed.liftCapture _ lifted
    | exact framed.liftCapture _ holds
    | exact lifted
    | exact holds

end Framed

end

end Grab.Kernel
