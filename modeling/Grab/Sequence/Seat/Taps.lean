import Grab.Sequence.Seat.Contract

/-!
# Taps

Clicks, scrolls and key taps press and release within one step and keep no flag.  Once such a step
is exited, no button and no key it touched is left on a press if and only if the seat refused it
no press: a press that is refused may have been committed, and nothing lifts it again.
-/

namespace Grab.Kernel

open Grab.Sequence SeatRunner List

section

variable {σ : Type} (seat : Seat σ) {step : Step} (transient : isTransient step.command = true)

include transient

/-- The body of a tap is one piece of tidy work. -/
theorem enterCommand_tap :
    ∃ capability attempt, Tidy (.step .enter step) attempt ∧
      enterCommand seat (.step .enter step) step.command =
        available capability (settled attempt) := by
  cases commandIs : step.command with
  | click code => exact ⟨_, _, tidy_clickWork seat transient code, rfl⟩
  | clickAt position code =>
    exact ⟨_, _, (tidy_warpTo seat position).andThen (tidy_clickWork seat transient code), rfl⟩
  | scroll dx dy => exact ⟨_, _, tidy_scrollWork seat transient dx dy, rfl⟩
  | key name => exact ⟨_, _, tidy_keyTap seat transient name, rfl⟩
  | _ =>
    rw [commandIs] at transient
    cases transient

/-- A tap ends with everything lifted and no press refused, or on a press that was refused. -/
theorem enter_tap (now : TimePoint) (runner : SeatState σ) :
    ∃ calls, (enter seat step now runner).2.wire.log = runner.wire.log ++ calls ∧
      (Clean calls ∧ (∀ hold, pendingIn hold calls = false) ∨
        ∃ front last hold, calls = front ++ [last] ∧ last.takes = some hold ∧
          last.refusedTap = true) := by
  have noLift : liftedBy step.command = none := by
    cases commandIs : step.command with
    | release _ | keyUp _ | overlayRelease =>
      rw [commandIs] at transient
      cases transient
    | _ => rfl
  have logEq : (enter seat step now runner).2.wire.log =
      (enterBody seat (.step .enter step) step.command now {} runner.wire).2.2.log := by
    rw [enter]
    split
    · exact (recordAnswer_log seat step _ _ runner).trans (by
        rw [completion_eq_nil noLift, append_nil])
    · exact (recordAnswer_log seat step _ _ runner).trans (by
        rw [completion_eq_nil noLift, append_nil])
  rcases enterCommand_tap seat transient with ⟨capability, attempt, tidy, bodyEq⟩
  rw [logEq, enterBody, bodyEq, available]
  split
  · rcases tidy runner.wire with ⟨calls, callsLog, _, ends⟩
    exact ⟨calls, callsLog, ends.imp_right And.right⟩
  · exact ⟨[], (append_nil _).symm, .inl ⟨by simp [Clean], fun _ => rfl⟩⟩

/-- The exit of a tap makes no call. -/
theorem exit_tap (now : TimePoint) (runner : SeatState σ) :
    (exit seat step now runner).2.wire = runner.wire := by
  have quiet : ∀ (state : CommandState) (wire : Wire σ),
      (exitBody seat (.step .exit step) step.command state wire).2 = wire := by
    intro state wire
    rw [exitBody]
    split
    · rfl
    cases commandIs : step.command with
    | drag _ _ _ _ | press _ | keyDown _ | overlayGrab =>
      rw [commandIs] at transient
      cases transient
    | _ => rfl
  have closed : ∀ entry : Entry,
      (if entry.lastStatus ≠ .success then
          interruptBody seat (.step .exit step) step.command entry.state runner.wire
        else exitBody seat (.step .exit step) step.command entry.state runner.wire).2 =
        runner.wire := by
    intro entry
    split <;> exact quiet _ _
  rw [exit]
  split
  · rfl
  rename_i entry _
  split
  · rfl
  have wireEq := closed entry
  dsimp only
  generalize (if entry.lastStatus ≠ .success then
      interruptBody seat (.step .exit step) step.command entry.state runner.wire
    else exitBody seat (.step .exit step) step.command entry.state runner.wire) =
      body at wireEq ⊢
  split
  · exact wireEq
  split
  · exact wireEq
  · rw [forgetHold_wire]
    exact wireEq

omit transient

/-- Where the calls of a click, a scroll or a key tap end: on a release for every button and key,
if and only if the seat refused no press of it. -/
theorem taps_end_released_iff (transient : isTransient step.command = true)
    (runner : SeatState σ) (now later : TimePoint) :
    let exited := (exit seat step later (enter seat step now runner).2).2
    let calls := exited.wire.log.drop runner.wire.log.length
    (∀ hold, pendingIn hold calls = false) ↔ Clean calls := by
  intro exited calls
  rcases enter_tap seat transient now runner with ⟨made, logEq, ends⟩
  have callsEq : calls = made := by
    change List.drop _ (exit seat step later (enter seat step now runner).2).2.wire.log = made
    rw [exit_tap seat transient, logEq, drop_left]
  rw [callsEq]
  rcases ends with ⟨clean, settled⟩ | ⟨front, last, hold, rfl, takes, refused⟩
  · exact ⟨fun _ => clean, fun _ => settled⟩
  constructor
  case mp =>
    intro settled
    have pressed : pendingIn hold (front ++ [last]) = true := by
      rw [pendingIn_append, pendingFrom, foldl_cons, foldl_nil, trackHold, if_pos takes]
    rw [settled hold] at pressed
    cases pressed
  case mpr =>
    intro clean
    have granted := clean last (mem_append_right _ mem_cons_self)
    rw [refused] at granted
    cases granted

end

/-- A scroll of one notch down and two to the right, on a seat that fails every release. -/
theorem taps_end_released_scroll :
    let seat := echoSeat fun request => request.lifts.isNone
    let step : Step := { command := .scroll 2 1 }
    pendingIn (.button 5)
      (exit seat step 5 (enter seat step 0 (SeatState.fresh ())).2).2.wire.log = false :=
  (taps_end_released_iff (echoSeat fun request => request.lifts.isNone) rfl
    (SeatState.fresh ()) 0 5).mpr (by unfold Clean; decide) (.button 5)

/-- A click whose press is refused ends on it. -/
theorem click_ends_on_press :
    let seat := echoSeat fun _ => false
    let step : Step := { command := .click 1 }
    pendingIn (.button 1)
      (exit seat step 5 (enter seat step 0 (SeatState.fresh ())).2).2.wire.log = true := by
  decide

end Grab.Kernel
