import Grab.Sequence.Seat.Holds

/-!
# The contract of a run on a seat

What a player over a seat runner leaves behind.  When a run ends nothing is left
in the book, and no press is left without a release call after it as long as no
tap was refused its press; and a hold that a step of the document has lifted is
not released a second time.
-/

namespace Grab.Kernel

open Grab.Sequence SeatRunner List Bool

section

variable {σ : Type} {sequence : Sequence} {seat : Seat σ} {start : σ} {world : World (SeatState σ)}
  {hold : Hold}

/-! ## What a finished run leaves -/

theorem outstandingHolds_eq_zero {runner : SeatState σ}
    (empty : ∀ hold, ¬Outstanding hold runner) : outstandingHolds runner = 0 := by
  have noButtons : runner.buttons = [] :=
    eq_nil_iff_forall_not_mem.mpr fun code => empty (.button code)
  have noKeys : runner.keys = [] := eq_nil_iff_forall_not_mem.mpr fun name => empty (.key name)
  have noCapture : ¬runner.captureHeld = true := empty .capture
  simp [outstandingHolds, noButtons, noKeys, noCapture]

variable (built : sequence.Built)

include built

variable (sound : RunSound sequence (seatRunner seat) (SeatState.fresh start) world)

include sound

/-- In a run without active steps, what is pending is in the book. -/
theorem outstanding_of_pending (emptyFrontier : world.player.frontier = [])
    (clean : Clean world.runner.wire.log) (isPending : pendingIn hold world.runner.wire.log = true)
    : Outstanding hold world.runner := by
  obtain ⟨protocol, conversation, _, openIff⟩ := sound.balanced.ledger.conversation
  rcases (conversation.accounted built).covered clean hold isPending with
    outstanding | ⟨id, step, keeper⟩
  · exact outstanding
  · obtain ⟨live, isOpen⟩ := (openIff id).mp keeper.isOpen
    rw [closed_of_empty sound.balanced.sound emptyFrontier live] at isOpen
    cases isOpen

/-- The backstop leaves nothing pending that was in the book. -/
theorem not_pending_of_sweep
    (covered : pendingIn hold world.runner.wire.log = true → Outstanding hold world.runner) :
    pendingIn hold (releaseOutstanding seat world.runner).2.wire.log = false := by
  obtain ⟨protocol, conversation, _, _⟩ := sound.balanced.ledger.conversation
  have accounted := conversation.accounted built
  obtain ⟨⟨records, logEq, made, lifts⟩, _⟩ := releaseOutstanding_sweeps seat world.runner
  rw [logEq, pendingIn_append]
  by_contra isPending
  rw [not_eq_false] at isPending
  have untaken : ∀ record ∈ records, record.takes ≠ some hold := by
    intro record member
    rw [(made record member).2.1]
    exact Option.some_ne_none _ ∘ Eq.symm
  rcases pendingFrom_cases isPending with older | new
  · have outstanding := covered older
    obtain ⟨id, step, owner⟩ := accounted.owned hold outstanding
    have isHold := owner.isHold
    have capable : holdCapability seat.capabilities hold = true := by
      have available := (accounted.scratch id step owner.found).capable hold
        ((entryHolds_iff isHold).mpr ⟨rfl, owner.flag⟩)
      revert isHold available
      cases step.command <;> rintro ⟨⟩ available <;> exact available
    obtain ⟨record, member, isLift⟩ := lifts hold ⟨outstanding, capable⟩
    cases (pendingFrom_lifted untaken member isLift _).symm.trans isPending
  · cases (pendingFrom_untaken untaken).symm.trans new

/-- The backstop releases nothing that a step of the document has lifted. -/
theorem sober_of_sweep : Sober (releaseOutstanding seat world.runner).2.wire.log := by
  obtain ⟨protocol, conversation, _, _⟩ := sound.balanced.ledger.conversation
  have accounted := conversation.accounted built
  obtain ⟨⟨records, logEq, made, _⟩, _⟩ := releaseOutstanding_sweeps seat world.runner
  rw [logEq]
  apply accounted.sober.append_of_calls
  · intro record member
    rw [(made record member).1]
    exact Option.some_ne_none _
  intro record member hold isUnwind
  by_contra retired
  rw [not_eq_false] at retired
  exact (accounted.retired hold retired).1 ((made record member).2.2 hold isUnwind.1).1

end

/-! ## Small documents on a small seat -/

/-- A seat with every capability that answers as it is told and keeps no state. -/
def echoSeat (answer : SeatCall → Bool) : Seat Unit where
  capabilities := ⟨true, true, true, true, true, true⟩
  call request state := (answer request, state)
  pointerPosition state := (none, state)
  pollCapture state := (none, state)
  samplePoint _ _ _ := ⟨0, 0⟩
  cubicBetween _ _ := ⟨[]⟩

/-- A button that is pressed and a wait while it is down. -/
def pressAndWait : List Step :=
  [{ command := .press 1 }, { command := .wait 5, after := [StepId.ofIndex 0] }]

/-- A button that is pressed, released, and a wait after it. -/
def pressAndRelease : List Step :=
  [{ command := .press 1 }, { command := .release 1, after := [StepId.ofIndex 0] },
    { command := .wait 5, after := [StepId.ofIndex 1] }]

/-- One click. -/
def oneClick : List Step := [{ command := .click 1 }]

/-- A document the builder accepts, with a property checked on the result. -/
theorem exists_built (steps : List Step) (property : Sequence → Bool)
    (holds : (Sequence.build steps {} "seat").toOption.any property = true) :
    ∃ sequence, Sequence.build steps {} "seat" = .ok sequence ∧ property sequence = true := by
  cases accepted : Sequence.build steps {} "seat" with
  | error error =>
    rw [accepted] at holds
    cases holds
  | ok sequence =>
    rw [accepted] at holds
    exact ⟨sequence, rfl, holds⟩

/-! ## The contract -/

section

variable {σ : Type} {sequence : Sequence} {steps : List Step} {pacing : PacingOptions}
  {name : String}

/-- No input is left held.  An interrupted run has an empty book; a run that is
done has one after the backstop; and unless a click, a scroll or a key tap was
refused its press, every press call has a release call after it. -/
theorem no_input_left_held (accepted : Sequence.build steps pacing name = .ok sequence)
    (seat : Seat σ) (start : σ) (controls : List Control) :
    let world := (World.initial (SeatState.fresh start)).run sequence (seatRunner seat) controls
    let swept := (releaseOutstanding seat world.runner).2
    (world.player.state = .interrupted → outstandingHolds world.runner = 0 ∧
        (Clean world.runner.wire.log → ∀ hold, Released hold world.runner.wire.log)) ∧
      (world.player.state = .done → outstandingHolds swept = 0 ∧
        (Clean world.runner.wire.log → ∀ hold, Released hold swept.wire.log)) := by
  intro world swept
  have built := Sequence.built_of_build accepted
  have sound : RunSound sequence (seatRunner seat) (SeatState.fresh start) world :=
    World.reachable_sound accepted _ controls
  constructor
  · intro interrupted
    have ended := sound.ended interrupted
    obtain ⟨protocol, conversation, _, _⟩ := sound.balanced.ledger.conversation
    have empty : ∀ hold, ¬Outstanding hold world.runner :=
      not_outstanding_of_reaped built ended.reaped conversation
    refine ⟨outstandingHolds_eq_zero empty, fun clean hold => ?_⟩
    apply released_of_not_pending
    by_contra isPending
    rw [not_eq_false] at isPending
    exact empty hold (outstanding_of_pending built sound ended.frontier clean isPending)
  · intro isDone
    refine ⟨(releaseOutstanding_sweeps seat world.runner).2, fun clean hold => ?_⟩
    apply released_of_not_pending
    exact not_pending_of_sweep built sound
      (outstanding_of_pending built sound (sound.done isDone) clean)

/-- A run that is interrupted while its button is down. -/
theorem no_input_left_held_pressAndWait : ∃ sequence,
    Sequence.build pressAndWait {} "seat" = .ok sequence ∧
      let world := (World.initial (SeatState.fresh ())).run sequence
        (seatRunner (echoSeat fun _ => true)) [.play, .pump 0, .interrupt]
      outstandingHolds world.runner = 0 ∧ Released (.button 1) world.runner.wire.log := by
  obtain ⟨sequence, accepted, checked⟩ := exists_built pressAndWait
    (fun sequence =>
      let world := (World.initial (SeatState.fresh ())).run sequence
        (seatRunner (echoSeat fun _ => true)) [.play, .pump 0, .interrupt]
      decide (world.player.state = .interrupted) &&
        world.runner.wire.log.all fun record => !record.refusedTap)
    (by decide +kernel)
  rw [and_eq_true_iff, decide_eq_true_eq, all_eq_true] at checked
  obtain ⟨interrupted, clean⟩ := checked
  obtain ⟨empty, released⟩ :=
    (no_input_left_held accepted (echoSeat fun _ => true) () _).1 interrupted
  refine ⟨sequence, accepted, empty, released ?_ _⟩
  intro record member
  simpa using clean record member

/-- A click whose press is refused ends its run without a release call: a click
keeps no flag, unlike every other command that presses. -/
theorem click_left_held : ∃ sequence,
    Sequence.build oneClick {} "seat" = .ok sequence ∧
      let world := (World.initial (SeatState.fresh ())).run sequence
        (seatRunner (echoSeat fun _ => false)) [.play, .pump 0]
      world.player.state = .interrupted ∧ ¬Released (.button 1) world.runner.wire.log := by
  obtain ⟨sequence, accepted, checked⟩ := exists_built oneClick
    (fun sequence =>
      let world := (World.initial (SeatState.fresh ())).run sequence
        (seatRunner (echoSeat fun _ => false)) [.play, .pump 0]
      decide (world.player.state = .interrupted) &&
        decide (world.runner.wire.log.map Record.takes = [some (.button 1)]))
    (by decide +kernel)
  rw [and_eq_true_iff, decide_eq_true_eq, decide_eq_true_eq, map_eq_singleton_iff] at checked
  obtain ⟨interrupted, record, logEq, taken⟩ := checked
  refine ⟨sequence, accepted, interrupted, fun released => ?_⟩
  obtain ⟨later, impossible, _⟩ := released [] record [] logEq taken
  cases impossible

/-- No double release.  Once a step of the document has lifted a hold and
nothing has pressed it since, neither the unwind of a step that took it nor the
backstop releases it again. -/
theorem no_double_release (accepted : Sequence.build steps pacing name = .ok sequence)
    (seat : Seat σ) (start : σ) (controls : List Control) :
    let world := (World.initial (SeatState.fresh start)).run sequence (seatRunner seat) controls
    ∀ hold before record after,
      (releaseOutstanding seat world.runner).2.wire.log = before ++ record :: after →
      retiredIn hold before = true → ¬record.Unwinds hold := by
  intro world
  exact sober_of_sweep (Sequence.built_of_build accepted)
    (World.reachable_sound accepted _ controls)

/-- A run that is interrupted after its button went up again. -/
theorem no_double_release_pressAndRelease : ∃ sequence,
    Sequence.build pressAndRelease {} "seat" = .ok sequence ∧
      let world := (World.initial (SeatState.fresh ())).run sequence
        (seatRunner (echoSeat fun _ => true)) [.play, .pump 0, .interrupt]
      retiredIn (.button 1) world.runner.wire.log = true ∧
        ∀ record after, (releaseOutstanding (echoSeat fun _ => true) world.runner).2.wire.log =
          world.runner.wire.log ++ record :: after → ¬record.Unwinds (.button 1) := by
  obtain ⟨sequence, accepted, retired⟩ := exists_built pressAndRelease
    (fun sequence =>
      let world := (World.initial (SeatState.fresh ())).run sequence
        (seatRunner (echoSeat fun _ => true)) [.play, .pump 0, .interrupt]
      retiredIn (.button 1) world.runner.wire.log)
    (by decide +kernel)
  refine ⟨sequence, accepted, retired, fun record after logEq => ?_⟩
  exact no_double_release accepted (echoSeat fun _ => true) () _ _ _ record after logEq retired

end

end Grab.Kernel
