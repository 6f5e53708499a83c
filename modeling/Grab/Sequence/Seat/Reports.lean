import Grab.Sequence.Player.Verdict
import Grab.Sequence.Seat.Contract

/-!
# Reported releases

An exit lowers the flag of its step before it asks the seat, and what it reports is read off the
flags: it answers that it released what was held even where the seat refused.  The lift of what a
closed step left down reports the answers of the seat, and the verdict of a run is the worst of
what was reported.
-/

namespace Grab.Kernel

open Grab.Sequence Grab.Geometry SeatRunner List Bool

/-- Whether a record is a call made in a phase. -/
def Record.madeIn (phase : Phase) : Record → Bool
  | .call (.step other _) _ _ => decide (other = phase)
  | _ => false

/-- What an exit sends to lift what its step still holds. -/
def liftOnExit {σ : Type} (seat : Seat σ) (step : Step) (runner : SeatState σ) :
    Option (Attempt σ) :=
  let entry := runner.entries step.id.index
  match step.command with
  | .drag _ _ code _ =>
    if seat.capabilities.pointer ∧ entry.state.held then
      some (driveButton seat (.step .exit step) code false)
    else none
  | .press code =>
    if seat.capabilities.pointer ∧ entry.state.documentHold ∧ entry.lastStatus ≠ .success then
      some (driveButton seat (.step .exit step) code false)
    else none
  | .keyDown key =>
    if seat.capabilities.keyboard ∧ entry.state.documentHold ∧ entry.lastStatus ≠ .success then
      some (driveKey seat (.step .exit step) key false)
    else none
  | .overlayGrab =>
    if seat.capabilities.overlay ∧ entry.state.overlayGrabHeld ∧
        entry.lastStatus ≠ .success then
      some (seatCall seat (.step .exit step) .overlayRelease)
    else none
  | _ => none

section

variable {σ : Type} {seat : Seat σ} {before middle after : Wire σ}

/-! ## Answers and the calls behind them -/

/-- The log grew by calls that all succeeded exactly if the answer is positive. -/
def Honest (answer : Bool) (before after : Wire σ) : Prop :=
  ∃ records, after.log = before.log ++ records ∧
    ((∀ record ∈ records, record.failed = false) ↔ answer = true)

/-- The log grew by calls that all succeeded if the answer is positive. -/
def Vouched (answer : Bool) (before after : Wire σ) : Prop :=
  ∃ records, after.log = before.log ++ records ∧
    (answer = true → ∀ record ∈ records, record.failed = false)

theorem Honest.vouched {answer : Bool} (honest : Honest answer before after) :
    Vouched answer before after := by
  rcases honest with ⟨records, logEq, granted⟩
  exact ⟨records, logEq, granted.mpr⟩

theorem honest_seatCall (origin : Origin) (request : SeatCall) (wire : Wire σ) :
    Honest (seatCall seat origin request wire).1 wire (seatCall seat origin request wire).2 :=
  ⟨[_], rfl, by simp [Record.failed, seatCall]⟩

theorem honest_andThen {first second : Attempt σ}
    (firstHonest : ∀ wire, Honest (first wire).1 wire (first wire).2)
    (secondHonest : ∀ wire, Honest (second wire).1 wire (second wire).2) (wire : Wire σ) :
    Honest (first.andThen second wire).1 wire (first.andThen second wire).2 := by
  rcases firstHonest wire with ⟨front, frontLog, frontGranted⟩
  rw [Attempt.andThen]
  split
  · rename_i succeeded
    rcases secondHonest (first wire).2 with ⟨back, backLog, backGranted⟩
    refine ⟨front ++ back, by rw [backLog, frontLog, append_assoc], ?_⟩
    rw [forall_mem_append, backGranted, frontGranted]
    exact and_iff_right succeeded
  rename_i refused
  rw [not_eq_true] at refused
  rw [refused] at frontGranted
  exact ⟨front, frontLog, frontGranted⟩

theorem vouched_refl (answer : Bool) (wire : Wire σ) : Vouched answer wire wire :=
  ⟨[], (append_nil _).symm, by simp⟩

theorem Vouched.both {first second : Bool} (front : Vouched first before middle)
    (back : Vouched second middle after) : Vouched (second && first) before after := by
  rcases front with ⟨frontRecords, frontLog, frontGranted⟩
  rcases back with ⟨backRecords, backLog, backGranted⟩
  refine ⟨frontRecords ++ backRecords, by rw [backLog, frontLog, append_assoc], ?_⟩
  intro granted
  rw [and_eq_true_iff] at granted
  exact forall_mem_append.mpr ⟨frontGranted granted.2, backGranted granted.1⟩

/-! ## Exits -/

section

variable {step : Step} {runner : SeatState σ} {attempt : Attempt σ}

theorem liftOnExit_honest (lifting : liftOnExit seat step runner = some attempt) (wire : Wire σ) :
    Honest (attempt wire).1 wire (attempt wire).2 := by
  cases commandIs : step.command <;> rw [liftOnExit, commandIs] at lifting <;>
    simp only [Option.ite_none_right_eq_some, Option.some.injEq, reduceCtorEq] at lifting
  case drag | press | keyDown =>
    rcases lifting with ⟨_, rfl⟩
    exact honest_andThen (honest_seatCall _ _) (honest_seatCall _ _) wire
  case overlayGrab =>
    rcases lifting with ⟨_, rfl⟩
    exact honest_seatCall _ _ wire

/-- What keeps a drag from holding anything but its own button. -/
def Undocumented (command : Command) (entry : Entry) : Prop :=
  ∀ start target code options, command = .drag start target code options →
    entry.state.documentHold = false

/-- An exit with something to lift makes the calls for it, and reports a release. -/
theorem exit_lifts (now : TimePoint)
    (isOpen : OpenEntry step.command (runner.entries step.id.index))
    (scratch : Scratch seat step.command (runner.entries step.id.index))
    (undocumented : Undocumented step.command (runner.entries step.id.index))
    (lifting : liftOnExit seat step runner = some attempt) :
    (exit seat step now runner).1 = .released ∧
      (exit seat step now runner).2.wire = (attempt runner.wire).2 := by
  have released : ∀ lowered : CommandState,
      exitCommand seat (.step .exit step) step.command
        (exitScratch (runner.entries step.id.index)) runner.wire =
          (lowered, (attempt runner.wire).2) →
      holdsAnything (runner.entries step.id.index).state = true →
      holdsAnything lowered = false →
      (exit seat step now runner).1 = .released ∧
        (exit seat step now runner).2.wire = (attempt runner.wire).2 := by
    intro lowered closes held gone
    rw [exit_eq seat now isOpen.used isOpen.entered isOpen.exited closes]
    simp [held, gone, setEntry]
  rcases isOpen with ⟨_, _, _, lone⟩
  rcases scratch with ⟨grabbed, _⟩
  rw [Undocumented] at undocumented
  rw [liftOnExit] at lifting
  generalize runner.entries step.id.index = entry at *
  cases commandIs : step.command <;>
    rw [commandIs] at lifting lone grabbed released undocumented <;>
    simp only [Option.ite_none_right_eq_some, Option.some.injEq, reduceCtorEq] at lifting
  case drag =>
    rcases lifting with ⟨⟨pointer, held⟩, rfl⟩
    have free : entry.state.overlayGrabHeld = false := by
      by_contra held
      rw [not_eq_false] at held
      cases grabbed held
    have lowered := undocumented _ _ _ _ rfl
    apply released
    · rw [exitCommand, if_pos ⟨pointer, by rw [exitScratch]; split <;> exact held⟩]
    · simp [holdsAnything, held]
    · rw [exitScratch]
      split <;> simp [holdsAnything, lowered, free]
  case press code =>
    rcases lifting with ⟨⟨pointer, held, unwinding⟩, rfl⟩
    have lone := (lone _ rfl).1
    apply released
    · rw [exitScratch, if_pos unwinding, exitCommand, if_pos ⟨pointer, held, rfl⟩]
    · simp [holdsAnything, held]
    · simp [holdsAnything, lone.held, lone.overlayGrabHeld Hold.noConfusion]
  case keyDown key =>
    rcases lifting with ⟨⟨keyboard, held, unwinding⟩, rfl⟩
    have lone := (lone _ rfl).1
    apply released
    · rw [exitScratch, if_pos unwinding, exitCommand, if_pos ⟨keyboard, held, rfl⟩]
    · simp [holdsAnything, held]
    · simp [holdsAnything, lone.held, lone.overlayGrabHeld Hold.noConfusion]
  case overlayGrab =>
    rcases lifting with ⟨⟨overlay, held, unwinding⟩, rfl⟩
    have lone := (lone _ rfl).1
    apply released
    · rw [exitScratch, if_pos unwinding, exitCommand, if_pos ⟨overlay, held, rfl⟩]
    · simp [holdsAnything, held]
    · simp [holdsAnything, lone.held, lone.documentHold rfl]

/-- An exit without anything to lift makes no call. -/
theorem exit_silent (now : TimePoint)
    (isOpen : OpenEntry step.command (runner.entries step.id.index))
    (idle : liftOnExit seat step runner = none) :
    (exit seat step now runner).2.wire.log = runner.wire.log := by
  rw [(exit_closed seat now isOpen.used isOpen.entered isOpen.exited).log]
  have told : ∀ hold, holdOf step.command = some hold →
      (exitScratch (runner.entries step.id.index)).interrupted = true →
      (runner.entries step.id.index).lastStatus ≠ .success := by
    intro hold isHold interrupted succeeded
    rw [exitScratch, if_neg (not_not.mpr succeeded), (isOpen.lone hold isHold).2] at interrupted
    cases interrupted
  have flags := exitScratch_flag (runner.entries step.id.index)
  have heldEq : (exitScratch (runner.entries step.id.index)).held =
      (runner.entries step.id.index).state.held := by
    rw [exitScratch]
    split <;> rfl
  rw [liftOnExit] at idle
  generalize exitScratch (runner.entries step.id.index) = scratch at *
  cases commandIs : step.command <;> rw [commandIs] at idle told <;>
    simp only [ite_eq_right_iff, reduceCtorEq, imp_false] at idle
  case drag =>
    rw [exitCommand, heldEq, if_neg idle]
  case press code =>
    rw [exitCommand, if_neg]
    exact fun due => idle ⟨due.1, (flags (.button code)).symm.trans due.2.1, told _ rfl due.2.2⟩
  case keyDown key =>
    rw [exitCommand, if_neg]
    exact fun due => idle ⟨due.1, (flags (.key key)).symm.trans due.2.1, told _ rfl due.2.2⟩
  case overlayGrab =>
    rw [exitCommand, if_neg]
    exact fun due => idle ⟨due.1, (flags .capture).symm.trans due.2.1, told _ rfl due.2.2⟩
  all_goals rfl

end

/-! ## Lifts of closed steps -/

theorem liftDocumentHold_vouched (command : Command) (origin : Origin) (wire : Wire σ) :
    Vouched (liftDocumentHold seat command origin wire).1 wire
      (liftDocumentHold seat command origin wire).2 := by
  cases command with
  | press code =>
    rw [liftDocumentHold]
    split
    · exact (honest_seatCall origin _ wire).vouched.both (honest_seatCall origin _ _).vouched
    · exact vouched_refl _ wire
  | keyDown key =>
    rw [liftDocumentHold]
    split
    · exact (honest_seatCall origin _ wire).vouched
    · exact vouched_refl _ wire
  | _ => exact vouched_refl _ wire

theorem liftCapture_vouched (origin : Origin) (runner : SeatState σ) :
    Vouched (liftCapture seat origin runner).1 runner.wire
      (liftCapture seat origin runner).2.wire := by
  rw [liftCapture]
  split
  · exact (honest_seatCall origin _ _).vouched
  · exact vouched_refl _ _

/-- What is lifted is reported as lifted only if every call of it succeeded. -/
theorem releaseHolds_vouched (step : Step) (runner : SeatState σ) :
    ∃ answer, Vouched answer runner.wire (releaseHolds seat step runner).2.wire ∧
      (answer = true ∨ (releaseHolds seat step runner).1 = .failed) := by
  have untouched : Vouched true runner.wire runner.wire := vouched_refl _ _
  rw [releaseHolds]
  split
  · exact ⟨true, untouched, .inl rfl⟩
  split
  · exact ⟨true, untouched, .inl rfl⟩
  rename_i entry _ _
  dsimp only
  split
  · exact ⟨true, untouched, .inl rfl⟩
  generalize liftedEq : (if (entry.state.documentHold &&
      stillOutstanding step.command runner) = true then
    ((liftDocumentHold seat step.command (Origin.step .reap step) runner.wire).1,
      setEntry { runner with wire := (liftDocumentHold seat step.command
        (Origin.step .reap step) runner.wire).2 } step.id
        { entry with state := { entry.state with documentHold := false } })
    else (true, runner)) = lifted
  have first : Vouched lifted.1 runner.wire lifted.2.wire := by
    rw [← liftedEq]
    split
    · exact liftDocumentHold_vouched _ _ _
    · exact untouched
  rw [forgetHold_wire]
  split
  · refine ⟨_, first.both (liftCapture_vouched _ _), ?_⟩
    split
    · rename_i freed
      exact .inl freed
    · exact .inr rfl
  refine ⟨_, first, ?_⟩
  split
  · rename_i freed
    exact .inl freed
  · exact .inr rfl

end

section

variable {σ : Type} {sequence : Sequence} {seat : Seat σ} {trace : List Event}
  {protocol : Protocol} {before after : SeatState σ} {next : Protocol} {event : Event} {step : Step}
  {start : σ}

/-! ## Any conversation -/

theorem madeIn_of_origin {record : Record} {phase other : Phase}
    (origin : record.origin = some (.step phase step)) :
    record.madeIn other = decide (phase = other) := by
  cases record with
  | call _ _ _ =>
    cases origin
    rfl
  | lifted _ => cases origin

/-- A failing call that lifts what a closed step left down is reported as failed. -/
theorem Answers.log (accounted : Accounted sequence seat trace protocol before)
    (legal : protocol.next event = some next)
    (answers : Answers sequence (seatRunner seat) before event after) :
    ∃ records, after.wire.log = before.wire.log ++ records ∧
      ∀ record ∈ records, record.madeIn .reap = true → record.failed = true →
        ∃ id, event = .releaseHolds id .failed := by
  have elsewhere : ∀ {records : List Record} {phase : Phase} {step : Step},
      (∀ record ∈ records, record.origin = some (.step phase step)) → phase ≠ .reap →
        ∀ record ∈ records, record.madeIn .reap = false := by
    intro records phase step origins notReap record member
    rw [madeIn_of_origin (origins record member), decide_eq_false notReap]
  cases answers.exchange legal with
  | @enter step now statuses =>
    have recorded := enter_recorded seat step now before
    have enters := @enterCommand_enters σ seat step
      { entered := true, started := now, deadline := now } before.wire ⟨rfl, rfl, rfl⟩
    rcases enters.grows with ⟨records, logEq, origins, _⟩
    refine ⟨records ++ completion step.command
      (enterBody seat (.step .enter step) step.command now {} before.wire).1, ?_, ?_⟩
    · rw [recorded.log, ← append_assoc, ← logEq]
      rfl
    intro record member reaped
    rcases mem_append.mp member with isCall | isMark
    · cases (elsewhere origins Phase.noConfusion record isCall).symm.trans reaped
    · rcases completion_mem isMark with ⟨_, rfl, _⟩
      cases reaped
  | @tick step now found idle isOpen =>
    have entry := accounted.entry found isOpen
    have timed := accounted.timed found idle isOpen
    have ticks := tickCommand_ticks seat timed now (before.entries step.id.index).state before.wire
    rcases ticks.grows fun _ => False with ⟨records, logEq, origins, _⟩
    refine ⟨records, ?_, fun record member reaped => ?_⟩
    · rw [tick_eq seat now entry.used entry.entered rfl]
      rw [recordAnswer_log, completion, (timed_facts timed).2]
      simpa using logEq
    · cases (elsewhere origins Phase.noConfusion record member).symm.trans reaped
  | join | jump => exact ⟨[], (append_nil _).symm, by simp⟩
  | @exit step now found isOpen =>
    have entry := accounted.entry found isOpen
    have closed := exit_closed seat now entry.used entry.entered entry.exited
    have closes : Closes seat step (exitScratch (before.entries step.id.index)) before.wire _ :=
      exitCommand_closes seat _ _
    rcases closes.grows fun _ => False with ⟨records, logEq, origins, _⟩
    refine ⟨records, closed.log.trans logEq, fun record member reaped => ?_⟩
    cases (elsewhere origins Phase.noConfusion record member).symm.trans reaped
  | @releaseHolds step =>
    rcases @releaseHolds_vouched σ seat step before with
      ⟨answer, ⟨records, logEq, granted⟩, reported⟩
    refine ⟨records, logEq, fun record member _ failed => ?_⟩
    rcases reported with vouched | isFailed
    · cases (granted vouched record member).symm.trans failed
    · exact ⟨step.id, by rw [← isFailed]⟩

theorem Conversation.reported (built : sequence.Built)
    (conversation : Conversation sequence (seatRunner seat) (SeatState.fresh start) trace
      protocol before) :
    ∀ record ∈ before.wire.log, record.madeIn .reap = true → record.failed = true →
      ∃ id, Event.releaseHolds id .failed ∈ trace := by
  induction conversation with
  | start => exact forall_mem_nil _
  | step conversation legal answers earlier =>
    rcases Answers.log (conversation.accounted built) legal answers with
      ⟨records, logEq, told⟩
    intro record member reaped failed
    rw [logEq] at member
    rcases mem_append.mp member with isOld | isNew
    · rcases earlier record isOld reaped failed with ⟨id, inTrace⟩
      exact ⟨id, mem_append_left _ inTrace⟩
    · rcases told record isNew reaped failed with ⟨id, rfl⟩
      exact ⟨id, mem_append_right _ mem_cons_self⟩

theorem undocumented_enter {now : TimePoint} {start target : Point} {code : UInt8}
    {options : Input.DragOptions} (commandIs : step.command = .drag start target code options) :
    ((enter seat step now before).2.entries step.id.index).state.documentHold = false := by
  rw [(enter_recorded seat step now before).state, commandIs, enterBody, enterCommand, available]
  split
  · rw [enterDrag]
    split
    · rfl
    dsimp only
    generalize waypoints seat start target options = walk
    have begun : Grows (.step .enter step) (fun _ => True) before.wire _ ∧ _ :=
      grows_beginWalk seat { entered := true, started := now, deadline := now } options
        (some start) walk before.wire
    rcases begun.2.2 with ⟨waypoints, deadline, stateEq⟩
    split <;> exact congrArg CommandState.documentHold stateEq
  · rfl

/-- A drag raises no flag of the document, whatever is asked of it. -/
theorem Answers.undocumented (built : sequence.Built)
    (accounted : Accounted sequence seat trace protocol before)
    (legal : protocol.next event = some next)
    (answers : Answers sequence (seatRunner seat) before event after)
    (earlier : ∀ id step, sequence.find id = some step →
      Undocumented step.command (before.entries id.index)) :
    ∀ id step, sequence.find id = some step →
      Undocumented step.command (after.entries id.index) := by
  cases answers.exchange legal with
  | @enter step now statuses found =>
    have recorded := enter_recorded seat step now before
    exact entries_single built found recorded.elsewhere (fun start target code options isDrag =>
      undocumented_enter isDrag) earlier
  | @tick step now found idle isOpen =>
    have entry := accounted.entry found isOpen
    have ticks := tickCommand_ticks seat (accounted.timed found idle isOpen) now
      (before.entries step.id.index).state before.wire
    have entries := recordAnswer_entries seat step (before.entries step.id.index)
      (tickCommand seat (.step .tick step) step.command now
        (before.entries step.id.index).state before.wire) before
    have answered := congrArg Prod.snd (tick_eq seat now entry.used entry.entered rfl)
    dsimp only at answered
    rw [← answered] at entries
    refine entries_single built found ?_ ?_ earlier
    · exact fun index other => by rw [entries, Function.update_of_ne other]
    · intro start target code options isDrag
      rw [entries, Function.update_self]
      exact ticks.documentHold.trans (earlier _ step found start target code options isDrag)
  | join | jump => exact earlier
  | @exit step now found isOpen =>
    have entry := accounted.entry found isOpen
    have closed := exit_closed seat now entry.used entry.entered entry.exited
    refine entries_single built found closed.elsewhere ?_ earlier
    intro start target code options isDrag
    have lowered := earlier _ step found start target code options isDrag
    have scratchLowered : (exitScratch (before.entries step.id.index)).documentHold = false := by
      rw [exitScratch]
      split <;> exact lowered
    rw [closed.state, isDrag, exitCommand]
    split <;> exact scratchLowered
  | @releaseHolds step found =>
    have relieved := accounted.relieved found
    refine entries_single built found relieved.elsewhere ?_ earlier
    intro start target code options isDrag
    have lowered := earlier _ step found start target code options isDrag
    have free : (before.entries step.id.index).state.overlayGrabHeld = false := by
      by_contra held
      rw [not_eq_false] at held
      have grabbed := (accounted.scratch step.id step found).grabbed held
      rw [isDrag] at grabbed
      cases grabbed
    have same : (releaseHolds seat step before).2 = before := by
      rw [releaseHolds]
      split
      · rfl
      rename_i entry known
      rw [findEntry, Option.ite_none_right_eq_some, Option.some.injEq] at known
      rw [← known.2, lowered, free]
      split <;> rfl
    rw [same]
    exact lowered

theorem Conversation.undocumented (built : sequence.Built)
    (conversation : Conversation sequence (seatRunner seat) (SeatState.fresh start) trace
      protocol before) : ∀ id step, sequence.find id = some step →
        Undocumented step.command (before.entries id.index) := by
  induction conversation with
  | start => exact fun _ _ _ _ _ _ _ _ => rfl
  | step conversation legal answers earlier =>
    exact Answers.undocumented built (conversation.accounted built) legal answers earlier

end

/-! ## Reports -/

section

variable {σ : Type} {sequence : Sequence} {steps : List Step} {pacing : PacingOptions}
  {name : String}

/-- Reported releases happened unless an exit is refused.  An exit that answers that it released
what was held has made no failing call if and only if the seat grants what it sends to lift it.
In every run the verdict is the worst report of its trace, and as long as no call of an exit fails
it is a failure once any call that lifts a hold fails. -/
theorem reported_released_iff (accepted : Sequence.build steps pacing name = .ok sequence)
    (seat : Seat σ) (start : σ) :
    (∀ trace protocol runner, Conversation sequence (seatRunner seat) (SeatState.fresh start)
        trace protocol runner →
      ∀ step ∈ sequence.steps, protocol.isOpen step.id = true → ∀ now,
        let exited := exit seat step now runner
        (exited.1 = .released →
            ∀ record ∈ exited.2.wire.log.drop runner.wire.log.length, record.failed = false) ↔
          ∀ attempt, liftOnExit seat step runner = some attempt → (attempt runner.wire).1 = true) ∧
      ∀ controls,
        let world := (World.initial (SeatState.fresh start)).run sequence (seatRunner seat) controls
        world.player.neutralization = (tallyOf world.trace).verdict ∧
          ((∀ record ∈ world.runner.wire.log, record.madeIn .exit = true → record.failed = false) →
            ∀ record ∈ world.runner.wire.log,
              record.madeIn .exit = true ∨ record.madeIn .reap = true →
              record.failed = true → world.player.neutralization = .failed) := by
  have built := Sequence.built_of_build accepted
  constructor
  · intro trace protocol runner conversation step member isOpen now
    have accounted := conversation.accounted built
    have found := built.find_of_mem member
    have entry := accounted.entry found isOpen
    dsimp only
    cases lifting : liftOnExit seat step runner with
    | none =>
      rw [exit_silent now entry lifting, drop_length]
      simp
    | some attempt =>
      rcases exit_lifts now entry (accounted.scratch step.id step found)
        (conversation.undocumented built step.id step found) lifting with ⟨released, wireEq⟩
      rcases liftOnExit_honest lifting runner.wire with ⟨records, logEq, granted⟩
      rw [released, wireEq, logEq, drop_left, granted]
      simp
  · intro controls world
    have sound : RunSound sequence (seatRunner seat) (SeatState.fresh start) world :=
      World.reachable_sound accepted _ controls
    have told : world.Told := World.run_told built (RunSound.initial _) rfl controls
    have verdict : world.player.neutralization = (tallyOf world.trace).verdict :=
      (congrArg Tally.verdict told).symm
    refine ⟨verdict, fun granted record member made failed => ?_⟩
    rcases made with inExit | inReap
    · cases (granted record member inExit).symm.trans failed
    rcases sound.balanced.ledger.conversation with ⟨protocol, conversation, _, _⟩
    rcases conversation.reported built record member inReap failed with ⟨id, inTrace⟩
    rw [verdict]
    exact verdict_of_failed inTrace

end

/-- A run that is interrupted while its button is down, on a seat that refuses to let it go. -/
theorem reported_released_pressAndWait : ∃ sequence,
    Sequence.build pressAndWait {} "seat" = .ok sequence ∧
      ((World.initial (SeatState.fresh ())).run sequence
        (seatRunner (echoSeat fun request => decide (request ≠ .button 1 false)))
        [.play, .pump 0, .interrupt]).player.neutralization = .failed := by
  rcases exists_built pressAndWait
    (fun sequence =>
      let log := ((World.initial (SeatState.fresh ())).run sequence
        (seatRunner (echoSeat fun request => decide (request ≠ .button 1 false)))
        [.play, .pump 0, .interrupt]).runner.wire.log
      log.all (fun record => !record.madeIn .exit || !record.failed) &&
        log.any fun record => record.madeIn .reap && record.failed)
    (by decide +kernel) with ⟨sequence, accepted, checked⟩
  rw [and_eq_true_iff, all_eq_true, any_eq_true] at checked
  rcases checked with ⟨granted, record, member, refused⟩
  rw [and_eq_true_iff] at refused
  refine ⟨sequence, accepted, ?_⟩
  apply ((reported_released_iff accepted _ ()).2 [.play, .pump 0, .interrupt]).2
  · intro other inLog inExit
    simpa [inExit] using granted other inLog
  · exact member
  · exact .inr refused.1
  · exact refused.2

/-- A press that the seat may have committed although it refused it is answered with a release.
The seat refuses that as well, and the verdict is that what was held was released. -/
theorem refused_release_reported : ∃ sequence,
    Sequence.build [{ command := .press 1 }] {} "seat" = .ok sequence ∧
      let world := (World.initial (SeatState.fresh ())).run sequence
        (seatRunner (echoSeat fun _ => false)) [.play, .pump 0]
      world.player.neutralization = .released ∧
        ∃ record ∈ world.runner.wire.log, record.madeIn .exit = true ∧
          record.lifts = some (.button 1) ∧ record.failed = true := by
  rcases exists_built [{ command := .press 1 }]
    (fun sequence =>
      let world := (World.initial (SeatState.fresh ())).run sequence
        (seatRunner (echoSeat fun _ => false)) [.play, .pump 0]
      decide (world.player.neutralization = .released) &&
        world.runner.wire.log.any fun record =>
          record.madeIn .exit && (decide (record.lifts = some (.button 1)) && record.failed))
    (by decide +kernel) with ⟨sequence, accepted, checked⟩
  rw [and_eq_true_iff, decide_eq_true_eq, any_eq_true] at checked
  rcases checked with ⟨verdict, record, member, refused⟩
  rw [and_eq_true_iff, and_eq_true_iff, decide_eq_true_eq] at refused
  exact ⟨sequence, accepted, verdict, record, member, refused⟩

end Grab.Kernel
