import Grab.Sequence.Seat.Commands

/-!
# What each call of the seat runner does to the book

One specification per call of the runner: which scratch it writes, what it adds
to the log and how the book of holds moves with them.  Nothing after this module
opens the bodies of the runner again.
-/

namespace Grab.Kernel

open Grab.Sequence List Function Option

/-- Is a hold in the runner's book? -/
def Outstanding {σ : Type} (hold : Hold) (runner : SeatState σ) : Prop :=
  match hold with
  | .button code => code ∈ runner.buttons
  | .key name => name ∈ runner.keys
  | .capture => runner.captureHeld = true

/-- A release call for a hold made by the unwind of a step that took it, or by
the backstop after the run. -/
def Record.Unwinds (hold : Hold) (record : Record) : Prop :=
  record.lifts = some hold ∧
    (record.origin = some .outstanding ∨
      ∃ phase step, record.origin = some (.step phase step) ∧
        (phase = .exit ∨ phase = .reap) ∧ holdOf step.command = some hold)

namespace SeatRunner

variable {σ : Type}

/-! ## The book under bookkeeping -/

section

variable (command : Command) (runner : SeatState σ)

@[simp]
theorem rememberHold_entries : (rememberHold command runner).entries = runner.entries := by
  unfold rememberHold
  split <;> first | rfl | (split <;> rfl)

@[simp]
theorem forgetHold_entries : (forgetHold command runner).entries = runner.entries := by
  unfold forgetHold
  split <;> rfl

@[simp]
theorem noteCompletion_entries : (noteCompletion command runner).entries = runner.entries := by
  unfold noteCompletion
  split <;> rfl

theorem noteCompletion_log : (noteCompletion command runner).wire.log =
      runner.wire.log ++ ((liftedBy command).map Record.lifted).toList := by
  unfold noteCompletion
  split
  · rename_i none
    simp [none]
  · rename_i hold isLift
    simp [isLift]

/-- A completed step keeps what it lifts out of the book and adds the button or
the key it pressed. -/
theorem outstanding_rememberHold (hold : Hold) :
    Outstanding hold (rememberHold command runner) ↔
      Outstanding hold runner ∧ liftedBy command ≠ some hold ∨
        holdOf command = some hold ∧ hold ≠ .capture := by
  cases command with
  | press code =>
    by_cases present : code ∈ runner.buttons <;> cases hold <;>
      simp [rememberHold, Outstanding, liftedBy, holdOf, present]
    · rintro rfl
      exact present
    · simp only [eq_comm]
  | keyDown key =>
    by_cases present : key ∈ runner.keys <;> cases hold <;>
      simp [rememberHold, Outstanding, liftedBy, holdOf, present]
    · rintro rfl
      exact present
    · simp only [eq_comm]
  | release code | keyUp key =>
    cases hold <;> simp [rememberHold, Outstanding, liftedBy, holdOf]
    exact fun _ => not_congr eq_comm
  | _ => cases hold <;> simp [rememberHold, Outstanding, liftedBy, holdOf]

theorem outstanding_forgetHold (hold : Hold) :
    Outstanding hold (forgetHold command runner) ↔
      Outstanding hold runner ∧ holdOf command ≠ some hold := by
  cases command with
  | press code | keyDown key =>
    cases hold <;> simp [forgetHold, Outstanding, holdOf]
    exact fun _ => not_congr eq_comm
  | _ => cases hold <;> simp [forgetHold, Outstanding, holdOf]

theorem outstanding_noteCompletion (hold : Hold) :
    Outstanding hold (noteCompletion command runner) ↔ Outstanding hold runner := by
  unfold noteCompletion
  split
  · rfl
  · cases hold <;> rfl

end

/-! ## Recording an answer -/

/-- What a call leaves in the log once its step has answered. -/
def completion (command : Command) (status : Status) : List Record :=
  if status = .success then ((liftedBy command).map Record.lifted).toList else []

variable {command : Command} {hold : Hold} {state : CommandState} {first last : Wire σ}
  {record : Record} {status : Status}

theorem completion_mem (member : record ∈ completion command status) :
    ∃ hold, record = .lifted hold ∧ status = .success ∧ liftedBy command = some hold := by
  unfold completion at member
  split at member
  · rename_i succeeded
    cases isLift : liftedBy command with
    | none => simp [isLift] at member
    | some hold =>
      simp only [isLift, map_some, toList_some, mem_singleton] at member
      exact ⟨hold, member, succeeded, rfl⟩
  · cases member

theorem completion_eq_nil (noLift : liftedBy command = none) (status : Status) :
    completion command status = [] := by
  simp [completion, noLift]

theorem pendingIn_completion (hold : Hold) (log : List Record) (command : Command)
    (status : Status) : pendingIn hold (log ++ completion command status) = pendingIn hold log := by
  rw [pendingIn_append]
  apply pendingFrom_quiet
  intro record member
  obtain ⟨_, rfl, _⟩ := completion_mem member
  simp [Record.takes, Record.lifts]

theorem retiredIn_completion {log : List Record}
    (retired : retiredIn hold (log ++ completion command status) = true) :
    status = .success ∧ liftedBy command = some hold ∨ retiredIn hold log = true := by
  unfold completion at retired
  split at retired
  · rename_i succeeded
    cases isLift : liftedBy command with
    | none => exact .inr (by simpa [isLift] using retired)
    | some other =>
      by_cases same : other = hold
      · exact .inl ⟨succeeded, congrArg some same⟩
      · right
        simpa [isLift, retiredIn_append, trackRetired, same, Record.takes] using retired
  · exact .inr (by simpa using retired)

variable (seat : Seat σ) {step : Step} {before after : SeatState σ} {origin : Origin}
  {answer : Answer σ}

section

variable (step) (entry : Entry) (answer : Answer σ) (runner : SeatState σ)

theorem recordAnswer_entries : (recordAnswer seat step entry answer runner).entries =
      Function.update runner.entries step.id.index
        { entry with
          state := answer.2.1
          lastStatus := answer.1
          error := if answer.1 = .failure then classify seat step answer.2.1
            else entry.error } := by
  rw [recordAnswer]
  split
  · rw [rememberHold_entries, noteCompletion_entries]
    rfl
  · rfl

theorem recordAnswer_log : (recordAnswer seat step entry answer runner).wire.log =
      answer.2.2.log ++ completion step.command answer.1 := by
  rw [recordAnswer, completion]
  split
  · rw [rememberHold_wire, noteCompletion_log]
    rfl
  · exact (append_nil _).symm

theorem outstanding_recordAnswer (hold : Hold) :
    Outstanding hold (recordAnswer seat step entry answer runner) ↔
      Outstanding hold runner ∧ ¬(answer.1 = .success ∧ liftedBy step.command = some hold) ∨
        answer.1 = .success ∧ holdOf step.command = some hold ∧ hold ≠ .capture := by
  have same : ∀ (entries : Nat → Entry) (wire : Wire σ),
      Outstanding hold { runner with entries := entries, wire := wire } ↔
        Outstanding hold runner := by
    intro entries wire
    cases hold <;> rfl
  rw [recordAnswer]
  split
  · rename_i succeeded
    rw [outstanding_rememberHold, outstanding_noteCompletion]
    simp only [setEntry, same, succeeded, true_and]
  · rename_i failed
    simp only [setEntry, same, failed, false_and, not_false_eq_true, and_true, or_false]

end

/-! ## Entering -/

/-- The flags a scratch may carry for a hold: none but the hold's own. -/
structure Lone (hold : Hold) (state : CommandState) : Prop where
  held : state.held = false
  documentHold : hold = .capture → state.documentHold = false
  overlayGrabHeld : hold ≠ .capture → state.overlayGrabHeld = false

theorem Lone.holdsAnything (lone : Lone hold state) : holdsAnything state = state.flag hold := by
  cases hold with
  | capture =>
    simp [SeatRunner.holdsAnything, CommandState.flag, lone.held, lone.documentHold rfl]
  | button code | key name =>
    simp [SeatRunner.holdsAnything, CommandState.flag, lone.held,
      lone.overlayGrabHeld Hold.noConfusion]

/-- What entering a step does. -/
structure Entered (step : Step) (before after : SeatState σ) (status : Status) : Prop where
  elsewhere : ∀ index, index ≠ step.id.index → after.entries index = before.entries index
  used : (after.entries step.id.index).used = true
  exited : (after.entries step.id.index).exited = false
  entered : (after.entries step.id.index).state.entered = true
  lastStatus : (after.entries step.id.index).lastStatus = status
  lone : ∀ hold, holdOf step.command = some hold →
    Lone hold (after.entries step.id.index).state ∧
      (after.entries step.id.index).state.interrupted = false
  waiting : status = .running → isTimed step.command = true
  grabbed : (after.entries step.id.index).state.overlayGrabHeld = true →
    holdOf step.command = some .capture
  capable : ∀ hold, entryHolds step.command (after.entries step.id.index).state hold →
    capabilityAvailable seat (kindOf step.command) = true
  raised : ∀ hold, holdOf step.command = some hold →
    capabilityAvailable seat (kindOf step.command) = true →
    (after.entries step.id.index).state.flag hold = true
  log : ∃ records, after.wire.log = before.wire.log ++ records ∧
    ∀ record ∈ records, ∀ hold, ¬record.Unwinds hold
  gains : ∀ hold, Outstanding hold after →
    holdOf step.command = some hold ∧ (after.entries step.id.index).state.flag hold = true ∨
      Outstanding hold before ∧ ¬(status = .success ∧ liftedBy step.command = some hold)
  keeps : ∀ hold, Outstanding hold before →
    Outstanding hold after ∨ pendingIn hold after.wire.log = false
  remembers : status = .success → ∀ hold, holdOf step.command = some hold → Outstanding hold after
  pending : Clean after.wire.log → ∀ hold, pendingIn hold after.wire.log = true →
    pendingIn hold before.wire.log = true ∨
      entryHolds step.command (after.entries step.id.index).state hold
  retired : ∀ hold, retiredIn hold after.wire.log = true →
    status = .success ∧ liftedBy step.command = some hold ∨
      retiredIn hold before.wire.log = true ∧
        ¬(holdOf step.command = some hold ∧ (after.entries step.id.index).state.flag hold = true)

/-- Entering a step that keeps a hold raises its flag and no other. -/
theorem enterCommand_holder (wire : Wire σ) (idle : state.Idle)
    (isHold : holdOf step.command = some hold) :
    let entered := (enterCommand seat (.step .enter step) step.command state wire).2.1
    (capabilityAvailable seat (kindOf step.command) = true → entered.flag hold = true) ∧
      Lone hold entered ∧ entered.interrupted = state.interrupted := by
  have lone : Lone hold state :=
    ⟨idle.held, fun _ => idle.documentHold, fun _ => idle.overlayGrabHeld⟩
  cases commandIs : step.command <;> rw [commandIs] at isHold <;> cases isHold <;>
    simp only [enterCommand, available, kindOf, capabilityAvailable] <;> split
  all_goals first
    | exact ⟨fun _ => rfl, ⟨lone.held, by simp [settled, idle.documentHold],
        by simp [settled, idle.overlayGrabHeld]⟩, rfl⟩
    | exact ⟨fun capable => absurd capable ‹_›, lone, rfl⟩

/-- Exiting a step that keeps a hold touches no other flag. -/
theorem exitCommand_lone (origin : Origin) (command : Command) (wire : Wire σ)
    (isHold : holdOf command = some hold) (lone : Lone hold state) :
    Lone hold (exitCommand seat origin command state wire).1 := by
  cases command <;> cases isHold <;> simp only [exitCommand] <;> split
  all_goals first
    | exact lone
    | exact ⟨lone.held, fun isCapture => by first | rfl | exact lone.documentHold isCapture,
        fun notCapture => by first | rfl | exact lone.overlayGrabHeld notCapture⟩

/-- How the answer of a command ends up in the runner's state. -/
structure Recorded (step : Step) (answer : Answer σ) (before after : SeatState σ) : Prop where
  elsewhere : ∀ index, index ≠ step.id.index → after.entries index = before.entries index
  used : (after.entries step.id.index).used = true
  exited : (after.entries step.id.index).exited = false
  state : (after.entries step.id.index).state = answer.2.1
  lastStatus : (after.entries step.id.index).lastStatus = answer.1
  log : after.wire.log = answer.2.2.log ++ completion step.command answer.1
  book : ∀ hold, Outstanding hold after ↔
    (Outstanding hold before ∧ ¬(answer.1 = .success ∧ liftedBy step.command = some hold) ∨
      answer.1 = .success ∧ holdOf step.command = some hold ∧ hold ≠ .capture) ∨
      hold = .capture ∧ answer.2.1.overlayGrabHeld = true

theorem enter_recorded (step : Step) (now : TimePoint) (before : SeatState σ) :
    Recorded step (enterBody seat (.step .enter step) step.command now {} before.wire) before
      (enter seat step now before).2 := by
  generalize answerEq : enterBody seat (.step .enter step) step.command now {} before.wire = answer
  generalize entryEq : ({ before.entries step.id.index with
    state := {}, used := true, exited := false } : Entry) = entry
  have enterEq : (enter seat step now before).2 =
      if answer.2.1.overlayGrabHeld then
        { recordAnswer seat step entry answer before with captureHeld := true }
      else recordAnswer seat step entry answer before := by
    rw [← answerEq, ← entryEq]
    rfl
  have entries : (enter seat step now before).2.entries =
      (recordAnswer seat step entry answer before).entries := by
    rw [enterEq]
    split <;> rfl
  rw [recordAnswer_entries] at entries
  refine ⟨?_, ?_, ?_, ?_, ?_, ?_, ?_⟩
  · intro index other
    rw [entries, update_of_ne other]
  · rw [entries, update_self, ← entryEq]
  · rw [entries, update_self, ← entryEq]
  · rw [entries, update_self]
  · rw [entries, update_self]
  · rw [← recordAnswer_log seat step entry answer before, enterEq]
    split <;> rfl
  intro hold
  rw [← outstanding_recordAnswer seat step entry answer before, enterEq]
  split
  · rename_i grabbed
    cases hold <;> simp [Outstanding, grabbed]
  · rename_i notGrabbed
    cases hold <;> simp [Outstanding, notGrabbed]

/-- No record of an entry or a tick is an unwind. -/
theorem not_unwinds_of_origin {phase : Phase} (origin : record.origin = some (.step phase step))
    (forward : phase = .enter ∨ phase = .tick) (hold : Hold) : ¬record.Unwinds hold := by
  rintro ⟨_, outstanding | ⟨other, _, isStep, backward, _⟩⟩
  · rw [origin] at outstanding
    cases outstanding
  rw [origin] at isStep
  cases isStep
  rcases forward with rfl | rfl <;> rcases backward with impossible | impossible <;>
    cases impossible

theorem not_unwinds_of_completion (member : record ∈ completion command status) (hold : Hold) :
    ¬record.Unwinds hold := by
  obtain ⟨other, rfl, _⟩ := completion_mem member
  rintro ⟨impossible, _⟩
  cases impossible

theorem entered_of_recorded (isEntered : state.entered = true)
    (enters : Enters seat step state before.wire answer)
    (holder : ∀ hold, holdOf step.command = some hold →
      (capabilityAvailable seat (kindOf step.command) = true → answer.2.1.flag hold = true) ∧
        Lone hold answer.2.1 ∧ answer.2.1.interrupted = false)
    (recorded : Recorded step answer before after) : Entered seat step before after answer.1 := by
  obtain ⟨records, logEq, origins, grown⟩ := enters.grows
  have flagged : ∀ hold, holdOf step.command = some hold → answer.1 = .success →
      answer.2.1.flag hold = true := enters.flagged
  constructor
  case elsewhere => exact recorded.elsewhere
  case used => exact recorded.used
  case exited => exact recorded.exited
  case entered => rw [recorded.state, enters.entered, isEntered]
  case lastStatus => exact recorded.lastStatus
  case lone =>
    rw [recorded.state]
    exact fun hold isHold => (holder hold isHold).2
  case waiting => exact enters.waiting
  case grabbed =>
    rw [recorded.state]
    exact enters.grabbed
  case capable =>
    rw [recorded.state]
    exact enters.capable
  case raised =>
    rw [recorded.state]
    exact fun hold isHold => (holder hold isHold).1
  case log =>
    refine ⟨records ++ completion step.command answer.1, ?_, ?_⟩
    · rw [recorded.log, logEq, append_assoc]
    intro record member hold
    rcases mem_append.mp member with isCall | isMark
    · exact not_unwinds_of_origin (origins record isCall) (.inl rfl) hold
    · exact not_unwinds_of_completion isMark hold
  case gains =>
    intro hold outstanding
    rw [recorded.state]
    rcases (recorded.book hold).mp outstanding with (old | ⟨succeeded, isHold, _⟩) | grab
    · exact .inr old
    · exact .inl ⟨isHold, flagged hold isHold succeeded⟩
    · obtain ⟨rfl, grabbed⟩ := grab
      exact .inl ⟨enters.grabbed grabbed, grabbed⟩
  case keeps =>
    intro hold outstanding
    by_cases lifts : answer.1 = .success ∧ liftedBy step.command = some hold
    · right
      rw [recorded.log, pendingIn_completion]
      exact enters.completes hold lifts.2 lifts.1
    · exact .inl ((recorded.book hold).mpr (.inl (.inl ⟨outstanding, lifts⟩)))
  case remembers =>
    intro succeeded hold isHold
    apply (recorded.book hold).mpr
    by_cases isCapture : hold = .capture
    · subst isCapture
      exact .inr ⟨rfl, flagged _ isHold succeeded⟩
    · exact .inl (.inr ⟨succeeded, isHold, isCapture⟩)
  case pending =>
    intro clean hold isPending
    rw [recorded.log, logEq] at clean
    rw [recorded.log, pendingIn_completion, logEq, pendingIn_append] at isPending
    rw [recorded.state]
    rcases pendingFrom_cases isPending with old | new
    · exact .inl old
    · exact .inr (grown clean.append_left.append_right hold new)
  case retired =>
    intro hold retired
    rw [recorded.log] at retired
    rcases retiredIn_completion retired with lifts | earlier
    · exact .inl lifts
    right
    rw [logEq] at earlier
    have calls : ∀ record ∈ records, record.origin ≠ none := by
      intro record member
      rw [origins record member]
      exact some_ne_none _
    obtain ⟨retiredBefore, untaken⟩ := retiredIn_calls calls earlier
    refine ⟨retiredBefore, ?_⟩
    rintro ⟨isHold, flag⟩
    rw [recorded.state] at flag
    obtain ⟨pressed, pressedEq, record, member, taken⟩ := enters.presses hold isHold flag
    rw [logEq] at pressedEq
    rw [← append_cancel_left pressedEq] at member
    exact untaken record member taken

/-- The scratch and the book after an entry. -/
theorem enter_entered (step : Step) (now : TimePoint) (before : SeatState σ) :
    Entered seat step before (enter seat step now before).2 (enter seat step now before).1 := by
  have idle : CommandState.Idle
      { entered := true, started := now, deadline := now, emitted := 0, worstOvershoot := 0,
        waypoints := [] } :=
    ⟨rfl, rfl, rfl⟩
  apply entered_of_recorded seat rfl (enterCommand_enters seat step before.wire idle)
  · exact fun hold isHold => enterCommand_holder seat before.wire idle isHold
  · exact enter_recorded seat step now before

/-! ## Ticking -/

/-- What ticking a step that runs on does. -/
structure Ticked (step : Step) (before after : SeatState σ) (status : Status) : Prop where
  elsewhere : ∀ index, index ≠ step.id.index → after.entries index = before.entries index
  used : (after.entries step.id.index).used = true
  exited : (after.entries step.id.index).exited = (before.entries step.id.index).exited
  entered : (after.entries step.id.index).state.entered = true
  lastStatus : (after.entries step.id.index).lastStatus = status
  overlayGrabHeld : (after.entries step.id.index).state.overlayGrabHeld =
    (before.entries step.id.index).state.overlayGrabHeld
  only : ∀ hold, entryHolds step.command (after.entries step.id.index).state hold →
    entryHolds step.command (before.entries step.id.index).state hold
  log : ∃ records, after.wire.log = before.wire.log ++ records ∧
    ∀ record ∈ records, ∀ hold, ¬record.Unwinds hold
  book : ∀ hold, Outstanding hold after ↔ Outstanding hold before
  pending : Clean after.wire.log → ∀ hold, pendingIn hold after.wire.log = true →
    pendingIn hold before.wire.log = true ∧
      (entryHolds step.command (before.entries step.id.index).state hold →
        entryHolds step.command (after.entries step.id.index).state hold)
  retired : ∀ hold, retiredIn hold after.wire.log = true → retiredIn hold before.wire.log = true

theorem timed_facts (timed : isTimed command = true) :
    holdOf command = none ∧ liftedBy command = none := by
  cases command <;> first | exact ⟨rfl, rfl⟩ | cases timed

variable (grows : ∀ holds, Grows origin holds first last)

include grows

/-- Records that press nothing: what is pending after them was pending before. -/
theorem pending_of_grows (clean : Clean last.log) (isPending : pendingIn hold last.log = true) :
    pendingIn hold first.log = true := by
  obtain ⟨records, logEq, _, grown⟩ := grows fun _ => False
  rw [logEq] at clean
  rw [logEq, pendingIn_append] at isPending
  rcases pendingFrom_cases isPending with old | new
  · exact old
  · exact (grown clean.append_right hold new).elim

/-- Calls alone retire nothing. -/
theorem retired_of_grows (retired : retiredIn hold last.log = true) :
    retiredIn hold first.log = true := by
  obtain ⟨records, logEq, origins, _⟩ := grows fun _ => False
  rw [logEq] at retired
  refine (retiredIn_calls ?_ retired).1
  intro record member
  rw [origins record member]
  exact some_ne_none _

omit grows

variable (now : TimePoint) (entry : Entry)

/-- The tick of an entered step is the tick of its command. -/
theorem tick_eq (used : (before.entries step.id.index).used = true)
    (isEntered : (before.entries step.id.index).state.entered = true)
    (answered : tickCommand seat (.step .tick step) step.command now
      (before.entries step.id.index).state before.wire = answer) :
    tick seat step now before =
      (answer.1, recordAnswer seat step (before.entries step.id.index) answer before) := by
  have found : findEntry before step.id = some (before.entries step.id.index) := if_pos used
  rw [tick, found]
  dsimp only
  rw [tickBody, if_neg (by simp [isEntered]), answered]

theorem tick_ticked (timed : isTimed step.command = true) (now : TimePoint)
    (used : (before.entries step.id.index).used = true)
    (isEntered : (before.entries step.id.index).state.entered = true) :
    Ticked step before (tick seat step now before).2 (tick seat step now before).1 := by
  rcases timed_facts timed with ⟨noHold, noLift⟩
  have ticks := tickCommand_ticks seat timed now (before.entries step.id.index).state before.wire
  generalize answerEq : tickCommand seat (.step .tick step) step.command now
    (before.entries step.id.index).state before.wire = answer at ticks
  rw [tick_eq seat now used isEntered answerEq]
  have entries := recordAnswer_entries seat step (before.entries step.id.index) answer before
  have log := recordAnswer_log seat step (before.entries step.id.index) answer before
  have unmarked : completion step.command answer.1 = [] := by
    rw [completion, noLift]
    exact ite_self _
  rw [unmarked, append_nil] at log
  have book := outstanding_recordAnswer seat step (before.entries step.id.index) answer before
  generalize recordAnswer seat step (before.entries step.id.index) answer before = after at *
  constructor
  case elsewhere =>
    intro index other
    rw [entries, update_of_ne other]
  case used => rw [entries, update_self, used]
  case exited => rw [entries, update_self]
  case entered => rw [entries, update_self, ticks.entered, isEntered]
  case lastStatus => rw [entries, update_self]
  case overlayGrabHeld => rw [entries, update_self, ticks.overlayGrabHeld]
  case only =>
    rw [entries, update_self]
    exact ticks.only
  case log =>
    obtain ⟨records, logEq, origins, _⟩ := ticks.grows fun _ => False
    refine ⟨records, log.trans logEq, ?_⟩
    exact fun record member => not_unwinds_of_origin (origins record member) (.inr rfl)
  case book =>
    intro hold
    rw [book, noHold, noLift]
    simp
  case pending =>
    intro clean hold isPending
    rw [log] at clean isPending
    refine ⟨pending_of_grows ticks.grows clean isPending, ?_⟩
    intro holds
    rw [entries, update_self]
    rcases ticks.keeps hold holds with still | lifted
    · exact still
    · cases lifted.symm.trans isPending
  case retired =>
    intro hold retired
    rw [log] at retired
    exact retired_of_grows ticks.grows retired

/-! ## Exiting -/

/-- What exiting an open step does. -/
structure Exited (step : Step) (before after : SeatState σ) : Prop where
  elsewhere : ∀ index, index ≠ step.id.index → after.entries index = before.entries index
  used : (after.entries step.id.index).used = true
  entered : (after.entries step.id.index).state.entered = true
  grabs : (after.entries step.id.index).state.overlayGrabHeld = true →
    (before.entries step.id.index).state.overlayGrabHeld = true
  only : ∀ hold, entryHolds step.command (after.entries step.id.index).state hold →
    entryHolds step.command (before.entries step.id.index).state hold
  log : ∃ records, after.wire.log = before.wire.log ++ records ∧
    ∀ record ∈ records, record.origin ≠ none ∧ ∀ hold, record.Unwinds hold →
      (before.entries step.id.index).state.flag hold = true ∧
        (before.entries step.id.index).lastStatus ≠ .success ∧
        holdOf step.command = some hold
  shrinks : ∀ hold, Outstanding hold after → Outstanding hold before
  owned : ∀ hold, Outstanding hold after → holdOf step.command = some hold →
    (before.entries step.id.index).state.flag hold = true →
    (after.entries step.id.index).state.flag hold = true
  pending : Clean after.wire.log → ∀ hold, pendingIn hold after.wire.log = true →
    pendingIn hold before.wire.log = true ∧
      (Outstanding hold before → Outstanding hold after) ∧
      (entryHolds step.command (before.entries step.id.index).state hold →
        ¬((before.entries step.id.index).lastStatus ≠ .success ∨ isTimed step.command = true))
  retired : ∀ hold, retiredIn hold after.wire.log = true → retiredIn hold before.wire.log = true

/-- The scratch an exit runs on: marked as interrupted unless the step succeeded. -/
def exitScratch (entry : Entry) : CommandState :=
  if entry.lastStatus ≠ .success then { entry.state with interrupted := true } else entry.state

@[simp]
theorem exitScratch_entered : (exitScratch entry).entered = entry.state.entered := by
  rw [exitScratch]
  split <;> rfl

@[simp]
theorem exitScratch_overlayGrabHeld :
    (exitScratch entry).overlayGrabHeld = entry.state.overlayGrabHeld := by
  rw [exitScratch]
  split <;> rfl

@[simp]
theorem exitScratch_flag (hold : Hold) : (exitScratch entry).flag hold = entry.state.flag hold := by
  rw [exitScratch]
  split <;> cases hold <;> rfl

@[simp]
theorem exitScratch_holdsAnything :
    holdsAnything (exitScratch entry) = holdsAnything entry.state := by
  rw [exitScratch]
  split <;> rfl

theorem exitScratch_entryHolds (command : Command) (hold : Hold) :
    entryHolds command (exitScratch entry) hold ↔ entryHolds command entry.state hold := by
  rw [exitScratch]
  split
  · cases command <;> cases hold <;> rfl
  · rfl

theorem exitScratch_lone {entry : Entry} (lone : Lone hold entry.state) :
    Lone hold (exitScratch entry) := by
  rw [exitScratch]
  split
  · exact ⟨lone.held, lone.documentHold, lone.overlayGrabHeld⟩
  · exact lone

theorem interrupted_exitScratch :
    entry.lastStatus ≠ .success → (exitScratch entry).interrupted = true := by
  intro failed
  rw [exitScratch, if_pos failed]

/-- An exit in terms of what the body of the command did. -/
structure Closed (step : Step) (closed : CommandState × Wire σ) (before after : SeatState σ) :
    Prop where
  elsewhere : ∀ index, index ≠ step.id.index → after.entries index = before.entries index
  used : (after.entries step.id.index).used = (before.entries step.id.index).used
  state : (after.entries step.id.index).state = closed.1
  log : after.wire.log = closed.2.log
  book : ∀ hold, Outstanding hold after ↔ Outstanding hold before ∧
    ¬(holdOf step.command = some hold ∧
      holdsAnything (before.entries step.id.index).state = true ∧
      holdsAnything closed.1 = false)

variable (used : (before.entries step.id.index).used = true)

include used

variable (isEntered : (before.entries step.id.index).state.entered = true)

include isEntered

variable (isOpen : (before.entries step.id.index).exited = false)

include isOpen

/-- The exit of an open step is the exit of its command. -/
theorem exit_eq {closed : CommandState × Wire σ}
    (closes : exitCommand seat (.step .exit step) step.command
      (exitScratch (before.entries step.id.index)) before.wire = closed) :
    exit seat step now before =
      let runner := setEntry { before with wire := closed.2 } step.id
        { before.entries step.id.index with state := closed.1, exited := true }
      if holdsAnything (before.entries step.id.index).state = false then (.nothingHeld, runner)
      else if holdsAnything closed.1 then (.notAttempted, runner)
      else (.released, forgetHold step.command runner) := by
  have found : findEntry before step.id = some (before.entries step.id.index) := if_pos used
  have bodyEq : (if (before.entries step.id.index).lastStatus ≠ .success then
        interruptBody seat (.step .exit step) step.command
          (before.entries step.id.index).state before.wire
      else exitBody seat (.step .exit step) step.command
        (before.entries step.id.index).state before.wire) = closed := by
    rw [← closes, exitScratch]
    split <;> simp [interruptBody, exitBody, isEntered]
  rw [exit, found]
  dsimp only
  rw [if_neg (by simp [isEntered, isOpen]), bodyEq]

theorem exit_closed :
    Closed step (exitCommand seat (.step .exit step) step.command
      (exitScratch (before.entries step.id.index)) before.wire) before
      (exit seat step now before).2 := by
  rw [exit_eq seat now used isEntered isOpen rfl]
  generalize exitCommand seat (.step .exit step) step.command
    (exitScratch (before.entries step.id.index)) before.wire = closed
  have same : ∀ hold (entries : Nat → Entry) (wire : Wire σ),
      Outstanding hold { before with entries := entries, wire := wire } ↔
        Outstanding hold before := by
    intro hold entries wire
    cases hold <;> rfl
  split
  · rename_i nothing
    refine ⟨fun index other => update_of_ne other _ _, ?_, ?_, rfl, ?_⟩
    · simp [setEntry]
    · simp [setEntry]
    · simp [setEntry, same, nothing]
  split
  · rename_i something
    refine ⟨fun index other => update_of_ne other _ _, ?_, ?_, rfl, ?_⟩
    · simp [setEntry]
    · simp [setEntry]
    · simp [setEntry, same, something]
  rename_i held nothing
  refine ⟨?_, ?_, ?_, ?_, ?_⟩
  · intro index other
    rw [forgetHold_entries]
    exact update_of_ne other _ _
  · simp [setEntry]
  · simp [setEntry]
  · rw [forgetHold_wire]
    rfl
  · intro hold
    rw [outstanding_forgetHold]
    simp [setEntry, same, held, nothing]

theorem exit_exited (lone : ∀ hold, holdOf step.command = some hold →
      Lone hold (before.entries step.id.index).state ∧
        (before.entries step.id.index).state.interrupted = false)
    (capable : ∀ hold, entryHolds step.command (before.entries step.id.index).state hold →
      capabilityAvailable seat (kindOf step.command) = true) :
    Exited step before (exit seat step now before).2 := by
  have shape := exit_closed seat now used isEntered isOpen
  generalize (exit seat step now before).2 = after at shape
  generalize entryEq : before.entries step.id.index = entry at *
  have closes : Closes seat step (exitScratch entry) before.wire
      (exitCommand seat (.step .exit step) step.command (exitScratch entry) before.wire) :=
    exitCommand_closes seat _ _
  have staysLone : ∀ hold, holdOf step.command = some hold → Lone hold
      (exitCommand seat (.step .exit step) step.command (exitScratch entry) before.wire).1 :=
    fun hold isHold => exitCommand_lone seat _ _ _ isHold (exitScratch_lone (lone hold isHold).1)
  generalize exitCommand seat (.step .exit step) step.command (exitScratch entry) before.wire =
    closed at *
  -- an exit that does anything on a kept hold is an unwind of a raised flag
  have active : ∀ hold, holdOf step.command = some hold →
      closed ≠ (exitScratch entry, before.wire) →
        entry.state.flag hold = true ∧ entry.lastStatus ≠ .success := by
    intro hold isHold moved
    by_contra inactive
    apply moved
    apply closes.silent hold isHold
    rintro ⟨flag, interrupted⟩
    rw [exitScratch_flag] at flag
    refine inactive ⟨flag, fun succeeded => ?_⟩
    rw [exitScratch, if_neg (by simp [succeeded]), (lone hold isHold).2] at interrupted
    cases interrupted
  constructor
  case elsewhere => exact shape.elsewhere
  case used => rw [shape.used, entryEq, used]
  case entered => rw [shape.state, closes.entered, exitScratch_entered, isEntered]
  case grabs =>
    rw [shape.state, entryEq, ← exitScratch_overlayGrabHeld]
    exact closes.grabs
  case only =>
    intro hold holds
    rw [shape.state] at holds
    rw [entryEq]
    exact (exitScratch_entryHolds entry _ hold).mp (closes.only hold holds)
  case log =>
    obtain ⟨records, logEq, origins, _⟩ := closes.grows fun _ => False
    refine ⟨records, shape.log.trans logEq, fun record member => ⟨?_, ?_⟩⟩
    · rw [origins record member]
      exact some_ne_none _
    rintro hold ⟨_, outstanding | ⟨phase, other, isStep, _, isHold⟩⟩
    · rw [origins record member] at outstanding
      cases outstanding
    rw [origins record member] at isStep
    cases isStep
    rw [entryEq]
    refine ⟨(active hold isHold ?_).1, (active hold isHold ?_).2, isHold⟩ <;>
    · rintro rfl
      rw [self_eq_append_right.mp logEq] at member
      cases member
  case shrinks => exact fun hold outstanding => ((shape.book hold).mp outstanding).1
  case owned =>
    intro hold outstanding isHold flag
    by_contra lowered
    rw [Bool.not_eq_true, shape.state] at lowered
    refine ((shape.book hold).mp outstanding).2 ⟨isHold, ?_, ?_⟩
    · rw [entryEq] at flag ⊢
      rw [(lone hold isHold).1.holdsAnything, flag]
    · rw [(staysLone hold isHold).holdsAnything, lowered]
  case pending =>
    intro clean hold isPending
    rw [shape.log] at clean isPending
    -- an exit that lifts what the scratch holds leaves nothing pending on it
    have lifted : entryHolds step.command entry.state hold →
        ¬(entry.lastStatus ≠ .success ∨ isTimed step.command = true) := by
      intro holds unwinding
      have due : (exitScratch entry).interrupted = true ∨ isTimed step.command = true :=
        unwinding.imp_left (interrupted_exitScratch entry)
      have released := closes.lifts (capable hold holds) hold
        ((exitScratch_entryHolds entry _ hold).mpr holds) due
      cases released.2.symm.trans isPending
    refine ⟨pending_of_grows closes.grows clean isPending, ?_, ?_⟩
    · intro outstanding
      refine (shape.book hold).mpr ⟨outstanding, ?_⟩
      rintro ⟨isHold, held, nothing⟩
      rw [entryEq] at held
      have raised := active hold isHold (by
        rintro rfl
        rw [exitScratch_holdsAnything, held] at nothing
        cases nothing)
      exact lifted ((entryHolds_iff isHold).mpr ⟨rfl, raised.1⟩) (.inl raised.2)
    · rw [entryEq]
      exact lifted
  case retired =>
    intro hold retired
    rw [shape.log] at retired
    exact retired_of_grows closes.grows retired

/-! ## Lifting what a step left down -/

omit isOpen isEntered

omit used

/-- What asking a closed step to lift its hold does. -/
structure Relieved (step : Step) (before after : SeatState σ) : Prop where
  elsewhere : ∀ index, index ≠ step.id.index → after.entries index = before.entries index
  used : (after.entries step.id.index).used = (before.entries step.id.index).used
  entered : (after.entries step.id.index).state.entered =
    (before.entries step.id.index).state.entered
  grabs : (after.entries step.id.index).state.overlayGrabHeld = true →
    (before.entries step.id.index).state.overlayGrabHeld = true
  only : ∀ hold, entryHolds step.command (after.entries step.id.index).state hold →
    entryHolds step.command (before.entries step.id.index).state hold
  log : ∃ records, after.wire.log = before.wire.log ++ records ∧
    ∀ record ∈ records, record.origin ≠ none ∧ ∀ hold, record.Unwinds hold → Outstanding hold before
  shrinks : ∀ hold, Outstanding hold after → Outstanding hold before
  gone : ∀ hold, holdOf step.command = some hold →
    (before.entries step.id.index).used = true →
    (before.entries step.id.index).state.entered = true →
    (before.entries step.id.index).state.flag hold = true → ¬Outstanding hold after
  pending : Clean after.wire.log → ∀ hold, pendingIn hold after.wire.log = true →
    pendingIn hold before.wire.log = true ∧ (Outstanding hold before → Outstanding hold after)
  retired : ∀ hold, retiredIn hold after.wire.log = true → retiredIn hold before.wire.log = true

theorem relieved_refl (before : SeatState σ) (idle : ∀ hold, holdOf step.command = some hold →
      (before.entries step.id.index).used = true →
      (before.entries step.id.index).state.entered = true →
      (before.entries step.id.index).state.flag hold = true → ¬Outstanding hold before) :
    Relieved step before before where
  elsewhere _ _ := rfl
  used := rfl
  entered := rfl
  grabs held := held
  only _ holds := holds
  log := ⟨[], (append_nil _).symm, by simp⟩
  shrinks _ outstanding := outstanding
  gone := idle
  pending _ _ isPending := ⟨isPending, id⟩
  retired _ retired := retired

/-- A hold of the book that goes up: its flag is lowered, a release call is made
and the book forgets it. -/
theorem relieved_of_lift {lowered : CommandState} {wire : Wire σ}
    (isHold : holdOf step.command = some hold) (outstanding : Outstanding hold before)
    (entries : after.entries = Function.update before.entries step.id.index
      { before.entries step.id.index with state := lowered }) (wireEq : after.wire = wire)
    (entered : lowered.entered = (before.entries step.id.index).state.entered)
    (grabs : lowered.overlayGrabHeld = true →
      (before.entries step.id.index).state.overlayGrabHeld = true)
    (flag : lowered.flag hold = false)
    (grows : ∀ holds, Grows (.step .reap step) holds before.wire wire)
    (lifted : pendingIn hold wire.log = false)
    (book : ∀ other, Outstanding other after ↔ Outstanding other before ∧ other ≠ hold) :
    Relieved step before after := by
  constructor
  case elsewhere =>
    intro index other
    rw [entries, update_of_ne other]
  case used => rw [entries, update_self]
  case entered => rw [entries, update_self, entered]
  case grabs =>
    rw [entries, update_self]
    exact grabs
  case only =>
    rw [entries, update_self]
    intro other holds
    exfalso
    cases commandIs : step.command <;> rw [commandIs] at isHold holds <;> cases isHold <;>
    · obtain ⟨isOther, raised⟩ := holds
      cases isOther
      cases flag.symm.trans raised
  case log =>
    obtain ⟨records, logEq, origins, _⟩ := grows fun _ => False
    refine ⟨records, (congrArg Wire.log wireEq).trans logEq, fun record member => ⟨?_, ?_⟩⟩
    · rw [origins record member]
      exact some_ne_none _
    rintro other ⟨_, backstop | ⟨phase, owner, isStep, _, ownerHold⟩⟩
    · rw [origins record member] at backstop
      cases backstop
    rw [origins record member] at isStep
    cases isStep
    rw [isHold, some.injEq] at ownerHold
    exact ownerHold ▸ outstanding
  case shrinks => exact fun other still => ((book other).mp still).1
  case gone =>
    intro other isOther _ _ _ still
    rw [isHold, some.injEq] at isOther
    exact ((book other).mp still).2 isOther.symm
  case pending =>
    intro clean other isPending
    rw [wireEq] at clean isPending
    refine ⟨pending_of_grows grows clean isPending, fun before => (book other).mpr ⟨before, ?_⟩⟩
    rintro rfl
    cases lifted.symm.trans isPending
  case retired =>
    intro other retired
    rw [wireEq] at retired
    exact retired_of_grows grows retired

/-- The calls that lift a button or a key. -/
theorem liftDocumentHold_lifts (isHold : holdOf command = some hold) (notCapture : hold ≠ .capture)
    (capable : capabilityAvailable seat (kindOf command) = true) (wire : Wire σ) :
    (∀ holds, Grows origin holds wire (liftDocumentHold seat command origin wire).2) ∧
      pendingIn hold (liftDocumentHold seat command origin wire).2.log = false := by
  cases command <;> cases isHold
  case press code =>
    have pointer : seat.capabilities.pointer = true := capable
    rw [liftDocumentHold, if_pos pointer]
    constructor
    · intro holds
      exact (grows_plainCall seat (.button code false) rfl wire).trans (grows_flush seat _)
    have flushed : ∃ records, (seatFlush seat origin
          (seatButton seat origin code false wire).2).2.log =
            (seatButton seat origin code false wire).2.log ++ records ∧
          ∀ record ∈ records, record.takes ≠ some (.button code) ∧
            record.lifts ≠ some (.button code) := flush_quiet seat _ _
    obtain ⟨records, logEq, quiet⟩ := flushed
    rw [logEq, pendingIn_append, pendingFrom_quiet quiet]
    exact lifted_seatCall seat rfl rfl wire
  case keyDown key =>
    have keyboard : seat.capabilities.keyboard = true := capable
    rw [liftDocumentHold, if_pos keyboard]
    exact ⟨fun _ => grows_plainCall seat _ rfl wire, lifted_seatCall seat rfl rfl wire⟩
  case overlayGrab => exact absurd rfl notCapture

theorem held_of_stillOutstanding (still : stillOutstanding command before = true) :
    ∃ hold, holdOf command = some hold ∧ hold ≠ .capture ∧ Outstanding hold before := by
  cases command with
  | press code =>
    have present : code ∈ before.buttons := of_decide_eq_true still
    exact ⟨.button code, rfl, Hold.noConfusion, present⟩
  | keyDown key =>
    have present : key ∈ before.keys := of_decide_eq_true still
    exact ⟨.key key, rfl, Hold.noConfusion, present⟩
  | _ => cases still

/-- A raised flag whose hold is in the book makes the unwind act. -/
theorem lift_of_outstanding (isHold : holdOf command = some hold) (flag : state.flag hold = true)
    (outstanding : Outstanding hold before) :
    (state.documentHold && stillOutstanding command before) = true ∨
      (state.overlayGrabHeld && before.captureHeld) = true := by
  cases command with
  | press code | keyDown key =>
    cases isHold
    exact .inl (Bool.and_eq_true_iff.mpr ⟨flag, decide_eq_true outstanding⟩)
  | overlayGrab =>
    cases isHold
    exact .inr (Bool.and_eq_true_iff.mpr ⟨flag, outstanding⟩)
  | _ => cases isHold

/-- The unwind of a step whose button or key is down. -/
theorem relieved_lift (isHold : holdOf step.command = some hold) (notCapture : hold ≠ .capture)
    (capable : capabilityAvailable seat (kindOf step.command) = true)
    (outstanding : Outstanding hold before) :
    Relieved step before (forgetHold step.command (setEntry
      { before with wire := (liftDocumentHold seat step.command (.step .reap step)
        before.wire).2 } step.id
      { before.entries step.id.index with
        state := { (before.entries step.id.index).state with documentHold := false } })) := by
  obtain ⟨grows, lifted⟩ : (∀ holds, Grows (.step .reap step) holds before.wire _) ∧ _ :=
    liftDocumentHold_lifts seat isHold notCapture capable before.wire
  refine relieved_of_lift isHold outstanding (forgetHold_entries _ _) (forgetHold_wire _ _) rfl
    id ?_ grows lifted ?_
  · cases hold <;> first | rfl | exact absurd rfl notCapture
  · intro other
    rw [outstanding_forgetHold, isHold, ne_eq, some.injEq, eq_comm]
    cases other <;> rfl

/-- The unwind of a step whose pointer capture is down. -/
theorem relieved_capture (isHold : holdOf step.command = some .capture)
    (capable : capabilityAvailable seat (kindOf step.command) = true)
    (outstanding : before.captureHeld = true) :
    Relieved step before (forgetHold step.command (liftCapture seat (.step .reap step)
      (setEntry before step.id
        { before.entries step.id.index with
          state := { (before.entries step.id.index).state with
            overlayGrabHeld := false } })).2) := by
  have overlay : seat.capabilities.overlay = true := by
    cases commandIs : step.command <;> rw [commandIs] at isHold <;> cases isHold
    rw [commandIs] at capable
    exact capable
  rw [liftCapture, if_pos overlay]
  refine relieved_of_lift isHold outstanding (forgetHold_entries _ _) (forgetHold_wire _ _) rfl
    (by intro impossible; cases impossible) rfl
    (fun _ => grows_plainCall seat .overlayRelease rfl before.wire)
    (lifted_seatCall seat rfl rfl before.wire) ?_
  intro other
  rw [outstanding_forgetHold, isHold, ne_eq, some.injEq, eq_comm]
  cases other <;> simp [Outstanding, setEntry]

theorem releaseHolds_relieved
    (grabbed : (before.entries step.id.index).state.overlayGrabHeld = true →
      holdOf step.command = some .capture)
    (capable : ∀ hold, entryHolds step.command (before.entries step.id.index).state hold →
      capabilityAvailable seat (kindOf step.command) = true) :
    Relieved step before (releaseHolds seat step before).2 := by
  rw [releaseHolds]
  unfold findEntry
  split
  · rename_i unused
    refine relieved_refl before fun hold _ used => ?_
    simp [used] at unused
  rename_i entry found
  rw [ite_none_right_eq_some, some.injEq] at found
  obtain ⟨used, rfl⟩ := found
  split
  · rename_i notEntered
    refine relieved_refl before fun hold _ _ entered => ?_
    rw [notEntered] at entered
    cases entered
  dsimp only
  split
  · rename_i nothing
    refine relieved_refl before fun hold isHold _ _ flag outstanding => ?_
    rcases lift_of_outstanding isHold flag outstanding with lift | capture
    · cases nothing.1.symm.trans lift
    · cases nothing.2.symm.trans capture
  rename_i something
  cases lift : ((before.entries step.id.index).state.documentHold &&
      stillOutstanding step.command before) with
  | true =>
    obtain ⟨flag, still⟩ := Bool.and_eq_true_iff.mp lift
    obtain ⟨hold, isHold, notCapture, outstanding⟩ := held_of_stillOutstanding still
    have noCapture : ((before.entries step.id.index).state.overlayGrabHeld &&
        before.captureHeld) = false := by
      by_contra capture
      rw [Bool.not_eq_false, Bool.and_eq_true_iff] at capture
      rw [grabbed capture.1, some.injEq] at isHold
      exact notCapture isHold.symm
    have raised : (before.entries step.id.index).state.flag hold = true := by
      cases hold <;> first | exact flag | exact absurd rfl notCapture
    simp only [noCapture, if_true, Bool.false_eq_true, if_false]
    exact relieved_lift seat isHold notCapture
      (capable hold ((entryHolds_iff isHold).mpr ⟨rfl, raised⟩)) outstanding
  | false =>
    have capture : ((before.entries step.id.index).state.overlayGrabHeld &&
        before.captureHeld) = true := by
      by_contra noCapture
      exact something ⟨lift, Bool.not_eq_true _ ▸ noCapture⟩
    obtain ⟨flag, outstanding⟩ := Bool.and_eq_true_iff.mp capture
    have isHold := grabbed flag
    simp only [capture, if_true, Bool.false_eq_true, if_false]
    exact relieved_capture seat isHold
      (capable .capture ((entryHolds_iff isHold).mpr ⟨rfl, flag⟩)) outstanding

/-! ## The backstop after the run -/

/-- The log grew by release calls of the backstop for exactly these holds. -/
def Sweeps (holds : Hold → Prop) (first last : Wire σ) : Prop :=
  ∃ records, last.log = first.log ++ records ∧
    (∀ record ∈ records, record.origin = some .outstanding ∧ record.takes = none ∧
      ∀ hold, record.lifts = some hold → holds hold) ∧
    ∀ hold, holds hold → ∃ record ∈ records, record.lifts = some hold

theorem Sweeps.refl (wire : Wire σ) : Sweeps (fun _ => False) wire wire :=
  ⟨[], (append_nil _).symm, by simp, by simp⟩

theorem Sweeps.trans {some more : Hold → Prop} {first middle last : Wire σ}
    (early : Sweeps some first middle) (late : Sweeps more middle last) :
    Sweeps (fun hold => some hold ∨ more hold) first last := by
  obtain ⟨records, logEq, made, all⟩ := early
  obtain ⟨others, othersEq, othersMade, othersAll⟩ := late
  refine ⟨records ++ others, by rw [othersEq, logEq, append_assoc], ?_, ?_⟩
  · intro record member
    rcases mem_append.mp member with inFirst | inLast
    · obtain ⟨origin, noTake, lifts⟩ := made record inFirst
      exact ⟨origin, noTake, fun hold isLift => .inl (lifts hold isLift)⟩
    · obtain ⟨origin, noTake, lifts⟩ := othersMade record inLast
      exact ⟨origin, noTake, fun hold isLift => .inr (lifts hold isLift)⟩
  rintro hold (inFirst | inLast)
  · obtain ⟨record, member, lifts⟩ := all hold inFirst
    exact ⟨record, mem_append_left _ member, lifts⟩
  · obtain ⟨record, member, lifts⟩ := othersAll hold inLast
    exact ⟨record, mem_append_right _ member, lifts⟩

theorem Sweeps.congr {some more : Hold → Prop} (sweeps : Sweeps some first last)
    (same : ∀ hold, some hold ↔ more hold) : Sweeps more first last := by
  have equal : some = more := funext fun hold => propext (same hold)
  exact equal ▸ sweeps

theorem sweeps_call (request : SeatCall) (noTake : request.takes = none) (wire : Wire σ) :
    Sweeps (fun hold => request.lifts = some hold) wire
      (seatCall seat .outstanding request wire).2 := by
  refine ⟨[_], rfl, ?_, ?_⟩
  · intro record member
    rw [mem_singleton.mp member]
    exact ⟨rfl, noTake, fun hold isLift => isLift⟩
  · exact fun hold isLift => ⟨_, mem_singleton_self _, isLift⟩

theorem sweeps_liftAll {α : Type} (call : α → SeatCall) (lift : α → Hold)
    (noTake : ∀ item, (call item).takes = none)
    (lifts : ∀ item, (call item).lifts = some (lift item)) (items : List α)
    (progress : Bool × Wire σ) :
    Sweeps (fun hold => hold ∈ items.map lift) progress.2 (liftAll seat call items progress).2 := by
  induction items generalizing progress with
  | nil => exact (Sweeps.refl progress.2).congr (by simp)
  | cons item rest ih =>
    have first := sweeps_call seat (call item) (noTake item) progress.2
    have later := ih ((seatCall seat .outstanding (call item) progress.2).1 && progress.1,
      (seatCall seat .outstanding (call item) progress.2).2)
    refine (first.trans later).congr ?_
    intro hold
    rw [lifts, some.injEq, map_cons, mem_cons, eq_comm]

/-- Work that is done only with a capability. -/
theorem sweeps_ite {holds : Hold → Prop} (capability : Bool) (work progress : Bool × Wire σ)
    (sweeps : Sweeps holds progress.2 work.2) :
    Sweeps (fun hold => capability = true ∧ holds hold) progress.2
      (if capability then work else progress).2 := by
  split
  · rename_i isCapable
    exact sweeps.congr (by simp [isCapable])
  · rename_i incapable
    exact (Sweeps.refl _).congr (by simp [incapable])

theorem sweeps_liftCapture (runner : SeatState σ) :
    Sweeps (fun hold => seat.capabilities.overlay = true ∧ hold = .capture) runner.wire
        (liftCapture seat .outstanding runner).2.wire ∧
      (liftCapture seat .outstanding runner).2.captureHeld = false := by
  rw [liftCapture]
  split
  · rename_i overlay
    refine ⟨(sweeps_call seat .overlayRelease rfl runner.wire).congr ?_, rfl⟩
    intro hold
    simp [overlay, SeatCall.lifts, eq_comm]
  · rename_i noOverlay
    exact ⟨(Sweeps.refl _).congr (by simp [noOverlay]), rfl⟩

/-- The capability a hold was taken with. -/
def holdCapability (capabilities : Capabilities) : Hold → Bool
  | .button _ => capabilities.pointer
  | .key _ => capabilities.keyboard
  | .capture => capabilities.overlay

/-- The backstop lifts what the book holds and the seat can lift. -/
theorem releaseOutstanding_sweeps (before : SeatState σ) :
    Sweeps (fun hold => Outstanding hold before ∧ holdCapability seat.capabilities hold = true)
        before.wire (releaseOutstanding seat before).2.wire ∧
      outstandingHolds (releaseOutstanding seat before).2 = 0 := by
  rw [releaseOutstanding]
  split
  · rename_i empty
    obtain ⟨noButtons, noKeys, noCapture⟩ := empty
    refine ⟨(Sweeps.refl _).congr ?_, ?_⟩
    · intro hold
      cases hold <;> simp [Outstanding, noButtons, noKeys, noCapture]
    · simp [outstandingHolds, noButtons, noKeys, noCapture]
  dsimp only
  have buttons := sweeps_ite seat.capabilities.pointer _ _
    (sweeps_liftAll seat (SeatCall.button · false) Hold.button (fun _ => rfl) (fun _ => rfl)
      before.buttons (true, before.wire))
  generalize (if seat.capabilities.pointer = true then
    liftAll seat (SeatCall.button · false) before.buttons (true, before.wire)
    else (true, before.wire)) = lifted at *
  have keys := sweeps_ite seat.capabilities.keyboard _ _
    (sweeps_liftAll seat (SeatCall.keyByName · false) Hold.key (fun _ => rfl) (fun _ => rfl)
      before.keys lifted)
  generalize (if seat.capabilities.keyboard = true then
    liftAll seat (SeatCall.keyByName · false) before.keys lifted else lifted) = typed at *
  have flushed := sweeps_ite seat.capabilities.pointer
    ((seatFlush seat .outstanding typed.2).1 && typed.1,
      (seatFlush seat .outstanding typed.2).2) typed (sweeps_call seat .flush rfl typed.2)
  generalize (if seat.capabilities.pointer = true then
    ((seatFlush seat .outstanding typed.2).1 && typed.1,
      (seatFlush seat .outstanding typed.2).2) else typed) = sent at *
  have earlier := (buttons.trans keys).trans flushed
  split
  · rename_i held
    obtain ⟨sweeps, freed⟩ := sweeps_liftCapture seat { before with wire := sent.2 }
    refine ⟨(earlier.trans sweeps).congr ?_, ?_⟩
    · intro hold
      cases hold <;> simp [Outstanding, holdCapability, SeatCall.lifts, held, and_comm]
    · simp [outstandingHolds, freed]
  rename_i notHeld
  refine ⟨earlier.congr ?_, ?_⟩
  · intro hold
    cases hold <;> simp [Outstanding, holdCapability, SeatCall.lifts, notHeld, and_comm]
  · simp [outstandingHolds, notHeld]

end SeatRunner

end Grab.Kernel
