import Grab.Sequence.Seat.Frame
import Grab.Sequence.Seat.Contract

/-!
# Captures on a session seat

A session seat takes the picture inside `begin_capture` and keeps the result in one
slot until `poll_capture` takes it out.  `perStep` is what the captures of a document
are for: every step gets the result of its own capture.  The two agree on a run in
which no capture is begun while another step waits for one.
-/

namespace Grab.Kernel

open Grab.Sequence List Function Bool

/-! ## The seat -/

/-- A session seat over the rest of its state.  A result carries the number of the
`begin_capture` call that made it, and the polls keep a record of what they reported. -/
structure SessionState (σ : Type) where
  rest : σ
  capture : Option (Nat × Bool) := none
  begun : Nat := 0
  reports : List (Option Nat) := []

namespace SessionState

variable {σ : Type}

def beginCapture (captureDisplay : String → σ → Bool × σ) (output locator : String)
    (state : SessionState σ) : Bool × SessionState σ :=
  if locator ≠ "" then (false, state)
  else
    let shot := captureDisplay output state.rest
    (true,
      { state with
        rest := shot.2
        capture := some (state.begun, shot.1)
        begun := state.begun + 1 })

def pollCapture (state : SessionState σ) : Option Bool × SessionState σ :=
  (state.capture.map Prod.snd,
    { state with
      capture := none
      reports := state.reports ++ [state.capture.map Prod.fst] })

/-- What the capture calls read and write. -/
def captures (state : SessionState σ) : Option (Nat × Bool) × Nat × List (Option Nat) :=
  (state.capture, state.begun, state.reports)

end SessionState

/-- The session seat over the other halves of a seat. -/
def sessionSeat {σ : Type} (base : Seat σ) (captureDisplay : String → σ → Bool × σ) :
    Seat (SessionState σ) where
  capabilities := { base.capabilities with capturing := true }
  call request state :=
    match request with
    | .beginCapture output locator => state.beginCapture captureDisplay output locator
    | other =>
      let answer := base.call other state.rest
      (answer.1, { state with rest := answer.2 })
  pointerPosition state :=
    let answer := base.pointerPosition state.rest
    (answer.1, { state with rest := answer.2 })
  pollCapture := SessionState.pollCapture
  samplePoint := base.samplePoint
  cubicBetween := base.cubicBetween

/-! ## What captures are for -/

/-- The calls of capture steps on a seat. -/
inductive CaptureCall where
  | begin (id : StepId)
  | poll (id : StepId)
  deriving DecidableEq

/-- Every step waits for the result of the capture it began last. -/
structure PerStep where
  waiting : StepId → Option Nat := fun _ => none
  begun : Nat := 0
  reports : List (Option Nat) := []

namespace PerStep

def call (state : PerStep) : CaptureCall → PerStep
  | .begin id =>
    { state with
      waiting := Function.update state.waiting id (some state.begun)
      begun := state.begun + 1 }
  | .poll id =>
    { state with
      waiting := Function.update state.waiting id none
      reports := state.reports ++ [state.waiting id] }

end PerStep

/-- The reports of a run of capture calls in which every step gets its own. -/
def perStep (calls : List CaptureCall) : PerStep := calls.foldl PerStep.call {}

/-- Does entering a command take a picture? -/
def takesPicture (command : Command) : Bool :=
  match command with
  | .capture output locator => decide (output ≠ "" ∧ locator = "")
  | _ => false

/-- A property of the command of a step of the document. -/
def commandIs (sequence : Sequence) (property : Command → Bool) (id : StepId) : Bool :=
  match sequence.find id with
  | none => false
  | some step => property step.command

/-- The capture call an event of a run makes. -/
def captureCall (sequence : Sequence) : Event → Option CaptureCall
  | .enter id _ _ _ =>
    if commandIs sequence takesPicture id then some (.begin id) else none
  | .tick id _ _ => if commandIs sequence isCapture id then some (.poll id) else none
  | _ => none

def captureCalls (sequence : Sequence) (trace : List Event) : List CaptureCall :=
  trace.filterMap (captureCall sequence)

/-- No picture is taken while another capture step is running. -/
def NoOverlap (sequence : Sequence) (trace : List Event) : Prop :=
  ∀ earlier id now answer statuses later,
    trace = earlier ++ .enter id now answer statuses :: later →
    commandIs sequence takesPicture id = true →
    ∀ other, commandIs sequence isCapture other = true → openIn earlier other = false

variable {sequence : Sequence}

theorem NoOverlap.of_append {first second : List Event}
    (apart : NoOverlap sequence (first ++ second)) : NoOverlap sequence first := by
  intro earlier id now answer statuses later split
  apply apart earlier id now answer statuses (later ++ second)
  rw [split, append_assoc]
  rfl

section

variable {σ : Type} {base : Seat σ} {captureDisplay : String → σ → Bool × σ}
  {sequence : Sequence} {trace : List Event} {protocol : Protocol}
  {runner : SeatState (SessionState σ)} {step : Step}

theorem framed_captures (value : Option (Nat × Bool) × Nat × List (Option Nat)) :
    Framed (sessionSeat base captureDisplay) fun state => state.captures = value where
  call request state other holds := by
    cases request with
    | beginCapture output locator => exact absurd rfl (other output locator)
    | _ => exact holds
  position _ holds := holds

/-! ## One request -/

/-- Entering a capture step: a picture is begun and the step waits for it, or the
step fails and the slot is as it was. -/
theorem enter_capture (base : Seat σ) (captureDisplay : String → σ → Bool × σ)
    (runner : SeatState (SessionState σ)) (isCaptureStep : isCapture step.command = true)
    (now : TimePoint) :
    let answer := SeatRunner.enter (sessionSeat base captureDisplay) step now runner
    if takesPicture step.command then
      ∃ taken, answer.2.wire.seat.captures =
        (some (runner.wire.seat.begun, taken), runner.wire.seat.begun + 1, runner.wire.seat.reports)
    else answer.1 = .failure ∧ answer.2.wire.seat.captures = runner.wire.seat.captures := by
  dsimp only
  rw [SeatRunner.enter_seat]
  cases isCommand : step.command with
  | capture output locator =>
    have body : (SeatRunner.enter (sessionSeat base captureDisplay) step now runner).1 =
        (enterBody (sessionSeat base captureDisplay) (.step .enter step)
          (.capture output locator) now {} runner.wire).1 := by
      rw [← isCommand]
      rfl
    rw [body]
    have empty_eq : ∀ text : String, text.isEmpty = decide (text = "") := fun text => by
      rw [Bool.eq_iff_iff, decide_eq_true_iff, String.isEmpty_iff]
    simp only [enterBody, enterCommand, available, sessionSeat, if_true, takesPicture, empty_eq]
    by_cases byLocator : locator = "" <;> by_cases noOutput : output = ""
    · simp [byLocator, noOutput, failed]
    · simp [byLocator, noOutput, seatCall, SessionState.beginCapture, SessionState.captures]
    · simp [byLocator, noOutput, seatCall, SessionState.beginCapture]
    · simp [byLocator, noOutput, failed]
  | _ =>
    rw [isCommand] at isCaptureStep
    cases isCaptureStep

/-- Ticking an entered capture step polls the slot, and the step keeps running when
the slot was empty. -/
theorem tick_capture (base : Seat σ) (captureDisplay : String → σ → Bool × σ) {entry : Entry}
    (isCaptureStep : isCapture step.command = true)
    (found : SeatRunner.findEntry runner step.id = some entry)
    (entered : entry.state.entered = true) (now : TimePoint) :
    let answer := SeatRunner.tick (sessionSeat base captureDisplay) step now runner
    answer.2.wire.seat.captures = runner.wire.seat.pollCapture.2.captures ∧
      (answer.1 = .running ↔ runner.wire.seat.capture = none) := by
  have answered : (SeatRunner.tick (sessionSeat base captureDisplay) step now runner).1 =
      (tickBody (sessionSeat base captureDisplay) (.step .tick step) step.command now
        entry.state runner.wire).1 := by
    simp only [SeatRunner.tick, found]
  dsimp only
  rw [SeatRunner.tick_seat found, answered, tickBody, if_neg (by simp [entered])]
  cases isCommand : step.command with
  | capture output locator =>
    cases slot : runner.wire.seat.capture with
    | none =>
      simp [tickCommand, available, sessionSeat, SessionState.pollCapture, slot]
    | some shot =>
      cases taken : shot.2 <;>
        simp [tickCommand, available, sessionSeat, SessionState.pollCapture, slot, taken]
  | _ =>
    rw [isCommand] at isCaptureStep
    cases isCaptureStep

/-! ## Whole runs -/

/-- A capture step that is entered and has not been answered. -/
def Waits (sequence : Sequence) (protocol : Protocol) (id : StepId) : Prop :=
  protocol.isOpen id = true ∧ protocol.due ≠ some id ∧ commandIs sequence isCapture id = true

/-- The slot serves the only step that waits. -/
structure Separate (sequence : Sequence) (trace : List Event) (protocol : Protocol)
    (state : SessionState σ) : Prop where
  begun : state.begun = (perStep (captureCalls sequence trace)).begun
  reports : state.reports = (perStep (captureCalls sequence trace)).reports
  own : ∀ id, Waits sequence protocol id → ∃ number taken,
    state.capture = some (number, taken) ∧
      (perStep (captureCalls sequence trace)).waiting id = some number
  alone : ∀ id other, Waits sequence protocol id → Waits sequence protocol other → id = other

theorem captureCalls_append (sequence : Sequence) (trace : List Event) (event : Event) :
    captureCalls sequence (trace ++ [event]) =
      captureCalls sequence trace ++ (captureCall sequence event).toList := by
  rw [captureCalls, filterMap_append]
  cases isCall : captureCall sequence event <;> simp [captureCalls, isCall]

theorem perStep_append (calls : List CaptureCall) (call : CaptureCall) :
    perStep (calls ++ [call]) = (perStep calls).call call :=
  foldl_append

variable {before after : SessionState σ} {event : Event} {next : Protocol}

section

variable (separate : Separate sequence trace protocol before) {id : StepId}

include separate

/-- A request that makes no capture call and lets no further step wait. -/
theorem Separate.quiet (silent : captureCall sequence event = none)
    (same : after.captures = before.captures)
    (fewer : ∀ id, Waits sequence next id → Waits sequence protocol id) :
    Separate sequence (trace ++ [event]) next after := by
  have calls : captureCalls sequence (trace ++ [event]) = captureCalls sequence trace := by
    rw [captureCalls_append, silent]
    exact append_nil _
  rcases Prod.mk.inj same with ⟨captureEq, restEq⟩
  rcases Prod.mk.inj restEq with ⟨begunEq, reportsEq⟩
  constructor
  case begun => rw [calls, begunEq, separate.begun]
  case reports => rw [calls, reportsEq, separate.reports]
  case own =>
    intro id waits
    rw [calls, captureEq]
    exact separate.own id (fewer id waits)
  case alone =>
    exact fun id other waits otherWaits =>
      separate.alone id other (fewer id waits) (fewer other otherWaits)

/-- A picture is begun while no other step waits. -/
theorem Separate.begin {taken : Bool} (isBegin : captureCall sequence event = some (.begin id))
    (slot : after.captures = (some (before.begun, taken), before.begun + 1, before.reports))
    (only : ∀ other, Waits sequence next other → other = id) :
    Separate sequence (trace ++ [event]) next after := by
  have calls : perStep (captureCalls sequence (trace ++ [event])) =
      (perStep (captureCalls sequence trace)).call (.begin id) := by
    rw [captureCalls_append, isBegin]
    exact perStep_append _ _
  rcases Prod.mk.inj slot with ⟨captureEq, restEq⟩
  rcases Prod.mk.inj restEq with ⟨begunEq, reportsEq⟩
  constructor
  case begun =>
    rw [calls, begunEq, separate.begun]
    rfl
  case reports =>
    rw [calls, reportsEq, separate.reports]
    rfl
  case own =>
    intro other waits
    rw [only other waits, calls, captureEq, separate.begun]
    exact ⟨_, _, rfl, update_self id _ _⟩
  case alone =>
    exact fun first second firstWaits secondWaits =>
      (only first firstWaits).trans (only second secondWaits).symm

/-- The waiting step polls. -/
theorem Separate.poll (isPoll : captureCall sequence event = some (.poll id))
    (waits : Waits sequence protocol id) (slot : after.captures = before.pollCapture.2.captures)
    (nobody : ∀ other, ¬Waits sequence next other) :
    Separate sequence (trace ++ [event]) next after := by
  have calls : perStep (captureCalls sequence (trace ++ [event])) =
      (perStep (captureCalls sequence trace)).call (.poll id) := by
    rw [captureCalls_append, isPoll]
    exact perStep_append _ _
  rcases Prod.mk.inj slot with ⟨captureEq, restEq⟩
  rcases Prod.mk.inj restEq with ⟨begunEq, reportsEq⟩
  rcases separate.own id waits with ⟨number, taken, held, own⟩
  constructor
  case begun =>
    rw [calls, begunEq]
    exact separate.begun
  case reports =>
    rw [calls, reportsEq]
    change before.reports ++ [before.capture.map Prod.fst] =
      (perStep (captureCalls sequence trace)).reports ++
        [(perStep (captureCalls sequence trace)).waiting id]
    rw [held, own, separate.reports]
    rfl
  case own => exact fun other waits => absurd waits (nobody other)
  case alone => exact fun first _ waits => absurd waits (nobody first)

end

theorem Conversation.openIn_eq {ρ : Type} {commands : CommandRunner ρ} {start state : ρ}
    (conversation : Conversation sequence commands start trace protocol state) (id : StepId) :
    openIn trace id = protocol.isOpen id := by
  have cycles := conversation.cycles id
  split at cycles
  · rename_i isOpen
    rw [isOpen]
    exact openIn_of_openCycles cycles
  rename_i isClosed
  rw [not_eq_true] at isClosed
  rw [isClosed]
  exact openIn_of_cycles cycles

theorem commandIs_eq {id : StepId} (found : sequence.find id = some step)
    (property : Command → Bool) : commandIs sequence property id = property step.command := by
  simp only [commandIs, found]

theorem takesPicture_false {command : Command} (plain : isCapture command = false) :
    takesPicture command = false := by
  cases command <;> first | rfl | cases plain

/-- What an entry lets wait. -/
theorem waits_of_enter {id other : StepId} {answer : Status} (different : other ≠ id)
    (idle : protocol.due = none) (waits : Waits sequence
      ⟨Function.update protocol.isOpen id true, Protocol.dueAfter id answer⟩ other) :
    Waits sequence protocol other := by
  rcases waits with ⟨isOpen, _, isCaptureStep⟩
  dsimp only at isOpen
  rw [update_of_ne different] at isOpen
  exact ⟨isOpen, by simp [idle], isCaptureStep⟩

theorem separate_step {before after : SeatState (SessionState σ)}
    {start : SeatState (SessionState σ)}
    (conversation : Conversation sequence (seatRunner (sessionSeat base captureDisplay)) start
      trace protocol before)
    (accounted : Accounted sequence (sessionSeat base captureDisplay) trace protocol before)
    (separate : Separate sequence trace protocol before.wire.seat)
    (legal : protocol.next event = some next)
    (answers : Answers sequence (seatRunner (sessionSeat base captureDisplay)) before event
      after) (apart : NoOverlap sequence (trace ++ [event])) :
    Separate sequence (trace ++ [event]) next after.wire.seat := by
  have frame : Framed (sessionSeat base captureDisplay) fun state =>
      state.captures = before.wire.seat.captures := framed_captures _
  cases answers.exchange legal with
  | @enter step now statuses found idle isClosed =>
    cases isCaptureStep : isCapture step.command with
    | false =>
      have kept := frame.enter isCaptureStep now before rfl
      apply separate.quiet _ kept
      · intro other waits
        apply waits_of_enter _ idle waits
        rintro rfl
        have impossible := waits.2.2
        rw [commandIs_eq found, isCaptureStep] at impossible
        cases impossible
      · rw [captureCall, commandIs_eq found, takesPicture_false isCaptureStep]
        rfl
    | true =>
      have spec := enter_capture base captureDisplay before isCaptureStep now
      dsimp only at spec
      split at spec
      · rename_i picture
        rcases spec with ⟨taken, slot⟩
        have isBegin : ∀ status, captureCall sequence (.enter step.id now status statuses) =
            some (.begin step.id) := by
          intro status
          rw [captureCall, commandIs_eq found, picture]
          rfl
        apply separate.begin (isBegin _) slot
        intro other waits
        by_contra different
        have waited := waits_of_enter different idle waits
        have isOpen := apart trace step.id now _ statuses [] rfl
          ((commandIs_eq found _).trans picture) other waited.2.2
        rw [conversation.openIn_eq, waited.1] at isOpen
        cases isOpen
      · rename_i noPicture
        rcases spec with ⟨failed, kept⟩
        apply separate.quiet _ kept
        · intro other waits
          apply waits_of_enter _ idle waits
          rintro rfl
          apply waits.2.1
          rw [failed]
          rfl
        · rw [not_eq_true] at noPicture
          rw [captureCall, commandIs_eq found, noPicture]
          rfl
  | @tick step now found idle isOpen =>
    have waited : ∀ status other,
        Waits sequence ⟨protocol.isOpen, Protocol.dueAfter step.id status⟩ other →
          Waits sequence protocol other :=
      fun _ other waits => ⟨waits.1, by simp [idle], waits.2.2⟩
    cases isCaptureStep : isCapture step.command with
    | false =>
      have kept := frame.tick isCaptureStep now before rfl
      apply separate.quiet _ kept (waited _)
      rw [captureCall, commandIs_eq found, isCaptureStep]
      rfl
    | true =>
      have entry := accounted.entry found isOpen
      have known : SeatRunner.findEntry before step.id =
          some (before.entries step.id.index) := if_pos entry.used
      have spec := tick_capture base captureDisplay isCaptureStep known entry.entered now
      dsimp only at spec
      rcases spec with ⟨slot, runningIff⟩
      have waits : Waits sequence protocol step.id :=
        ⟨isOpen, by simp [idle], (commandIs_eq found _).trans isCaptureStep⟩
      have isPoll : ∀ status, captureCall sequence (.tick step.id now status) =
          some (.poll step.id) := by
        intro status
        rw [captureCall, commandIs_eq found, isCaptureStep]
        rfl
      apply separate.poll (isPoll _) waits slot
      intro other otherWaits
      rcases separate.own step.id waits with ⟨number, taken, held, _⟩
      apply otherWaits.2.1
      rw [separate.alone other step.id (waited _ other otherWaits) waits]
      apply if_neg
      intro running
      rw [runningIff.mp running] at held
      cases held
  | join | jump => exact separate.quiet rfl rfl fun _ waits => waits
  | @exit step now found isOpen turn =>
    apply separate.quiet rfl (frame.exit step now before rfl)
    intro other waits
    rcases waits with ⟨stillOpen, _, isCaptureStep⟩
    dsimp only at stillOpen
    by_cases same : other = step.id
    · subst other
      rw [update_self] at stillOpen
      cases stillOpen
    rw [update_of_ne same] at stillOpen
    refine ⟨stillOpen, ?_, isCaptureStep⟩
    rcases turn with idle | dueHere
    · simp [idle]
    · rw [dueHere]
      exact fun equal => same (Option.some.inj equal).symm
  | @releaseHolds step =>
    exact separate.quiet rfl (frame.releaseHolds step before rfl) fun _ waits => waits

theorem Conversation.separate (built : sequence.Built) {start : σ}
    {state : SeatState (SessionState σ)}
    (conversation : Conversation sequence (seatRunner (sessionSeat base captureDisplay))
      (SeatState.fresh { rest := start }) trace protocol state)
    (apart : NoOverlap sequence trace) :
    Separate sequence trace protocol state.wire.seat := by
  induction conversation with
  | start =>
    constructor
    case begun => rfl
    case reports => rfl
    case own => exact fun id waits => absurd waits.1 false_ne_true
    case alone => exact fun id other waits => absurd waits.1 false_ne_true
  | step earlier legal answers ih =>
    exact separate_step earlier (earlier.accounted built) (ih apart.of_append) legal answers apart

/-- Captures do not interfere: every poll reports the capture that the polling step
began and was not told about, as long as no picture is taken while another capture step
is running. -/
theorem captures_kept_apart {steps : List Step} {pacing : PacingOptions} {name : String}
    (accepted : Sequence.build steps pacing name = .ok sequence) (base : Seat σ)
    (captureDisplay : String → σ → Bool × σ) (start : σ) (controls : List Control) :
    let world := (World.initial (SeatState.fresh ({ rest := start } : SessionState σ))).run
      sequence (seatRunner (sessionSeat base captureDisplay)) controls
    NoOverlap sequence world.trace →
      world.runner.wire.seat.reports = (perStep (captureCalls sequence world.trace)).reports := by
  intro world apart
  have sound : RunSound sequence (seatRunner (sessionSeat base captureDisplay))
      (SeatState.fresh { rest := start }) world := World.reachable_sound accepted _ controls
  rcases sound.balanced.ledger.conversation with ⟨protocol, conversation, _⟩
  exact (conversation.separate (Sequence.built_of_build accepted) apart).reports

end

/-! ## Two captures -/

/-- Does an event leave the running captures alone? -/
def beginsApart (sequence : Sequence) (earlier : List Event) : Event → Bool
  | .enter id _ _ _ =>
    !commandIs sequence takesPicture id ||
      sequence.steps.all fun step => !isCapture step.command || !openIn earlier step.id
  | _ => true

/-- Checks a trace for overlapping captures. -/
def overlapFree (sequence : Sequence) : List Event → List Event → Bool
  | _, [] => true
  | earlier, event :: later =>
    beginsApart sequence earlier event && overlapFree sequence (earlier ++ [event]) later

theorem noOverlap_of_check {trace : List Event} (free : overlapFree sequence [] trace = true) :
    NoOverlap sequence trace := by
  have general : ∀ {earlier rest : List Event}, overlapFree sequence earlier rest = true →
      ∀ middle id now answer statuses later,
        rest = middle ++ .enter id now answer statuses :: later →
        commandIs sequence takesPicture id = true →
        ∀ other, commandIs sequence isCapture other = true →
          openIn (earlier ++ middle) other = false := by
    intro earlier rest free middle
    induction middle generalizing earlier rest with
      rintro id now answer statuses later rfl picture other isCaptureStep
    | nil =>
      rw [nil_append, overlapFree, and_eq_true, beginsApart, picture] at free
      unfold commandIs at isCaptureStep
      split at isCaptureStep
      · cases isCaptureStep
      rename_i step found
      rcases Sequence.Built.mem_of_find found with ⟨member, rfl⟩
      have clear := all_eq_true.mp free.1 step member
      rw [isCaptureStep] at clear
      rw [append_nil]
      simpa using clear
    | cons event middle ih =>
      rw [cons_append, overlapFree, and_eq_true] at free
      have later := ih free.2 id now answer statuses later rfl picture other isCaptureStep
      rwa [append_assoc] at later
  intro earlier id now answer statuses later split picture other isCaptureStep
  exact general free earlier id now answer statuses later split picture other isCaptureStep

/-- Two captures one after the other. -/
def captureTwice : List Step :=
  [{ command := .capture "a.png" "" },
    { command := .capture "b.png" "", after := [StepId.ofIndex 0] }]

/-- Two captures that may run at the same time. -/
def captureBoth : List Step :=
  [{ command := .capture "a.png" "" }, { command := .capture "b.png" "" }]

/-- A session seat whose captures all succeed. -/
def cameraSeat : Seat (SessionState Unit) :=
  sessionSeat (echoSeat fun _ => true) fun _ state => (true, state)

theorem captures_kept_apart_captureTwice : ∃ sequence,
    Sequence.build captureTwice {} "seat" = .ok sequence ∧
      let world := (World.initial (SeatState.fresh ({ rest := () } : SessionState Unit))).run
        sequence (seatRunner cameraSeat) [.play, .pump 0]
      world.player.state = .done ∧ world.runner.wire.seat.reports =
        (perStep (captureCalls sequence world.trace)).reports := by
  rcases exists_built captureTwice
    (fun sequence =>
      let world := (World.initial (SeatState.fresh ({ rest := () } : SessionState Unit))).run
        sequence (seatRunner cameraSeat) [.play, .pump 0]
      decide (world.player.state = .done) && overlapFree sequence [] world.trace)
    (by decide +kernel) with ⟨sequence, accepted, checked⟩
  rw [and_eq_true_iff, decide_eq_true_eq] at checked
  refine ⟨sequence, accepted, checked.1, ?_⟩
  exact captures_kept_apart accepted (echoSeat fun _ => true) (fun _ state => (true, state)) ()
    [.play, .pump 0] (noOverlap_of_check checked.2)

/-- The second capture overwrites the first, the first step is told of the second, and
the second step polls in vain. -/
theorem captures_crossed : ∃ sequence,
    Sequence.build captureBoth {} "seat" = .ok sequence ∧
      let world := (World.initial (SeatState.fresh ({ rest := () } : SessionState Unit))).run
        sequence (seatRunner cameraSeat) [.play, .pump 0]
      world.runner.wire.seat.reports = [some 1, none, none] ∧
        (perStep (captureCalls sequence world.trace)).reports = [some 0, some 1, none] ∧
        world.player.status 0 = .succeeded ∧ world.player.status 1 = .running := by
  rcases exists_built captureBoth
    (fun sequence =>
      let world := (World.initial (SeatState.fresh ({ rest := () } : SessionState Unit))).run
        sequence (seatRunner cameraSeat) [.play, .pump 0]
      decide (world.runner.wire.seat.reports = [some 1, none, none] ∧
        (perStep (captureCalls sequence world.trace)).reports = [some 0, some 1, none] ∧
        world.player.status 0 = .succeeded ∧ world.player.status 1 = .running))
    (by decide +kernel) with ⟨sequence, accepted, checked⟩
  exact ⟨sequence, accepted, of_decide_eq_true checked⟩

end Grab.Kernel
