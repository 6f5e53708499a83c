import Grab.Sequence.Seat.Log

/-!
# What each command leaves held

One specification per phase of a command: which holds entering it can leave
pending and under which flag, that ticking and exiting leave nothing pending
beyond the flag, and that an exit on the unwind lifts what the flag stands for.
-/

namespace Grab.Kernel

open Grab.Sequence Grab.Geometry List Option Bool

/-- The hold a command leaves down on purpose, for a later step to lift. -/
def holdOf (command : Command) : Option Hold :=
  match command with
  | .press code => some (.button code)
  | .keyDown key => some (.key key)
  | .overlayGrab => some .capture
  | _ => none

/-- The scratch flag that stands for an explicit hold. -/
def CommandState.flag (state : CommandState) : Hold → Bool
  | .capture => state.overlayGrabHeld
  | _ => state.documentHold

/-- The holds a scratch is responsible for. -/
def entryHolds (command : Command) (state : CommandState) (hold : Hold) : Prop :=
  match command with
  | .drag _ _ code _ => hold = .button code ∧ state.held = true
  | _ => holdOf command = some hold ∧ state.flag hold = true

/-- The commands whose body runs past its entry. -/
def isTimed (command : Command) : Bool :=
  match command with
  | .wait _ | .move .. | .follow .. | .drag .. | .capture .. => true
  | _ => false

variable {command : Command} {state : CommandState} {hold : Hold}

/-- What is left of a command that keeps a hold: that hold, while its flag is up. -/
theorem entryHolds_iff {hold other : Hold} (isHold : holdOf command = some hold) :
    entryHolds command state other ↔ other = hold ∧ state.flag hold = true := by
  have same : entryHolds command state other ↔
      holdOf command = some other ∧ state.flag other = true := by
    cases command with
    | drag start target code options => cases isHold
    | _ => exact Iff.rfl
  rw [same, isHold, some.injEq, eq_comm]
  exact and_congr_right fun isOther => by rw [isOther]

/-- A command that keeps a hold is over at once and lifts nothing. -/
theorem holdOf_facts (isHold : holdOf command = some hold) :
    isTimed command = false ∧ SeatRunner.liftedBy command = none := by
  cases command with
  | press code | keyDown key | overlayGrab => exact ⟨rfl, rfl⟩
  | _ => cases isHold

/-- The commands that neither keep a hold nor lift another step's. -/
def isPlain (command : Command) : Bool :=
  match command with
  | .press _ | .keyDown _ | .overlayGrab | .release _ | .keyUp _ | .overlayRelease
  | .drag .. => false
  | _ => true

theorem plain_facts (plain : isPlain command = true) :
    holdOf command = none ∧ SeatRunner.liftedBy command = none ∧
      ∀ state hold, ¬entryHolds command state hold := by
  cases command <;> first
    | exact absurd plain false_ne_true
    | simp [holdOf, SeatRunner.liftedBy, entryHolds]

section

variable {σ : Type} (seat : Seat σ) {step : Step} {phase : Phase} {holds : Hold → Prop}

/-! ## Work that touches no hold -/

variable {origin : Origin} {wire : Wire σ} {body : CommandState → Wire σ → Answer σ}

theorem grows_flush (wire : Wire σ) : Grows origin holds wire (seatFlush seat origin wire).2 :=
  grows_seatCall seat .flush wire (by intro hold impossible; cases impossible)

theorem tidy_warpTo (point : Point) : Tidy origin (warpTo seat origin point) := by
  have moved : Tidy origin ((seatCall seat origin (.movePointerAbsolute point.x point.y)).andThen
      (seatFlush seat origin)) :=
    (tidy_seatCall seat rfl).andThen (tidy_seatCall seat rfl)
  intro wire
  rw [warpTo]
  split
  · exact moved wire
  · exact tidy_refuse wire

theorem grows_warpTo (point : Point) (wire : Wire σ) :
    Grows origin holds wire (warpTo seat origin point wire).2 :=
  (tidy_warpTo seat point).grows wire

theorem Attempt.andThen_assoc (first second third : Attempt σ) :
    (first.andThen second).andThen third = first.andThen (second.andThen third) := by
  funext wire
  by_cases succeeded : (first wire).1 = true <;> simp [Attempt.andThen, succeeded]

/-! ## Taps -/

variable (transient : isTransient step.command = true) {lowered : CommandState}
  {options : Input.DragOptions} {attempt : Attempt σ} {start target : Point} {after : Wire σ}
  {answer : Answer σ} {request : SeatCall} {capability : Bool} {rest : Attempt σ} {code : UInt8}

include transient

/-- A press that is followed at once by its release leaves nothing pending, unless the press itself
is refused, and then nothing follows it. -/
theorem tidy_tap {press release : SeatCall} (presses : press.takes = some hold)
    (pressOnly : press.lifts = none) (releases : release.lifts = some hold)
    (releaseOnly : release.takes = none) :
    Tidy (.step phase step) ((seatCall seat (.step phase step) press).andThen
      (seatCall seat (.step phase step) release)) := by
  intro wire
  rw [Attempt.andThen]
  split
  · rename_i granted
    refine ⟨[_, _], append_assoc _ _ _, by simp [Record.origin], .inl ⟨?_, fun other => ?_⟩⟩
    · have answered : (seat.call press wire.seat).1 = true := granted
      simp [Clean, Record.refusedTap, answered, releaseOnly]
    by_cases same : hold = other
    · subst other
      simp [pendingFrom, trackHold, Record.takes, Record.lifts, releaseOnly, releases]
    · simp [pendingFrom, trackHold, Record.takes, Record.lifts, releaseOnly, releases,
        presses, pressOnly, same]
  · rename_i refused
    rw [not_eq_true] at refused
    have answered : (seat.call press wire.seat).1 = false := refused
    refine ⟨[_], rfl, by simp [Record.origin], .inr ⟨rfl, [], _, hold, rfl, presses, ?_⟩⟩
    simp [Record.refusedTap, answered, presses, transient]

theorem tidy_clickWork (code : UInt8) :
    Tidy (.step phase step) (clickWork seat (.step phase step) code) :=
  (tidy_tap seat transient rfl rfl rfl rfl).andThen (tidy_seatCall seat rfl)

theorem tidy_notches (code : UInt8) (count : Nat) :
    Tidy (.step phase step) (notches seat (.step phase step) code count) := by
  induction count with
  | zero => exact tidy_done
  | succ count ih => exact (tidy_tap seat transient rfl rfl rfl rfl).andThen ih

theorem tidy_scrollWork (dx dy : Int) :
    Tidy (.step phase step) (scrollWork seat (.step phase step) dx dy) := by
  have axis : ∀ (offset : Int) (positive negative : Input.PointerButton),
      Tidy (.step phase step) (scrollAxis seat (.step phase step) offset positive negative) := by
    intro offset positive negative
    rw [scrollAxis]
    split
    · exact tidy_done
    · exact tidy_notches seat transient _ _
  exact (axis _ _ _).andThen ((axis _ _ _).andThen (tidy_seatCall seat rfl))

theorem tidy_keyTap (key : String) :
    Tidy (.step phase step) ((seatCall seat (.step phase step) (.keyByName key true)).andThen
      (driveKey seat (.step phase step) key false)) := by
  rw [driveKey, ← Attempt.andThen_assoc]
  exact (tidy_tap seat transient rfl rfl rfl rfl).andThen (tidy_seatCall seat rfl)

/-! ## Single presses and releases -/

omit transient

theorem grows_driveButton (code : UInt8) (pressed : Bool) (wire : Wire σ)
    (taken : pressed = true → holds (.button code)) :
    Grows origin holds wire (driveButton seat origin code pressed wire).2 := by
  refine grows_andThen (fun wire => grows_seatCall seat _ wire ?_) (grows_flush seat) wire
  intro hold isTake
  cases pressed with
  | true =>
    cases isTake
    exact taken rfl
  | false => cases isTake

theorem grows_driveKey (key : String) (pressed : Bool) (wire : Wire σ)
    (taken : pressed = true → holds (.key key)) :
    Grows origin holds wire (driveKey seat origin key pressed wire).2 := by
  refine grows_andThen (fun wire => grows_seatCall seat _ wire ?_) (grows_flush seat) wire
  intro hold isTake
  cases pressed with
  | true =>
    cases isTake
    exact taken rfl
  | false => cases isTake

/-! ## Walks -/

theorem grows_advanceLoop (dwell : Milliseconds) (now : TimePoint) (remaining : Nat)
    (state : CommandState) (wire : Wire σ) :
    Grows origin holds wire (advanceLoop seat origin dwell now remaining state wire).2.2 ∧
      ∃ emitted overshoot, (advanceLoop seat origin dwell now remaining state wire).2.1 =
        { state with emitted := emitted, worstOvershoot := overshoot } := by
  induction remaining generalizing state wire with
  | zero => exact ⟨Grows.refl wire, state.emitted, state.worstOvershoot, rfl⟩
  | succ remaining ih =>
    rw [advanceLoop]
    split
    · exact ⟨Grows.refl wire, state.emitted, state.worstOvershoot, rfl⟩
    split
    · exact ⟨Grows.refl wire, state.emitted, state.worstOvershoot, rfl⟩
    rename_i point _
    dsimp only
    split
    · obtain ⟨grows, emitted, overshoot, stateEq⟩ := ih
        { state with
          emitted := state.emitted + 1
          worstOvershoot := max state.worstOvershoot (now - waypointInstant state dwell) }
        (warpTo seat origin point wire).2
      exact ⟨(grows_warpTo seat point wire).trans grows, emitted, overshoot, stateEq⟩
    · exact ⟨grows_warpTo seat point wire, state.emitted, state.worstOvershoot, rfl⟩

theorem grows_placeStart (start : Option Point) (wire : Wire σ) :
    Grows origin holds wire (placeStart seat origin start wire).2 := by
  cases start with
  | none => exact Grows.refl wire
  | some point => exact grows_warpTo seat point wire

/-- A walk that begins leaves the flags alone and is not done yet. -/
theorem grows_beginWalk (state : CommandState) (options : Input.DragOptions)
    (start : Option Point) (walk : List Point) (wire : Wire σ) :
    Grows origin holds wire (beginWalk seat origin state options start walk wire).2.2 ∧
      (beginWalk seat origin state options start walk wire).1 ≠ .success ∧
      ∃ waypoints deadline, (beginWalk seat origin state options start walk wire).2.1 =
        { state with waypoints := waypoints, deadline := deadline } := by
  rw [beginWalk]
  split
  · exact ⟨Grows.refl wire, Status.noConfusion, state.waypoints, state.deadline, rfl⟩
  dsimp only
  split
  · exact ⟨grows_placeStart seat start wire, Status.noConfusion, walk, _, rfl⟩
  · exact ⟨grows_placeStart seat start wire, Status.noConfusion, state.waypoints,
      state.deadline, rfl⟩

/-! ## Entering -/

/-- A scratch before its command does anything. -/
structure CommandState.Idle (state : CommandState) : Prop where
  held : state.held = false
  documentHold : state.documentHold = false
  overlayGrabHeld : state.overlayGrabHeld = false

theorem CommandState.Idle.not_holds (idle : state.Idle) (command : Command) (hold : Hold) :
    ¬entryHolds command state hold := by
  cases command <;> cases hold <;>
    simp [entryHolds, CommandState.flag, idle.held, idle.documentHold, idle.overlayGrabHeld]

/-- What entering a command may do to its scratch and to the log. -/
structure Enters (step : Step) (state : CommandState) (wire : Wire σ) (answer : Answer σ) :
    Prop where
  grows : Grows (.step .enter step) (entryHolds step.command answer.2.1) wire answer.2.2
  entered : answer.2.1.entered = state.entered
  waiting : answer.1 = .running → isTimed step.command = true
  flagged : ∀ hold, holdOf step.command = some hold → answer.1 = .success →
    answer.2.1.flag hold = true
  grabbed : answer.2.1.overlayGrabHeld = true → holdOf step.command = some .capture
  capable : ∀ hold, entryHolds step.command answer.2.1 hold →
    SeatRunner.capabilityAvailable seat (kindOf step.command) = true
  presses : ∀ hold, holdOf step.command = some hold → answer.2.1.flag hold = true →
    ∃ records, answer.2.2.log = wire.log ++ records ∧ ∃ record ∈ records, record.takes = some hold
  completes : ∀ hold, SeatRunner.liftedBy step.command = some hold → answer.1 = .success →
    pendingIn hold answer.2.2.log = false

/-- A plain body raises no flag. -/
theorem enters_plain (plain : isPlain step.command = true) (idle : state.Idle)
    (timed : answer.1 = .running → isTimed step.command = true)
    (grows : ∀ holds, Grows (.step .enter step) holds wire answer.2.2)
    (entered : answer.2.1.entered = state.entered)
    (overlayGrabHeld : answer.2.1.overlayGrabHeld = state.overlayGrabHeld) :
    Enters seat step state wire answer := by
  obtain ⟨noHold, noLift, noHolds⟩ := plain_facts plain
  refine ⟨grows _, entered, timed, ?_, ?_, ?_, ?_, ?_⟩
  · intro hold impossible
    rw [noHold] at impossible
    cases impossible
  · intro grabbed
    rw [overlayGrabHeld, idle.overlayGrabHeld] at grabbed
    cases grabbed
  · exact fun hold holds => absurd holds (noHolds _ hold)
  · intro hold impossible
    rw [noHold] at impossible
    cases impossible
  · intro hold impossible
    rw [noLift] at impossible
    cases impossible

theorem enters_failed (wire : Wire σ) (idle : state.Idle) :
    Enters seat step state wire (failed state wire) := by
  refine ⟨Grows.refl wire, rfl, ?_, ?_, ?_, ?_, ?_, ?_⟩
  · nofun
  · intro hold _ impossible
    cases impossible
  · intro grabbed
    cases idle.overlayGrabHeld.symm.trans grabbed
  · exact fun hold holds => absurd holds (idle.not_holds step.command hold)
  · intro hold _ flagged
    have flag : state.flag hold = true := flagged
    cases hold with
    | button _ | key _ => cases idle.documentHold.symm.trans flag
    | capture => cases idle.overlayGrabHeld.symm.trans flag
  · intro hold _ impossible
    cases impossible

/-- A body behind a capability of the seat. -/
theorem enters_available (idle : state.Idle)
    (enters : capability = true → Enters seat step state wire (body state wire)) :
    Enters seat step state wire (available capability body state wire) := by
  rw [available]
  split
  · rename_i isAvailable
    exact enters isAvailable
  · exact enters_failed seat wire idle

theorem settled_not_running (attempt : Attempt σ) (state : CommandState) (wire : Wire σ) :
    (settled attempt state wire).1 ≠ .running := by
  rw [settled]
  split <;> exact Status.noConfusion

/-- An instant plain body. -/
theorem enters_settled (plain : isPlain step.command = true) (idle : state.Idle)
    (grows : ∀ holds, Grows (.step .enter step) holds wire (attempt wire).2) :
    Enters seat step state wire (settled attempt state wire) :=
  enters_plain seat plain idle
    (fun running => absurd running (settled_not_running attempt state wire)) grows rfl rfl

/-- The one call of a body on something that is not held. -/
theorem grows_plainCall (request : SeatCall) (noTake : request.takes = none) (wire : Wire σ) :
    Grows origin holds wire (seatCall seat origin request wire).2 := by
  apply grows_seatCall
  intro hold impossible
  rw [noTake] at impossible
  cases impossible

theorem enters_handled (plain : isPlain step.command = true) (idle : state.Idle) (handle : String)
    (request : SeatCall) (noTake : request.takes = none) :
    Enters seat step state wire (handled seat (.step .enter step) handle request state wire) := by
  rw [handled]
  split
  · exact enters_failed seat wire idle
  · exact enters_settled seat plain idle fun _ => grows_plainCall seat request noTake wire

/-- A body that raises its flag and then makes the press that takes the hold. -/
theorem enters_press {state raised : CommandState} {press : SeatCall}
    (isHold : holdOf step.command = some hold)
    (capable : SeatRunner.capabilityAvailable seat (kindOf step.command) = true)
    (presses : press.takes = some hold) (raisedEntered : raised.entered = state.entered)
    (raisedFlag : raised.flag hold = true)
    (grabbed : raised.overlayGrabHeld = true → holdOf step.command = some .capture)
    (restGrows : ∀ wire, Grows (.step .enter step) (entryHolds step.command raised) wire
      (rest wire).2) :
    Enters seat step state wire
      (settled ((seatCall seat (.step .enter step) press).andThen rest) raised wire) := by
  have grows : Grows (.step .enter step) (entryHolds step.command raised) wire
      (((seatCall seat (.step .enter step) press).andThen rest) wire).2 := by
    refine grows_andThen (fun wire => grows_seatCall seat press wire ?_) restGrows wire
    intro other isTake
    rw [presses, some.injEq] at isTake
    rw [← isTake]
    exact (entryHolds_iff isHold).mpr ⟨rfl, raisedFlag⟩
  refine ⟨grows, raisedEntered, ?_, ?_, grabbed, fun _ _ => capable, ?_, ?_⟩
  · exact fun running => absurd running (settled_not_running _ _ _)
  · intro other isOther _
    rw [isHold, some.injEq] at isOther
    rw [← isOther]
    exact raisedFlag
  · intro other isOther _
    rw [isHold, some.injEq] at isOther
    have pressed : (Record.call (.step .enter step) press
        (seat.call press wire.seat).1).takes = some other := by
      rw [← isOther]
      exact presses
    simp only [settled, Attempt.andThen]
    split
    · obtain ⟨records, logEq, _, _⟩ := restGrows (seatCall seat (.step .enter step) press wire).2
      exact ⟨_ :: records, logEq.trans (append_assoc _ [_] _), _, mem_cons_self, pressed⟩
    · exact ⟨[_], rfl, _, mem_singleton_self _, pressed⟩
  · intro other impossible
    rw [(holdOf_facts isHold).2] at impossible
    cases impossible

/-- A call that lifts a hold, with untouched work after it, leaves the hold
lifted. -/
theorem lifted_andThen (lifts : request.lifts = some hold) (noTake : request.takes = none)
    (restGrows : ∀ wire : Wire σ, ∃ records, (rest wire).2.log = wire.log ++ records ∧
      ∀ record ∈ records, record.takes ≠ some hold ∧ record.lifts ≠ some hold) (wire : Wire σ) :
    pendingIn hold (((seatCall seat origin request).andThen rest) wire).2.log = false := by
  have liftedNow : pendingIn hold (seatCall seat origin request wire).2.log = false := by
    have logEq : (seatCall seat origin request wire).2.log =
        wire.log ++ [.call origin request (seat.call request wire.seat).1] := rfl
    rw [logEq, pendingIn_append]
    simp [pendingFrom, trackHold, Record.takes, Record.lifts, lifts, noTake]
  rw [Attempt.andThen]
  split
  · obtain ⟨records, logEq, quiet⟩ := restGrows (seatCall seat origin request wire).2
    rw [logEq, pendingIn_append, pendingFrom_quiet quiet]
    exact liftedNow
  · exact liftedNow

theorem flush_quiet (hold : Hold) (wire : Wire σ) :
    ∃ records, (seatFlush seat origin wire).2.log = wire.log ++ records ∧
      ∀ record ∈ records, record.takes ≠ some hold ∧ record.lifts ≠ some hold :=
  ⟨[_], rfl, by simp [Record.takes, Record.lifts, SeatCall.takes, SeatCall.lifts]⟩

theorem lifted_driveButton (code : UInt8) (wire : Wire σ) :
    pendingIn (.button code) (driveButton seat origin code false wire).2.log = false :=
  lifted_andThen seat rfl rfl (flush_quiet seat _) wire

theorem lifted_driveKey (key : String) (wire : Wire σ) :
    pendingIn (.key key) (driveKey seat origin key false wire).2.log = false :=
  lifted_andThen seat rfl rfl (flush_quiet seat _) wire

theorem lifted_seatCall (lifts : request.lifts = some hold) (noTake : request.takes = none)
    (wire : Wire σ) : pendingIn hold (seatCall seat origin request wire).2.log = false := by
  have logEq : (seatCall seat origin request wire).2.log =
      wire.log ++ [.call origin request (seat.call request wire.seat).1] := rfl
  rw [logEq, pendingIn_append]
  simp [pendingFrom, trackHold, Record.takes, Record.lifts, lifts, noTake]

/-- A body that lifts another step's hold. -/
theorem enters_lift {state after : CommandState}
    (isLift : SeatRunner.liftedBy step.command = some hold)
    (entered : after.entered = state.entered) (noGrab : after.overlayGrabHeld = false)
    (grows : ∀ holds, Grows (.step .enter step) holds wire (attempt wire).2)
    (lifted : pendingIn hold (attempt wire).2.log = false) :
    Enters seat step state wire (settled attempt after wire) := by
  have noHold : holdOf step.command = none ∧
      ∀ state other, ¬entryHolds step.command state other := by
    cases command : step.command <;> rw [command] at isLift <;>
      first | cases isLift; done | exact ⟨rfl, fun _ _ holds => by cases holds.1⟩
  refine ⟨grows _, entered, ?_, ?_, ?_, ?_, ?_, ?_⟩
  · exact fun running => absurd running (settled_not_running _ _ _)
  · intro other impossible
    rw [noHold.1] at impossible
    cases impossible
  · intro grabbed
    cases noGrab.symm.trans grabbed
  · exact fun other holds => absurd holds (noHold.2 _ other)
  · intro other impossible
    rw [noHold.1] at impossible
    cases impossible
  intro other isOther _
  rw [isLift, some.injEq] at isOther
  rw [← isOther]
  exact lifted

/-! ## Entering a walk -/

variable (plain : isPlain step.command = true)

include plain

variable (timed : isTimed step.command = true)

include timed

theorem enters_beginWalk {before wire : Wire σ} (idle : state.Idle)
    (earlier : ∀ holds, Grows (.step .enter step) holds before wire) (options : Input.DragOptions)
    (start : Option Point) (walk : List Point) :
    Enters seat step state before
      (beginWalk seat (.step .enter step) state options start walk wire) := by
  have grows : ∀ holds : Hold → Prop, Grows (.step .enter step) holds wire
      (beginWalk seat (.step .enter step) state options start walk wire).2.2 :=
    fun _ => (grows_beginWalk seat state options start walk wire).1
  obtain ⟨_, waypoints, deadline, stateEq⟩ := (grows_beginWalk seat state options start walk
    wire : Grows (.step .enter step) (fun _ => False) wire _ ∧ _).2
  refine enters_plain seat plain idle (fun _ => timed)
    (fun holds => (earlier holds).trans (grows holds)) ?_ ?_
  · rw [stateEq]
  · rw [stateEq]

theorem enters_follow (idle : state.Idle) (path : Curve) (options : Input.DragOptions) :
    Enters seat step state wire (enterFollow seat (.step .enter step) path options state wire) := by
  rw [enterFollow]
  split
  · exact enters_failed seat wire idle
  · split
    · exact enters_failed seat wire idle
    · exact enters_beginWalk seat plain timed idle (fun _ => Grows.refl wire) _ _ _

theorem enters_move (idle : state.Idle) (start : Option Point) (target : Point)
    (options : Input.DragOptions) :
    Enters seat step state wire
      (enterMove seat (.step .enter step) start target options state wire) := by
  have resolved : (resolveOrigin seat start wire).2.log = wire.log := by
    unfold resolveOrigin
    split
    · rfl
    · split <;> rfl
  have earlier : ∀ holds, Grows (.step .enter step) holds wire (resolveOrigin seat start wire).2 :=
    fun _ => ⟨[], by rw [resolved, append_nil], by simp, by simp [pendingFrom]⟩
  unfold enterMove
  split
  · exact enters_failed seat wire idle
  dsimp only
  split
  · exact enters_plain seat plain idle (fun _ => timed) earlier rfl rfl
  · exact enters_beginWalk seat plain timed idle earlier _ _ _

omit timed plain

/-- A drag raises its flag before it presses. -/
theorem enters_drag (commandIs : step.command = .drag start target code options) (idle : state.Idle)
    (capable : seat.capabilities.pointer = true) :
    Enters seat step state wire
      (enterDrag seat (.step .enter step) start target code options state wire) := by
  have timed : isTimed step.command = true := by rw [commandIs]; rfl
  have available : SeatRunner.capabilityAvailable seat (kindOf step.command) = true := by
    rw [commandIs]
    exact capable
  have noHold : ∀ hold, holdOf step.command ≠ some hold := by
    simp [commandIs, holdOf]
  have noLift : ∀ hold, SeatRunner.liftedBy step.command ≠ some hold := by
    simp [commandIs, SeatRunner.liftedBy]
  have assemble : ∀ answer : Answer σ,
      Grows (.step .enter step) (entryHolds step.command answer.2.1) wire answer.2.2 →
      answer.2.1.entered = state.entered → answer.2.1.overlayGrabHeld = false →
      Enters seat step state wire answer := by
    intro answer grows entered noGrab
    refine ⟨grows, entered, fun _ => timed, ?_, ?_, fun _ _ => available, ?_, ?_⟩
    · exact fun hold isHold => absurd isHold (noHold hold)
    · intro grabbed
      cases noGrab.symm.trans grabbed
    · exact fun hold isHold => absurd isHold (noHold hold)
    · exact fun hold isLift => absurd isLift (noLift hold)
  rw [enterDrag]
  split
  · exact enters_failed seat wire idle
  dsimp only
  split
  · obtain ⟨grows, _, walk, deadline, stateEq⟩ := grows_beginWalk seat state options
      (some start) (waypoints seat start target options) wire
    refine assemble _ grows ?_ ?_
    · rw [stateEq]
    · rw [stateEq]
      exact idle.overlayGrabHeld
  obtain ⟨grows, _, walk, deadline, stateEq⟩ := grows_beginWalk seat state options
    (some start) (waypoints seat start target options) wire
  refine assemble _ (grows.trans (grows_driveButton seat code true _ ?_)) ?_ ?_
  · rw [commandIs]
    exact fun _ => ⟨rfl, rfl⟩
  · rw [stateEq]
  · rw [stateEq]
    exact idle.overlayGrabHeld

/-! ## Every command -/

theorem andThen_done (attempt : Attempt σ) : attempt.andThen Attempt.done = attempt := by
  funext wire
  rw [Attempt.andThen]
  split
  · rename_i succeeded
    exact Prod.ext succeeded.symm rfl
  · rename_i failed
    rw [not_eq_true] at failed
    exact Prod.ext failed.symm rfl

/-- Every command, entered on an idle scratch. -/
theorem enterCommand_enters (step : Step) {state : CommandState} (wire : Wire σ)
    (idle : state.Idle) :
    Enters seat step state wire
      (enterCommand seat (.step .enter step) step.command state wire) := by
  have known : ∀ {command : Command} {test : Command → Bool}, step.command = command →
      test command = true → test step.command = true :=
    fun commandIs holds => commandIs ▸ holds
  cases commandIs : step.command with
  | wait duration =>
    simp only [enterCommand]
    split
    · exact enters_failed seat wire idle
    · exact enters_plain seat (known commandIs rfl) idle (fun _ => known commandIs rfl)
        (fun _ => Grows.refl wire) rfl rfl
  | warp target =>
    exact enters_available seat idle fun _ =>
      enters_settled seat (known commandIs rfl) idle fun _ => grows_warpTo seat target wire
  | click code =>
    exact enters_available seat idle fun _ =>
      enters_settled seat (known commandIs rfl) idle fun _ =>
        (tidy_clickWork seat (known commandIs rfl) code).grows wire
  | clickAt position code =>
    exact enters_available seat idle fun _ =>
      enters_settled seat (known commandIs rfl) idle fun _ => ((tidy_warpTo seat position).andThen
        (tidy_clickWork seat (known commandIs rfl) code)).grows wire
  | scroll dx dy =>
    exact enters_available seat idle fun _ =>
      enters_settled seat (known commandIs rfl) idle fun _ =>
        (tidy_scrollWork seat (known commandIs rfl) dx dy).grows wire
  | key key =>
    exact enters_available seat idle fun _ =>
      enters_settled seat (known commandIs rfl) idle fun _ =>
        (tidy_keyTap seat (known commandIs rfl) key).grows wire
  | press code =>
    have isHold : holdOf step.command = some (.button code) := by rw [commandIs]; rfl
    rw [enterCommand]
    refine enters_available seat idle fun capable => ?_
    refine enters_press seat isHold (by rw [commandIs]; exact capable) ?_ ?_ ?_ ?_ ?_
    · rfl
    · rfl
    · rfl
    · exact fun grabbed => Bool.noConfusion (idle.overlayGrabHeld.symm.trans grabbed)
    · exact grows_flush seat
  | keyDown key =>
    have isHold : holdOf step.command = some (.key key) := by rw [commandIs]; rfl
    rw [enterCommand]
    refine enters_available seat idle fun capable => ?_
    refine enters_press seat isHold (by rw [commandIs]; exact capable) ?_ ?_ ?_ ?_ ?_
    · rfl
    · rfl
    · rfl
    · exact fun grabbed => Bool.noConfusion (idle.overlayGrabHeld.symm.trans grabbed)
    · exact grows_flush seat
  | overlayGrab =>
    have isHold : holdOf step.command = some .capture := by rw [commandIs]; rfl
    rw [enterCommand]
    refine enters_available seat idle fun capable => ?_
    rw [← andThen_done (seatCall seat (.step .enter step) .overlayGrab)]
    refine enters_press seat isHold (by rw [commandIs]; exact capable) ?_ ?_ ?_ ?_ ?_
    · rfl
    · rfl
    · rfl
    · exact fun _ => isHold
    · exact Grows.refl
  | release code =>
    rw [enterCommand]
    refine enters_available seat idle fun _ => ?_
    refine enters_lift seat (by rw [commandIs]; rfl) rfl idle.overlayGrabHeld ?_
      (lifted_driveButton seat code wire)
    intro holds
    exact grows_driveButton seat code false wire nofun
  | keyUp key =>
    rw [enterCommand]
    refine enters_available seat idle fun _ => ?_
    refine enters_lift seat (by rw [commandIs]; rfl) rfl idle.overlayGrabHeld ?_
      (lifted_driveKey seat key wire)
    intro holds
    exact grows_driveKey seat key false wire nofun
  | overlayRelease =>
    rw [enterCommand]
    refine enters_available seat idle fun _ => ?_
    exact enters_lift seat (by rw [commandIs]; rfl) rfl rfl
      (fun _ => grows_plainCall seat .overlayRelease rfl wire)
      (lifted_seatCall seat rfl rfl wire)
  | type text | overlayAdd handle shape | overlayClear =>
    exact enters_available seat idle fun _ =>
      enters_settled seat (known commandIs rfl) idle fun _ => grows_plainCall seat _ rfl wire
  | move start target options =>
    exact enters_available seat idle fun _ =>
      enters_move seat (known commandIs rfl) (known commandIs rfl) idle start target options
  | follow path options =>
    exact enters_available seat idle fun _ =>
      enters_follow seat (known commandIs rfl) (known commandIs rfl) idle path options
  | drag start target code options =>
    exact enters_available seat idle fun capable => enters_drag seat commandIs idle capable
  | capture output locator =>
    rw [enterCommand]
    refine enters_available seat idle fun _ => ?_
    split
    · exact enters_failed seat wire idle
    · exact enters_plain seat (known commandIs rfl) idle (fun _ => known commandIs rfl)
        (fun _ => grows_plainCall seat _ rfl wire) rfl rfl
  | overlayUpdate handle shape | overlayRemove handle | overlayAttach handle offset
  | overlayDetach handle =>
    exact enters_available seat idle fun _ =>
      enters_handled seat (known commandIs rfl) idle handle _ rfl

/-! ## Ticking -/

/-- What ticking a command that runs on may do. -/
structure Ticks (step : Step) (state : CommandState) (wire : Wire σ) (answer : Answer σ) :
    Prop where
  grows : ∀ holds, Grows (.step .tick step) holds wire answer.2.2
  entered : answer.2.1.entered = state.entered
  documentHold : answer.2.1.documentHold = state.documentHold
  overlayGrabHeld : answer.2.1.overlayGrabHeld = state.overlayGrabHeld
  only : ∀ hold, entryHolds step.command answer.2.1 hold → entryHolds step.command state hold
  keeps : ∀ hold, entryHolds step.command state hold →
    entryHolds step.command answer.2.1 hold ∨ pendingIn hold answer.2.2.log = false

/-- A tick that leaves the flags of the scratch alone. -/
theorem ticks_same (grows : ∀ holds, Grows (.step .tick step) holds wire answer.2.2)
    (stateEq : ∃ emitted overshoot, answer.2.1 =
      { state with emitted := emitted, worstOvershoot := overshoot }) :
    Ticks step state wire answer := by
  obtain ⟨emitted, overshoot, stateEq⟩ := stateEq
  have same : ∀ hold, entryHolds step.command answer.2.1 hold ↔
      entryHolds step.command state hold := by
    intro hold
    rw [stateEq]
    cases step.command <;> cases hold <;> rfl
  refine ⟨grows, ?_, ?_, ?_, fun hold => (same hold).mp, fun hold holds =>
    .inl ((same hold).mpr holds)⟩
  · rw [stateEq]
  · rw [stateEq]
  · rw [stateEq]

theorem ticks_available (ticks : Ticks step state wire (body state wire)) :
    Ticks step state wire (available capability body state wire) := by
  rw [available]
  split
  · exact ticks
  · exact ticks_same (fun _ => Grows.refl wire) ⟨state.emitted, state.worstOvershoot, rfl⟩

theorem ticks_advanceWalk (state : CommandState) (dwell : Milliseconds) (now : TimePoint)
    (wire : Wire σ) :
    Ticks step state wire (advanceWalk seat (.step .tick step) state dwell now wire) :=
  ticks_same
    (fun _ => (grows_advanceLoop seat dwell now _ state wire).1)
    (grows_advanceLoop seat dwell now _ state wire :
      Grows (.step .tick step) (fun _ => False) wire _ ∧ _).2

/-- A drag lowers its flag only with the release behind it. -/
theorem ticks_drag (commandIs : step.command = .drag start target code options) (now : TimePoint)
    (state : CommandState) (wire : Wire σ) :
    Ticks step state wire (tickDrag seat (.step .tick step) code options now state wire) := by
  have walked : Ticks step state wire
      (advanceWalk seat (.step .tick step) state options.stepDwell now wire) :=
    ticks_advanceWalk seat state options.stepDwell now wire
  have released : ∀ holds : Hold → Prop, ∀ wire : Wire σ, Grows (.step .tick step) holds wire
      (driveButton seat (.step .tick step) code false wire).2 :=
    fun _ wire => grows_driveButton seat code false wire fun impossible =>
      Bool.noConfusion impossible
  rw [tickDrag]
  dsimp only
  split
  · exact walked
  split
  · refine ⟨fun holds => (walked.grows holds).trans (released holds _), walked.entered,
      walked.documentHold, walked.overlayGrabHeld, ?_, ?_⟩
    · rw [commandIs]
      rintro hold ⟨_, impossible⟩
      cases impossible
    · rw [commandIs]
      rintro hold ⟨rfl, _⟩
      exact .inr (lifted_driveButton seat code _)
  · exact ⟨fun holds => (walked.grows holds).trans (released holds _), walked.entered,
      walked.documentHold, walked.overlayGrabHeld, walked.only, fun hold holds => by
        rcases walked.keeps hold holds with still | lifted
        · exact .inl still
        · rw [commandIs] at holds
          obtain ⟨rfl, _⟩ := holds
          exact .inr (lifted_driveButton seat code _)⟩

theorem tickCommand_ticks (timed : isTimed step.command = true) (now : TimePoint)
    (state : CommandState) (wire : Wire σ) :
    Ticks step state wire (tickCommand seat (.step .tick step) step.command now state wire) := by
  cases commandIs : step.command with
  | wait duration =>
    rw [tickCommand]
    dsimp only
    split
    · exact ticks_same (fun _ => Grows.refl wire) ⟨state.emitted, state.worstOvershoot, rfl⟩
    · exact ticks_same (fun _ => Grows.refl wire) ⟨state.emitted, now - state.deadline, rfl⟩
  | move start target options | follow path options =>
    exact ticks_available (ticks_advanceWalk seat state _ now wire)
  | drag start target code options =>
    exact ticks_available (ticks_drag seat commandIs now state wire)
  | capture output locator =>
    apply ticks_available
    have quiet : ∀ holds : Hold → Prop, Grows (.step .tick step) holds wire
        { wire with seat := (seat.pollCapture wire.seat).2 } :=
      fun _ => ⟨[], (append_nil _).symm, by simp, by simp [pendingFrom]⟩
    dsimp only
    split <;> exact ticks_same quiet ⟨state.emitted, state.worstOvershoot, rfl⟩
  | _ =>
    rw [commandIs] at timed
    cases timed

/-! ## Exiting -/

/-- What exiting a command may do. -/
structure Closes (step : Step) (state : CommandState) (wire : Wire σ)
    (closed : CommandState × Wire σ) : Prop where
  grows : ∀ holds, Grows (.step .exit step) holds wire closed.2
  entered : closed.1.entered = state.entered
  only : ∀ hold, entryHolds step.command closed.1 hold → entryHolds step.command state hold
  grabs : closed.1.overlayGrabHeld = true → state.overlayGrabHeld = true
  lifts : SeatRunner.capabilityAvailable seat (kindOf step.command) = true →
    ∀ hold, entryHolds step.command state hold →
      state.interrupted = true ∨ isTimed step.command = true →
      ¬entryHolds step.command closed.1 hold ∧ pendingIn hold closed.2.log = false
  silent : ∀ hold, holdOf step.command = some hold →
    ¬(state.flag hold = true ∧ state.interrupted = true) → closed = (state, wire)

/-- An exit that does nothing, for a reason. -/
theorem closes_same (reason : SeatRunner.capabilityAvailable seat (kindOf step.command) = true →
      ∀ hold, entryHolds step.command state hold →
        ¬(state.interrupted = true ∨ isTimed step.command = true)) :
    Closes seat step state wire (state, wire) :=
  ⟨fun _ => Grows.refl wire, rfl, fun _ holds => holds, fun grabs => grabs,
    fun capable hold holds due => absurd due (reason capable hold holds), fun _ _ _ => rfl⟩

/-- An exit that lowers the flag of its hold and makes the release. -/
theorem closes_lift (grows : ∀ holds, Grows (.step .exit step) holds wire after)
    (entered : lowered.entered = state.entered)
    (grabs : lowered.overlayGrabHeld = true → state.overlayGrabHeld = true)
    (onlyHold : ∀ other, entryHolds step.command state other → other = hold)
    (gone : ∀ other, ¬entryHolds step.command lowered other)
    (lifted : pendingIn hold after.log = false)
    (raised : ∀ other, holdOf step.command = some other →
      state.flag other = true ∧ state.interrupted = true) :
    Closes seat step state wire (lowered, after) := by
  refine ⟨grows, entered, fun other holds => absurd holds (gone other), grabs, ?_, ?_⟩
  · intro _ other holds _
    refine ⟨gone other, ?_⟩
    rw [onlyHold other holds]
    exact lifted
  · intro other isHold notRaised
    exact absurd (raised other isHold) notRaised

/-- The exit of a command that holds lets go of it when it was interrupted. -/
theorem closes_hold {capable : Prop} [Decidable capable] (isHold : holdOf step.command = some hold)
    (needs : SeatRunner.capabilityAvailable seat (kindOf step.command) = true → capable)
    (grows : ∀ holds, Grows (.step .exit step) holds wire after)
    (entered : lowered.entered = state.entered)
    (grabs : lowered.overlayGrabHeld = true → state.overlayGrabHeld = true)
    (low : lowered.flag hold = false) (lifted : pendingIn hold after.log = false) :
    Closes seat step state wire
      (if capable ∧ state.flag hold = true ∧ state.interrupted = true then (lowered, after)
        else (state, wire)) := by
  split
  · rename_i active
    apply closes_lift seat grows entered grabs
    · exact fun other holds => ((entryHolds_iff isHold).mp holds).1
    · intro other holds
      exact Bool.noConfusion (low.symm.trans ((entryHolds_iff isHold).mp holds).2)
    · exact lifted
    · intro other same
      rw [← some.inj (isHold.symm.trans same)]
      exact active.2
  · rename_i idle
    refine closes_same seat fun available other holds due => ?_
    rcases (entryHolds_iff isHold).mp holds with ⟨rfl, flagged⟩
    rcases due with interrupted | timed
    · exact idle ⟨needs available, flagged, interrupted⟩
    · rw [(holdOf_facts isHold).1] at timed
      cases timed

theorem exitCommand_closes (state : CommandState) (wire : Wire σ) :
    Closes seat step state wire (exitCommand seat (.step .exit step) step.command state wire) := by
  have released : ∀ (code : UInt8) (holds : Hold → Prop), Grows (.step .exit step) holds wire
      (driveButton seat (.step .exit step) code false wire).2 :=
    fun code _ => grows_driveButton seat code false wire fun impossible =>
      Bool.noConfusion impossible
  have keyReleased : ∀ (key : String) (holds : Hold → Prop), Grows (.step .exit step) holds
      wire (driveKey seat (.step .exit step) key false wire).2 :=
    fun key _ => grows_driveKey seat key false wire fun impossible =>
      Bool.noConfusion impossible
  cases commandIs : step.command with
  | drag start target code options =>
    simp only [exitCommand]
    split
    · refine closes_lift seat (released code) rfl (fun grabs => grabs) ?_ ?_
        (lifted_driveButton seat code wire) ?_
      · rw [commandIs]
        exact fun other holds => holds.1
      · rw [commandIs]
        rintro other ⟨_, impossible⟩
        cases impossible
      · rw [commandIs]
        intro other impossible
        cases impossible
    · rename_i idle
      refine closes_same seat ?_
      rw [commandIs]
      exact fun capable hold holds _ => idle ⟨capable, holds.2⟩
  | press code =>
    have isHold : holdOf step.command = some (.button code) := by rw [commandIs]; rfl
    rw [exitCommand]
    refine closes_hold seat isHold ?_ (released code) ?_ ?_ ?_ (lifted_driveButton seat code wire)
    · rw [commandIs]
      exact id
    · rfl
    · exact id
    · rfl
  | keyDown key =>
    have isHold : holdOf step.command = some (.key key) := by rw [commandIs]; rfl
    rw [exitCommand]
    refine closes_hold seat isHold ?_ (keyReleased key) ?_ ?_ ?_ (lifted_driveKey seat key wire)
    · rw [commandIs]
      exact id
    · rfl
    · exact id
    · rfl
  | overlayGrab =>
    have isHold : holdOf step.command = some .capture := by rw [commandIs]; rfl
    rw [exitCommand]
    refine closes_hold seat isHold ?_ (fun _ => grows_plainCall seat .overlayRelease rfl wire)
      ?_ ?_ ?_ (lifted_seatCall seat rfl rfl wire)
    · rw [commandIs]
      exact id
    · rfl
    · exact nofun
    · rfl
  | _ =>
    refine closes_same seat ?_
    rw [commandIs]
    rintro _ hold ⟨impossible, _⟩
    cases impossible

end

end Grab.Kernel
