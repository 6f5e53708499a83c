import Grab.Sequence.Player.Elapsed
import Grab.Sequence.Player.Hint
import Grab.Sequence.Seat.Contract

/-!
# Steps that run on

What a step that is still running left in its scratch, and from it: a tick before the
time the seat runner asked to be woken at does nothing, and a wait answers success only
when its time is over.
-/

namespace Grab.Kernel

open Grab.Sequence SeatRunner Function Option Bool

section

variable {σ : Type} {sequence : Sequence} {seat : Seat σ} {trace : List Event}
  {protocol : Protocol} {state : SeatState σ}

/-! ## What a running step knows -/

/-- A property of the entry of a running step, with the time it was entered: true after
an entry that answers running, and kept by every tick that does. -/
structure Lasting (seat : Seat σ) (holds : Step → TimePoint → Entry → Prop) : Prop where
  enters : ∀ step now (before : SeatState σ), (enter seat step now before).1 = .running →
    holds step now ((enter seat step now before).2.entries step.id.index)
  ticks : ∀ step entered now (before : SeatState σ),
    (before.entries step.id.index).used = true →
    holds step entered (before.entries step.id.index) →
    (tick seat step now before).1 = .running →
    holds step entered ((tick seat step now before).2.entries step.id.index)

/-- The property holds of every running step. -/
def Known (sequence : Sequence) (holds : Step → TimePoint → Entry → Prop)
    (trace : List Event) (protocol : Protocol) (state : SeatState σ) : Prop :=
  ∀ id step, protocol.isOpen id = true → protocol.due ≠ some id →
    sequence.find id = some step →
    ∃ entered, lastEntry id trace = some entered ∧ holds step entered (state.entries id.index)

variable {holds : Step → TimePoint → Entry → Prop} {scratch : CommandState} {origin : Origin}
  {command : Command} {now : TimePoint} {wire : Wire σ}

theorem known_step (built : sequence.Built) (lasting : Lasting seat holds) {next : Protocol}
    {event : Event} {after : SeatState σ} (accounted : Accounted sequence seat trace protocol state)
    (known : Known sequence holds trace protocol state) (legal : protocol.next event = some next)
    (answers : Answers sequence (seatRunner seat) state event after) :
    Known sequence holds (trace ++ [event]) next after := by
  cases answers.exchange legal with
  | @enter step now statuses found idle _ =>
    have spec := enter_entered seat step now state
    intro other otherStep isOpen notDue otherFound
    by_cases same : other = step.id
    · subst same
      obtain rfl : step = otherStep := some.inj (found.symm.trans otherFound)
      have running : (enter seat step now state).1 = .running := by
        by_contra answeredNow
        exact notDue (if_neg answeredNow)
      refine ⟨now, ?_, lasting.enters step now state running⟩
      rw [lastEntry_enter, if_pos rfl]
    · dsimp only at isOpen
      rw [update_of_ne same] at isOpen
      rcases known other otherStep isOpen (by simp [idle]) otherFound with
        ⟨entered, last, holdsHere⟩
      refine ⟨entered, ?_, ?_⟩
      · rw [lastEntry_enter, if_neg (Ne.symm same)]
        exact last
      · rw [(entries_elsewhere built found spec.elsewhere).2 otherFound same]
        exact holdsHere
  | @tick step now found idle isOpenHere =>
    have entry := accounted.entry found isOpenHere
    have spec := tick_ticked seat (accounted.timed found idle isOpenHere) now entry.used
      entry.entered
    intro other otherStep isOpen notDue otherFound
    rcases known other otherStep isOpen (by simp [idle]) otherFound with
      ⟨entered, last, holdsHere⟩
    refine ⟨entered, ?_, ?_⟩
    · rw [lastEntry_quiet rfl]
      exact last
    by_cases same : other = step.id
    · subst same
      obtain rfl : step = otherStep := some.inj (found.symm.trans otherFound)
      have running : (tick seat step now state).1 = .running := by
        by_contra answeredNow
        exact notDue (if_neg answeredNow)
      exact lasting.ticks step entered now state entry.used holdsHere running
    · rw [(entries_elsewhere built found spec.elsewhere).2 otherFound same]
      exact holdsHere
  | join | jump =>
    intro other otherStep isOpen notDue otherFound
    rw [lastEntry_quiet rfl]
    exact known other otherStep isOpen notDue otherFound
  | @exit step now found isOpenHere turn =>
    have spec := accounted.exited found isOpenHere now
    intro other otherStep isOpen _ otherFound
    dsimp only at isOpen
    have same : other ≠ step.id := by
      rintro rfl
      rw [update_self] at isOpen
      cases isOpen
    rw [update_of_ne same] at isOpen
    have notDue : protocol.due ≠ some other := by
      rcases turn with idle | dueHere
      · simp [idle]
      · rw [dueHere]
        exact fun equal => same (some.inj equal).symm
    rw [lastEntry_quiet rfl, (entries_elsewhere built found spec.elsewhere).2 otherFound same]
    exact known other otherStep isOpen notDue otherFound
  | @releaseHolds step found _ isClosed =>
    have spec := accounted.relieved found
    intro other otherStep isOpen notDue otherFound
    have same : other ≠ step.id := by
      rintro rfl
      rw [isClosed] at isOpen
      cases isOpen
    rw [lastEntry_quiet rfl, (entries_elsewhere built found spec.elsewhere).2 otherFound same]
    exact known other otherStep isOpen notDue otherFound

theorem Conversation.known (built : sequence.Built) {start : σ} (lasting : Lasting seat holds)
    (conversation : Conversation sequence (seatRunner seat) (SeatState.fresh start) trace
      protocol state) : Known sequence holds trace protocol state := by
  induction conversation with
  | start => exact fun id step impossible => absurd impossible false_ne_true
  | step earlier legal answers ih =>
    exact known_step built lasting (earlier.accounted built) ih legal answers

/-! ## Walks and waits -/

/-- The commands that walk the pointer along waypoints. -/
def isWalk (command : Command) : Bool :=
  match command with
  | .move .. | .follow .. | .drag .. => true
  | _ => false

/-- What is known of a running step. -/
structure Waiting (seat : Seat σ) (step : Step) (entered : TimePoint) (entry : Entry) :
    Prop where
  status : entry.lastStatus = .running
  pointer : isWalk step.command = true → seat.capabilities.pointer = true
  deadline : ∀ duration, step.command = .wait duration → entry.state.deadline = entered + duration

/-- A walk that was begun has a pointer to walk. -/
theorem pointer_of_enterBody (walk : isWalk command = true)
    (running : (enterBody seat origin command now scratch wire).1 = .running) :
    seat.capabilities.pointer = true := by
  by_contra noPointer
  rw [not_eq_true] at noPointer
  have refused : (enterBody seat origin command now scratch wire).1 = .failure := by
    cases command with
    | move start target options | follow path options | drag start target code options =>
      simp only [enterBody, enterCommand, available, noPointer, failed, false_eq_true,
        if_false]
    | _ => cases walk
  rw [refused] at running
  cases running

theorem lasting_waiting (seat : Seat σ) : Lasting seat (Waiting seat) where
  enters step now before running := by
    have recorded := enter_recorded seat step now before
    have answered : (enterBody seat (.step .enter step) step.command now {} before.wire).1 =
        .running := running
    constructor
    case status => exact recorded.lastStatus.trans answered
    case pointer => exact fun walk => pointer_of_enterBody walk answered
    case deadline =>
      intro duration isWait
      rw [recorded.state]
      rw [isWait] at answered ⊢
      simp only [enterBody, enterCommand] at answered ⊢
      split at answered
      · cases answered
      · rename_i nonnegative
        rw [if_neg nonnegative]
  ticks step entered now before used waiting running := by
    have found : findEntry before step.id = some (before.entries step.id.index) := if_pos used
    have entries : (tick seat step now before).2.entries step.id.index =
        { before.entries step.id.index with
          state := (tickBody seat (.step .tick step) step.command now
            (before.entries step.id.index).state before.wire).2.1
          lastStatus := (tick seat step now before).1
          error := if (tick seat step now before).1 = .failure then
              classify seat step (tickBody seat (.step .tick step) step.command now
                (before.entries step.id.index).state before.wire).2.1
            else (before.entries step.id.index).error } := by
      rw [tick, found]
      rw [recordAnswer_entries, update_self]
    rw [entries]
    constructor
    case status => exact running
    case pointer => exact waiting.pointer
    case deadline =>
      intro duration isWait
      rw [← waiting.deadline duration isWait, isWait, tickBody]
      split
      · rfl
      simp only [tickCommand]
      split <;> rfl

/-- A tick of a walk before its next waypoint is due does nothing. -/
theorem advanceWalk_early {dwell : Milliseconds}
    (unfinished : scratch.emitted < scratch.waypoints.length)
    (early : now < waypointInstant scratch dwell) :
    advanceWalk seat origin scratch dwell now wire = (.running, scratch, wire) := by
  rw [advanceWalk]
  cases remaining : scratch.waypoints.length - scratch.emitted with
  | zero => omega
  | succ rest => rw [advanceLoop, if_pos early]

/-- A tick before the time a command asked to be woken at does nothing. -/
theorem tickCommand_early {due now : TimePoint} (wire : Wire σ)
    (hinted : dueAt command scratch = some due) (early : now < due)
    (pointer : isWalk command = true → seat.capabilities.pointer = true) :
    tickCommand seat origin command now scratch wire = (.running, scratch, wire) := by
  have walked : ∀ options, waypointDue options scratch = some due →
      advanceWalk seat origin scratch options.stepDwell now wire = (.running, scratch, wire) := by
    intro options isDue
    unfold waypointDue at isDue
    split at isDue
    · cases isDue
    rename_i unfinished
    rw [some.injEq] at isDue
    apply advanceWalk_early (Nat.lt_of_not_le unfinished)
    rw [isDue]
    exact early
  cases command with
  | wait duration =>
    obtain rfl : scratch.deadline = due := some.inj hinted
    simp only [tickCommand, if_pos early]
  | move start target options | follow path options =>
    simp only [tickCommand, available, pointer rfl, if_true]
    exact walked options hinted
  | drag start target code options =>
    simp only [tickCommand, available, pointer rfl, if_true, tickDrag, walked options hinted,
      reduceCtorEq, ne_eq, not_false_eq_true]
  | _ => cases hinted

/-- To record again that a running step runs on changes nothing. -/
theorem recordAnswer_running {step : Step}
    (running : (state.entries step.id.index).lastStatus = .running) :
    recordAnswer seat step (state.entries step.id.index)
      (.running, (state.entries step.id.index).state, state.wire) state = state := by
  have entryEq : ({ state.entries step.id.index with lastStatus := .running } : Entry) =
      state.entries step.id.index := by rw [← running]
  rw [recordAnswer, if_neg (by simp)]
  rw [if_neg (by simp), entryEq, setEntry, update_eq_self]

/-- The seat runner's wake-up times are hints only. -/
theorem hintsOnly_seatRunner (built : sequence.Built) (start : σ) :
    HintsOnly sequence (seatRunner seat) (SeatState.fresh start) := by
  intro world step due now balanced member running hinted early
  rcases balanced.ledger.conversation with ⟨protocol, conversation, idle, openIff⟩
  have live := sequence.live_of_mem member
  have isOpen : protocol.isOpen step.id = true := (openIff step.id).mpr
    ⟨live, (isOpen_iff_running balanced.sound.consistent live).mpr running⟩
  rcases conversation.known built (lasting_waiting seat) step.id step isOpen (by simp [idle])
    (built.find_of_mem member) with ⟨entered, _, waiting⟩
  rcases (conversation.accounted built).opened step.id isOpen with ⟨_, _, entry⟩
  have found : findEntry world.runner step.id = some (world.runner.entries step.id.index) :=
    if_pos entry.used
  change nextTick world.runner step = some due at hinted
  change tick seat step now world.runner = (.running, world.runner)
  rw [nextTick, found] at hinted
  dsimp only at hinted
  rw [if_pos entry.entered] at hinted
  rw [tick, found]
  dsimp only
  rw [tickBody, if_neg (by simp [entry.entered]),
    tickCommand_early world.runner.wire hinted early waiting.pointer,
    recordAnswer_running waiting.status]

/-- The wake-up times are only hints: the run that follows them and the run that ticks
every running step at every pump agree in the statuses, in the calls made on the seat, in
the seat's state and in every answer of the player, whatever the document, the seat and
the controls are. -/
theorem next_tick_only_hint {steps : List Step} {pacing : PacingOptions} {name : String}
    (accepted : Sequence.build steps pacing name = .ok sequence) (seat : Seat σ) (start : σ)
    (controls : List Control) :
    let hinted := (World.initial (SeatState.fresh start)).run sequence (seatRunner seat) controls
    let every := (World.initial (SeatState.fresh start)).run sequence
      (seatRunner seat).everyPump controls
    hinted.player.status = every.player.status ∧
      hinted.runner.wire.log = every.runner.wire.log ∧
      hinted.runner.wire.seat = every.runner.wire.seat ∧
      ∀ control, (hinted.control sequence (seatRunner seat) control).1 =
        (every.control sequence (seatRunner seat).everyPump control).1 := by
  intro hinted every
  have built := Sequence.built_of_build accepted
  have hints : HintsOnly sequence (seatRunner seat) (SeatState.fresh start) :=
    hintsOnly_seatRunner built start
  have same : Same hinted every := World.run_everyPump built hints controls
    (RunSound.initial (SeatState.fresh start)) (Same.refl _)
  have sound : RunSound sequence (seatRunner seat) (SeatState.fresh start) hinted :=
    World.reachable_sound accepted (SeatState.fresh start) controls
  refine ⟨by rw [same.player], by rw [same.runner], by rw [same.runner], ?_⟩
  intro control
  exact (same.control built hints sound.balanced control).answer

/-- A press and a wait that is pumped before its deadline. -/
theorem next_tick_only_hint_wait : ∃ sequence,
    Sequence.build pressAndWait {} "seat" = .ok sequence ∧
      let seat := echoSeat fun _ => true
      let controls := [Control.play, .pump 0, .pump 3, .pump 5]
      let hinted := (World.initial (SeatState.fresh ())).run sequence (seatRunner seat) controls
      let every := (World.initial (SeatState.fresh ())).run sequence
        (seatRunner seat).everyPump controls
      hinted.player.status = every.player.status ∧ hinted.trace.length < every.trace.length := by
  rcases exists_built pressAndWait
    (fun sequence =>
      let seat := echoSeat fun _ => true
      let controls := [Control.play, .pump 0, .pump 3, .pump 5]
      let hinted := (World.initial (SeatState.fresh ())).run sequence (seatRunner seat) controls
      let every := (World.initial (SeatState.fresh ())).run sequence
        (seatRunner seat).everyPump controls
      decide (hinted.trace.length < every.trace.length))
    (by decide +kernel) with ⟨sequence, accepted, checked⟩
  rw [decide_eq_true_eq] at checked
  exact ⟨sequence, accepted,
    (next_tick_only_hint accepted (echoSeat fun _ => true) () _).1, checked⟩

/-! ## The floor on the elapsed time -/

/-- The seat runner lets a wait take its time. -/
theorem patient_seatRunner (built : sequence.Built) (start : σ) :
    Patient sequence (seatRunner seat) (SeatState.fresh start) where
  enters step duration now before isWait success := by
    change (enterBody seat (.step .enter step) step.command now {} before.wire).1 = .success
      at success
    rw [isWait] at success
    simp only [enterBody, enterCommand] at success
    split at success <;> cases success
  ticks trace protocol before id step duration entered now conversation isOpen idle found isWait
      last success := by
    rcases conversation.known built (lasting_waiting seat) id step isOpen (by simp [idle]) found
      with ⟨told, lastIs, waiting⟩
    obtain rfl : told = entered := some.inj (lastIs.symm.trans last)
    rcases (conversation.accounted built).opened id isOpen with ⟨_, _, entry⟩
    obtain rfl : step.id = id := (Sequence.Built.mem_of_find found).2
    have known : findEntry before step.id = some (before.entries step.id.index) := if_pos entry.used
    change (tick seat step now before).1 = .success at success
    rw [tick, known] at success
    dsimp only at success
    rw [tickBody, if_neg (by simp [entry.entered]), isWait] at success
    simp only [tickCommand] at success
    rw [← waiting.deadline duration isWait]
    split at success
    · cases success
    · rename_i reached
      exact Int.not_lt.mp reached

/-- The plan of a document is a floor on the time it takes: a run on a seat in which
every step succeeds, without a skip or a jump and with pump times that never go back,
takes at least the planned time. -/
theorem planned_floor_on_elapsed {steps : List Step} {pacing : PacingOptions} {name : String}
    (accepted : Sequence.build steps pacing name = .ok sequence) (seat : Seat σ) (start : σ)
    (controls : List Control) (inOrder : ∀ control ∈ controls, control.inOrder = true)
    (sorted : (pumpTimes controls).Pairwise (· ≤ ·)) :
    let world := (World.initial (SeatState.fresh start)).run sequence (seatRunner seat) controls
    world.player.state = .done →
    (∀ step ∈ sequence.steps, world.player.status step.id.index = .succeeded) →
    planned sequence ≤ world.player.elapsed := by
  have built := Sequence.built_of_build accepted
  exact planned_le_elapsed accepted (patient_seatRunner built start) inOrder sorted

/-- A press and a wait of five nanoseconds, pumped late. -/
theorem planned_floor_on_elapsed_wait : ∃ sequence,
    Sequence.build pressAndWait {} "seat" = .ok sequence ∧
      let world := (World.initial (SeatState.fresh ())).run sequence
        (seatRunner (echoSeat fun _ => true)) [.play, .pump 10, .pause, .pump 12, .play, .pump 21]
      world.player.state = .done ∧ planned sequence = 5 ∧ world.player.elapsed = 11 ∧
        planned sequence ≤ world.player.elapsed := by
  rcases exists_built pressAndWait
    (fun sequence =>
      let world := (World.initial (SeatState.fresh ())).run sequence
        (seatRunner (echoSeat fun _ => true)) [.play, .pump 10, .pause, .pump 12, .play, .pump 21]
      decide (world.player.state = .done) && (decide (planned sequence = 5) &&
        (decide (world.player.elapsed = 11) &&
          sequence.steps.all fun step =>
            decide (world.player.status step.id.index = .succeeded))))
    (by decide +kernel) with ⟨sequence, accepted, checked⟩
  simp only [and_eq_true, decide_eq_true_eq, List.all_eq_true] at checked
  rcases checked with ⟨done, plannedIs, elapsedIs, succeeded⟩
  exact ⟨sequence, accepted, done, plannedIs, elapsedIs,
    planned_floor_on_elapsed accepted (echoSeat fun _ => true) ()
      [.play, .pump 10, .pause, .pump 12, .play, .pump 21] (by decide) (by decide) done succeeded⟩

end

end Grab.Kernel
