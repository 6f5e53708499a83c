import Grab.Sequence.Player.Failure

/-!
# Driving a player

`kernel/sequence/drive.cpp`.  The loop pumps the player, lets a callback look at it, checks for a
cancellation, and waits until the next deadline.  Waiting does nothing to the player and is left
out, but for the descriptor it needs.

A callback may call the player, so that each turn of the loop is given what it calls.
-/

namespace Grab.Kernel

open Grab.Sequence Grab.Lib List Option

section

variable {ρ : Type} (sequence : Sequence) (runner : CommandRunner ρ)

/-- When a member of the frontier wants the next pump. -/
def World.candidate (world : World ρ) (id : StepId) : Option TimePoint :=
  if sequence.steps.length ≤ id.index then none
  else
    match world.player.status id.index with
    | .ready =>
      if world.player.state ≠ .playing then none
      else some (world.player.runs id.index).readyAt
    | .running =>
      match sequence.find id with
      | none => none
      | some step =>
        match runner.nextTick world.runner step with
        | some due => some due
        -- No stated deadline means that it is ticked in every pump.
        | none => some world.player.lastNow
    | _ => none

/-- The earlier of what there is. -/
def earlier : Option TimePoint → Option TimePoint → Option TimePoint
  | best, none => best
  | none, some candidate => some candidate
  | some best, some candidate => if candidate < best then some candidate else some best

def World.nextDeadline (world : World ρ) : Option TimePoint :=
  if world.isLive = false then none
  else
    world.player.frontier.foldl
      (fun best id => earlier best (world.candidate sequence runner id)) none

/-- One turn of the loop: the clock, the calls of the callback on the player, the answer of the
predicate, and whether the timer thread has a descriptor. -/
structure Turn where
  now : TimePoint
  calls : List Control := []
  cancelled : Bool := false
  descriptor : Bool := true

/-- What ended the loop. -/
inductive Ending where
  | pumpFailed (error : Error)
  | finished
  | cancelled
  | stalled
  | noDescriptor
  deriving DecidableEq

def Ending.outcome (cancelReason : String) : Ending → Except Error Unit
  | .pumpFailed error => .error error
  | .finished => .ok ()
  | .cancelled => .error ⟨.cancelled, cancelReason⟩
  | .stalled => .error ⟨.internalFault, "the run stalled: no step can advance"⟩
  | .noDescriptor =>
    .error ⟨.providerFailed, "the timer thread has no wake descriptor, so the run cannot be paced"⟩

/-- How a drive went: its end, every pump with the worlds around it, and every answer of the
predicate. -/
structure Drive (ρ : Type) where
  ending : Ending
  world : World ρ
  pumps : List (World ρ × World ρ) := []
  checks : List Bool := []

/-- The loop, for as many turns as are given; without a result it is still going. -/
def driveLoop : List Turn → World ρ → List (World ρ × World ρ) → List Bool → Option (Drive ρ)
  | [], _, _, _ => none
  | turn :: rest, world, pumps, checks =>
    let pumped := world.pump sequence runner turn.now
    let pumps := pumps ++ [(world, pumped.2)]
    let called := pumped.2.run sequence runner turn.calls
    match pumped.1 with
    | .error error => some { ending := .pumpFailed error, world := called, pumps, checks }
    | .ok () =>
      if called.isLive = false then some { ending := .finished, world := called, pumps, checks }
      else
        let checks := checks ++ [turn.cancelled]
        if turn.cancelled then
          some
            { ending := .cancelled, world := (called.interrupt sequence runner).2
              pumps, checks }
        else
          match called.nextDeadline sequence runner with
          | none => some { ending := .stalled, world := called, pumps, checks }
          | some _ =>
            if turn.descriptor then driveLoop rest called pumps checks
            else some { ending := .noDescriptor, world := called, pumps, checks }

/-- The error of `play`, or how the drive went. -/
def drive (world : World ρ) (turns : List Turn) : Option (Except Error (Drive ρ)) :=
  match world.play sequence with
  | (.error error, _) => some (.error error)
  | (.ok (), played) =>
    (driveLoop sequence runner turns played [] []).map fun driven =>
      .ok
        { driven with
          world :=
            if driven.world.isLive then (driven.world.interrupt sequence runner).2
            else driven.world }

end

/-- The calls a callback may make. -/
def Control.fromCallback : Control → Bool
  | .skip => true
  | .gotoStep _ => true
  | .gotoLabel _ => true
  | .interrupt => true
  | _ => false

section

variable {ρ : Type} {sequence : Sequence} {runner : CommandRunner ρ} {start : ρ}
  {world : World ρ} {now : TimePoint}

/-! ## The frontier while a run is driven -/

/-- A run that is driven is not paused, and has something to do as long as it plays. -/
structure Driven (world : World ρ) : Prop where
  started : world.player.state ≠ .idle
  unpaused : world.player.state ≠ .paused
  busy : world.player.state = .playing → world.player.frontier ≠ []

theorem settle_busy (world : World ρ) :
    world.settle.player.state = .playing → world.settle.player.frontier ≠ [] := by
  rw [World.settle]
  split
  · intro impossible
    cases impossible
  · rename_i unfinished
    exact fun playing emptyFrontier => unfinished ⟨playing, emptyFrontier⟩

theorem settle_state (world : World ρ) :
    world.settle.player.state = world.player.state ∨
      world.player.state = .playing ∧ world.settle.player.state = .done := by
  rw [World.settle]
  split
  · rename_i finished
    exact .inr ⟨finished.1, rfl⟩
  · exact .inl rfl

theorem pump_driven (built : sequence.Built) (sound : RunSound sequence runner start world)
    (playing : world.player.state = .playing) (now : TimePoint) :
    Driven (world.pump sequence runner now).2 := by
  have timed : Balanced sequence runner start
      (world.mapPlayer fun player => { player with lastNow := now }) :=
    sound.balanced.of_eq rfl rfl rfl rfl
  have isLive : (world.mapPlayer fun player => { player with lastNow := now }).isLive = true :=
    World.isLive_iff.mpr (.inl playing)
  rw [World.pump_world]
  rw [if_neg (by rw [isLive]; decide)]
  have advances := (turnRule_advances built now).pumpLoop built (Advances.refl timed) isLive
    (2 * sequence.steps.length + 2)
  have states : ∀ state : PlayState, state ≠ .playing → state ≠ .interrupted → state ≠ .done →
      ((world.mapPlayer fun player => { player with lastNow := now }).pumpLoop sequence runner now
        (2 * sequence.steps.length + 2)).settle.player.state ≠ state := by
    intro state notPlaying notInterrupted notDone isState
    rcases settle_state ((world.mapPlayer fun player => { player with lastNow := now }).pumpLoop
        sequence runner now (2 * sequence.steps.length + 2)) with same | ⟨_, isDone⟩
    · rw [same] at isState
      rcases advances.state with before | ⟨interrupted, _⟩
      · exact notPlaying (isState.symm.trans (before.trans playing))
      · exact notInterrupted (isState.symm.trans interrupted)
    · exact notDone (isState.symm.trans isDone)
  constructor
  case started => exact states .idle (by decide) (by decide) (by decide)
  case unpaused => exact states .paused (by decide) (by decide) (by decide)
  case busy => exact settle_busy _

theorem gotoStep_driven (driven : Driven world) (target : StepId) :
    Driven (world.gotoStep sequence runner target).2 := by
  have jumped : Driven (world.jumpTo sequence runner target).2 := by
    have same := World.sameEnd_jumpTo sequence runner world target
    constructor
    case started =>
      rw [same.state]
      exact driven.started
    case unpaused =>
      rw [same.state]
      exact driven.unpaused
    case busy =>
      rw [same.state, World.jumpTo]
      split
      · exact driven.busy
      intro _
      change (World.placeTarget sequence _ _ _).frontier ≠ []
      rw [World.placeTarget]
      dsimp only
      split
      · rw [Player.frontier_admitToFrontier]
        exact append_ne_nil_of_right_ne_nil _ (cons_ne_nil _ _)
      · rw [Player.frontier_admitToFrontier]
        exact append_ne_nil_of_right_ne_nil _ (cons_ne_nil _ _)
  rw [World.gotoStep]
  split
  · exact driven
  dsimp only
  split <;> exact jumped

variable (built : sequence.Built)

include built

variable (sound : RunSound sequence runner start world)

include sound

theorem skip_driven (driven : Driven world) : Driven (world.skip sequence runner).2 := by
  rw [World.skip]
  split
  · exact driven
  have state := (World.skip_spec built sound.balanced world.player.lastNow).2.2
  dsimp only at state ⊢
  generalize world.player.frontier.foldl (World.admitSuccessors sequence) _ = admitted at state ⊢
  constructor
  case started =>
    rcases settle_state admitted with same | ⟨_, isDone⟩
    · rw [same, state]
      exact driven.started
    · rw [isDone]
      decide
  case unpaused =>
    rcases settle_state admitted with same | ⟨_, isDone⟩
    · rw [same, state]
      exact driven.unpaused
    · rw [isDone]
      decide
  case busy => exact settle_busy admitted

theorem call_driven (driven : Driven world) {call : Control} (allowed : call.fromCallback = true) :
    Driven (world.control sequence runner call).2 := by
  cases call with
  | skip => exact skip_driven built sound driven
  | gotoStep target => exact gotoStep_driven driven target
  | gotoLabel label =>
    change Driven (world.gotoLabel sequence runner label).2
    rw [World.gotoLabel]
    split
    · exact driven
    · exact gotoStep_driven driven _
  | interrupt =>
    change Driven (world.interrupt sequence runner).2
    rw [World.interrupt]
    split
    · exact driven
    constructor
    case started =>
      intro impossible
      cases impossible
    case unpaused =>
      intro impossible
      cases impossible
    case busy =>
      intro impossible
      cases impossible
  | play | pause | pump _ => cases allowed

omit sound

theorem calls_driven (calls : List Control) (sound : RunSound sequence runner start world)
    (driven : Driven world) (allowed : ∀ call ∈ calls, call.fromCallback = true) :
    Driven (world.run sequence runner calls) := by
  induction calls generalizing world with
  | nil => exact driven
  | cons call rest later =>
    exact later (World.control_step built sound call).sound
      (call_driven built sound driven (allowed call mem_cons_self))
      fun other inRest => allowed other (mem_cons_of_mem _ inRest)

/-! ## Deadlines -/

omit built

theorem isSome_earlier_left {best candidate : Option TimePoint} (isSome : best.isSome = true) :
    (earlier best candidate).isSome = true := by
  cases best with
  | none => cases isSome
  | some best =>
    cases candidate with
    | none => rfl
    | some candidate =>
      rw [earlier]
      split <;> rfl

theorem isSome_foldl (candidates : StepId → Option TimePoint) (ids : List StepId)
    {best : Option TimePoint} (isSome : best.isSome = true) :
    (ids.foldl (fun best id => earlier best (candidates id)) best).isSome = true := by
  induction ids generalizing best with
  | nil => exact isSome
  | cons id rest later => exact later (isSome_earlier_left isSome)

/-- A run that plays has a deadline. -/
theorem nextDeadline_isSome (built : sequence.Built) (sound : RunSound sequence runner start world)
    (driven : Driven world) (playing : world.player.state = .playing) :
    (world.nextDeadline sequence runner).isSome = true := by
  have isLive : ¬world.isLive = false := by
    rw [Bool.not_eq_false]
    exact World.isLive_iff.mpr (.inl playing)
  rw [World.nextDeadline, if_neg isLive]
  cases frontier : world.player.frontier with
  | nil => exact absurd frontier (driven.busy playing)
  | cons id rest =>
    rw [foldl_cons]
    apply isSome_foldl
    have member : id ∈ world.player.frontier := by
      rw [frontier]
      exact mem_cons_self
    have ⟨live, active⟩ := (sound.balanced.sound.frontier.mem_iff id).mp member
    rcases built.find_of_live live with ⟨step, found, _, _⟩
    have candidate : (world.candidate sequence runner id).isSome = true := by
      rw [World.candidate, if_neg (Nat.not_le_of_lt (built.live_lt live))]
      cases status : world.player.status id.index with
      | ready =>
        dsimp only
        rw [if_neg (not_not.mpr playing)]
        rfl
      | running =>
        dsimp only
        rw [found]
        dsimp only
        split <;> rfl
      | pending | succeeded | failed | skipped =>
        rw [status] at active
        cases active
    cases chosen : world.candidate sequence runner id with
    | none =>
      rw [chosen] at candidate
      cases candidate
    | some deadline => rfl

/-! ## The loop -/

/-- A pump in which the policy of a failing step ended the run. -/
def EndedByPolicy (pump : World ρ × World ρ) : Prop :=
  pump.1.isLive = true ∧ pump.2.player.state = .interrupted ∧ FailureTeardown pump.2.trace

/-- What the loop comes to. -/
structure LoopSpec (sequence : Sequence) (runner : CommandRunner ρ) (start : ρ)
    (paced : Prop) (driven : Drive ρ) : Prop where
  sound : RunSound sequence runner start driven.world
  started : driven.world.player.state ≠ .idle
  moving : driven.ending ≠ .stalled
  fails : paced → ∀ cancelReason,
    (∃ error, driven.ending.outcome cancelReason = .error error) ↔
      true ∈ driven.checks ∨ ∃ pump ∈ driven.pumps, EndedByPolicy pump

theorem driveLoop_spec (built : sequence.Built) (turns : List Turn)
    (allowed : ∀ turn ∈ turns, ∀ call ∈ turn.calls, call.fromCallback = true)
    (sound : RunSound sequence runner start world) (unblamed : Unblamed world)
    (playing : world.player.state = .playing) {pumps : List (World ρ × World ρ)}
    (noPolicy : ∀ pump ∈ pumps, ¬EndedByPolicy pump) {checks : List Bool}
    (noCheck : true ∉ checks) {driven : Drive ρ}
    (returned : driveLoop sequence runner turns world pumps checks = some driven) :
    LoopSpec sequence runner start (∀ turn ∈ turns, turn.descriptor = true) driven := by
  induction turns generalizing world pumps checks with
  | nil => cases returned
  | cons turn rest later =>
    have isLive : world.isLive = true := World.isLive_iff.mpr (.inl playing)
    have pumpStep := World.pump_step built sound turn.now
    have ⟨blamed, failsIff⟩ := pump_blamed built sound isLive unblamed turn.now
    have pumped := pump_driven built sound playing turn.now
    have callsAllowed := allowed turn mem_cons_self
    have called := calls_driven built turn.calls pumpStep.sound pumped callsAllowed
    have calledSound := (World.run_sound built pumpStep.sound turn.calls).1
    have calledUnblamed := run_unblamed built turn.calls pumpStep.sound blamed.going
    rw [driveLoop] at returned
    cases result : (world.pump sequence runner turn.now).1 with
    | error error =>
      rw [result] at returned
      cases returned
      have interrupted := failsIff.mp ⟨error, result⟩
      have ending := pumpStep.ending (by rw [playing]; decide) interrupted
      have byPolicy : EndedByPolicy (world, (world.pump sequence runner turn.now).2) := by
        refine ⟨isLive, interrupted, ?_⟩
        rcases ending with ⟨impossible, _⟩ | ⟨_, teardown⟩
        · cases impossible
        · exact teardown
      constructor
      case sound => exact calledSound
      case started => exact called.started
      case moving =>
        intro impossible
        cases impossible
      case fails =>
        intro _ cancelReason
        constructor
        · exact fun _ => .inr ⟨_, mem_append_right _ mem_cons_self, byPolicy⟩
        · exact fun _ => ⟨error, rfl⟩
    | ok _ =>
      rw [result] at returned
      dsimp only at returned
      have noPolicyNow : ∀ pump ∈ pumps ++ [(world, (world.pump sequence runner turn.now).2)],
          ¬EndedByPolicy pump := by
        intro pump member
        rcases mem_append.mp member with old | new
        · exact noPolicy pump old
        rw [mem_singleton.mp new]
        intro byPolicy
        rcases failsIff.mpr byPolicy.2.1 with ⟨error, impossible⟩
        rw [result] at impossible
        cases impossible
      split at returned
      · cases returned
        constructor
        case sound => exact calledSound
        case started => exact called.started
        case moving =>
          intro impossible
          cases impossible
        case fails =>
          intro _ cancelReason
          constructor
          · rintro ⟨error, impossible⟩
            cases impossible
          · rintro (isCheck | ⟨pump, member, byPolicy⟩)
            · exact absurd isCheck noCheck
            · exact absurd byPolicy (noPolicyNow pump member)
      · rename_i stillLive
        rw [Bool.not_eq_false] at stillLive
        have stillPlaying : ((world.pump sequence runner turn.now).2.run sequence runner
            turn.calls).player.state = .playing := by
          rcases World.isLive_iff.mp stillLive with isPlaying | isPaused
          · exact isPlaying
          · exact absurd isPaused called.unpaused
        split at returned
        · rename_i isCancelled
          cases returned
          have interrupted := World.interrupt_step built calledSound
          constructor
          case sound => exact interrupted.sound
          case started =>
            rw [World.interrupt, if_neg (by rw [stillLive]; decide)]
            intro impossible
            cases impossible
          case moving =>
            intro impossible
            cases impossible
          case fails =>
            intro _ cancelReason
            constructor
            · intro _
              left
              apply mem_append_right
              rw [isCancelled]
              exact mem_cons_self
            · exact fun _ => ⟨_, rfl⟩
        · rename_i notCancelled
          have noCheckNow : true ∉ checks ++ [turn.cancelled] := by
            intro isCheck
            rcases mem_append.mp isCheck with old | new
            · exact noCheck old
            · exact notCancelled (mem_singleton.mp new).symm
          have deadline := nextDeadline_isSome built calledSound called stillPlaying
          split at returned
          · rename_i none_
            rw [none_] at deadline
            cases deadline
          split at returned
          · have spec := later
              (fun other inRest => allowed other (mem_cons_of_mem _ inRest))
              calledSound calledUnblamed stillPlaying noPolicyNow noCheckNow returned
            refine { spec with fails := ?fails }
            case fails =>
              intro paced
              exact spec.fails fun other inRest => paced other (mem_cons_of_mem _ inRest)
          · rename_i noDescriptor
            cases returned
            constructor
            case sound => exact calledSound
            case started => exact called.started
            case moving =>
              intro impossible
              cases impossible
            case fails =>
              intro paced
              exact absurd (paced turn mem_cons_self) noDescriptor

end

section

variable {ρ : Type} {sequence : Sequence} {steps : List Step} {pacing : PacingOptions}
  {name : String}

theorem play_playing (sequence : Sequence) (world : World ρ)
    (plays : (world.play sequence).1 = .ok ()) :
    (world.play sequence).2.player.state = .playing := by
  rw [World.play] at plays ⊢
  cases stateIs : world.player.state with
  | paused => rfl
  | playing => exact stateIs
  | idle => exact (World.sameEnd_admitRoots sequence _).state
  | interrupted | done =>
    rw [stateIs] at plays
    cases plays

/-- What is left going is interrupted. -/
theorem drive_end (built : sequence.Built) {runner : CommandRunner ρ} {start : ρ} {world : World ρ}
    (sound : RunSound sequence runner start world) (started : world.player.state ≠ .idle) :
    let left := if world.isLive then (world.interrupt sequence runner).2 else world
    (left.player.state = .done ∨ left.player.state = .interrupted) ∧
      ∀ id, sequence.Live id → left.player.isOpen id = false := by
  intro left
  have ⟨leftSound, ended⟩ : RunSound sequence runner start left ∧
      (left.player.state = .done ∨ left.player.state = .interrupted) := by
    by_cases isLive : world.isLive = true
    · have same : left = (world.interrupt sequence runner).2 := if_pos isLive
      rw [same]
      refine ⟨(World.interrupt_step built sound).sound, .inr ?_⟩
      rw [World.interrupt, if_neg (by rw [isLive]; decide)]
      rfl
    have same : left = world := if_neg isLive
    rw [same]
    refine ⟨sound, ?_⟩
    cases stateIs : world.player.state with
    | done => exact .inl rfl
    | interrupted => exact .inr rfl
    | idle => exact absurd stateIs started
    | playing => exact absurd (World.isLive_iff.mpr (.inl stateIs)) isLive
    | paused => exact absurd (World.isLive_iff.mpr (.inr stateIs)) isLive
  refine ⟨ended, ?_⟩
  intro id live
  apply closed_of_empty leftSound.balanced.sound _ live
  rcases ended with isDone | isInterrupted
  · exact leftSound.done isDone
  · exact (leftSound.ended isInterrupted).frontier

/-- A drive that gets past `play` and returns leaves the run done or interrupted and no step
entered, never stalls, and where it can be paced fails exactly if it was cancelled or the policy of
a failing step ended the run. -/
theorem drive_finishes (accepted : Sequence.build steps pacing name = .ok sequence)
    (runner : CommandRunner ρ) (state : ρ) (before : List Control) (turns : List Turn)
    (allowed : ∀ turn ∈ turns, ∀ call ∈ turn.calls, call.fromCallback = true) (driven : Drive ρ)
    (returned : drive sequence runner ((World.initial state).run sequence runner before) turns =
      some (.ok driven)) :
    (driven.world.player.state = .done ∨ driven.world.player.state = .interrupted) ∧
      (∀ id, sequence.Live id → driven.world.player.isOpen id = false) ∧
      driven.ending ≠ .stalled ∧
      ((∀ turn ∈ turns, turn.descriptor = true) → ∀ cancelReason,
        (∃ error, driven.ending.outcome cancelReason = .error error) ↔
          true ∈ driven.checks ∨ ∃ pump ∈ driven.pumps, EndedByPolicy pump) := by
  have built := Sequence.built_of_build accepted
  have initialSound : RunSound sequence runner state (World.initial state) := RunSound.initial state
  have sound := (World.run_sound built initialSound before).1
  have fresh : Unblamed (World.initial state) := fun _ => rfl
  have unblamed := run_unblamed built before initialSound fresh
  generalize (World.initial state).run sequence runner before = world at sound unblamed returned
  have played := World.play_step built sound
  have playedUnblamed : Unblamed (world.play sequence).2 :=
    control_unblamed built sound unblamed .play
  have playing := play_playing sequence world
  rw [drive] at returned
  generalize world.play sequence = start at played playedUnblamed playing returned
  rcases start with ⟨error | _, start⟩
  · cases returned
  dsimp only at returned
  rcases map_eq_some_iff.mp returned with ⟨looped, isLooped, isDriven⟩
  have noPolicy : ∀ pump ∈ ([] : List (World ρ × World ρ)), ¬EndedByPolicy pump :=
    fun pump impossible => by cases impossible
  have spec := driveLoop_spec built turns allowed played.sound playedUnblamed (playing rfl)
    noPolicy not_mem_nil isLooped
  cases isDriven
  have last := drive_end built spec.sound spec.started
  exact ⟨last.1, last.2, spec.moving, spec.fails⟩

theorem drive_finishes_twoWaits : ∃ sequence,
    Sequence.build twoWaits {} "waits" = .ok sequence ∧
      ∃ driven, drive sequence countingRunner (World.initial 0)
          [{ now := 0 }, { now := 5, calls := [.skip] }, { now := 6, cancelled := true }] =
            some (.ok driven) ∧
        (driven.world.player.state = .done ∨ driven.world.player.state = .interrupted) := by
  rcases build_twoWaits with ⟨sequence, accepted⟩
  have returns : (Sequence.build twoWaits {} "waits").toOption.map (fun sequence =>
      ((drive sequence countingRunner (World.initial 0)
        [{ now := 0 }, { now := 5, calls := [.skip] }, { now := 6, cancelled := true }]).map
          Except.isOk)) = some (some true) := by
    decide +kernel
  rw [accepted, Except.toOption, map_some, some.injEq] at returns
  rcases map_eq_some_iff.mp returns with ⟨result, isResult, isOk⟩
  cases result with
  | error error => cases isOk
  | ok driven =>
    refine ⟨sequence, accepted, driven, isResult, ?_⟩
    exact (drive_finishes accepted countingRunner 0 [] _ (by decide) driven isResult).1

end

end Grab.Kernel
