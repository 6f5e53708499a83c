import Grab.Sequence.Player.Pump

/-!
# Whole runs of a player

The controls keep one invariant, `RunSound`, and a run is any finite order of
controls on a fresh player.  From it: the calls of every step are complete
cycles of one entry and one exit, progress is closed under ancestors, and the
frontier is exactly the set of active steps.
-/

namespace Grab.Kernel

open Grab.Sequence Grab.Lib Option

section

variable {ρ : Type} {sequence : Sequence} {runner : CommandRunner ρ} {start : ρ} {world : World ρ}

/-- What holds after every call on the player. -/
structure RunSound (sequence : Sequence) (runner : CommandRunner ρ) (start : ρ)
    (world : World ρ) : Prop where
  balanced : Balanced sequence runner start world
  idle : world.player.state = .idle →
    (∀ index, world.player.status index = .pending) ∧
      (∀ index, (world.player.runs index).entered = false) ∧ world.player.frontier = []
  done : world.player.state = .done → world.player.frontier = []
  ended : world.player.state = .interrupted → Ended world

theorem RunSound.initial (state : ρ) : RunSound sequence runner state (World.initial state) where
  balanced := ⟨Ledger.initial state, Player.sound_of_idle (fun _ => rfl) (fun _ => rfl) rfl⟩
  idle _ := ⟨fun _ => rfl, fun _ => rfl, rfl⟩
  done _ := rfl
  ended impossible := by cases impossible

/-- One call on the player: the invariant is kept, finished steps stay as they
are, and a run is only ended by an interruption or by a failure in a pump. -/
structure ControlStep (sequence : Sequence) (runner : CommandRunner ρ) (start : ρ)
    (control : Control) (before after : World ρ) : Prop where
  sound : RunSound sequence runner start after
  keeps : Player.Keeps before.player after.player
  ending : before.player.state ≠ .interrupted → after.player.state = .interrupted →
    (control = .interrupt ∧ InterruptTeardown before.trace after.trace) ∨
      ((∃ now, control = .pump now) ∧ FailureTeardown after.trace)

theorem ControlStep.refl (sound : RunSound sequence runner start world) (control : Control) :
    ControlStep sequence runner start control world world :=
  ⟨sound, Player.Keeps.refl _, fun going interrupted => absurd interrupted going⟩

/-- A call that leaves the run playing or paused. -/
theorem ControlStep.of_live {after : World ρ} {control : Control}
    (balanced : Balanced sequence runner start after)
    (keeps : Player.Keeps world.player after.player) (isLive : after.isLive = true) :
    ControlStep sequence runner start control world after := by
  have going := World.going_of_isLive isLive
  refine ⟨⟨balanced, ?_, ?_, ?_⟩, keeps, fun _ interrupted => absurd interrupted going⟩
  · intro isIdle
    rcases World.isLive_iff.mp isLive with playing | paused
    · rw [playing] at isIdle
      cases isIdle
    · rw [paused] at isIdle
      cases isIdle
  · intro isDone
    rcases World.isLive_iff.mp isLive with playing | paused
    · rw [playing] at isDone
      cases isDone
    · rw [paused] at isDone
      cases isDone
  · exact fun interrupted => absurd interrupted going

/-! ## The controls -/

namespace World

theorem play_step (built : sequence.Built) (sound : RunSound sequence runner start world) :
    ControlStep sequence runner start .play world (world.play sequence).2 := by
  rw [play]
  cases stateIs : world.player.state with
  | paused =>
    exact ControlStep.of_live (sound.balanced.of_eq rfl rfl rfl rfl) (Player.Keeps.refl _) rfl
  | playing | interrupted | done => exact ControlStep.refl sound _
  | idle =>
    obtain ⟨pending, untouched, emptyFrontier⟩ := sound.idle stateIs
    have started : Balanced sequence runner start
        (world.mapPlayer fun player => { player with state := .playing }) :=
      sound.balanced.of_eq rfl rfl rfl rfl
    have distinct : (sequence.steps.map Step.id).Nodup := built.ids_nodup
    obtain ⟨rootsSound, bookkeeping⟩ := started.sound.admitRoots_of_pending built
      (List.Subset.refl _) distinct (fun step _ => pending _)
    refine ControlStep.of_live (started.bookkeeping rootsSound bookkeeping.runs)
      bookkeeping.keeps ?_
    exact isLive_iff.mpr (.inl bookkeeping.state)

theorem pause_step (sound : RunSound sequence runner start world) :
    ControlStep sequence runner start .pause world world.pause.2 := by
  rw [pause]
  split
  · exact ControlStep.refl sound _
  · exact ControlStep.of_live (sound.balanced.of_eq rfl rfl rfl rfl) (Player.Keeps.refl _) rfl

theorem interrupt_step (built : sequence.Built) (sound : RunSound sequence runner start world) :
    ControlStep sequence runner start .interrupt world (world.interrupt sequence runner).2 := by
  rw [interrupt]
  split
  · exact ControlStep.refl sound _
  obtain ⟨balanced, keeps, state, ended, events, traceEq, tears⟩ :=
    unwind_ends built sound.balanced world.player.lastNow
  refine ⟨⟨balanced, ?_, ?_, fun _ => ended⟩, keeps, ?_⟩
  · intro isIdle
    cases state.symm.trans isIdle
  · exact fun _ => ended.frontier
  intro _ _
  refine .inl ⟨rfl, events, traceEq, tears.teardown, ?_⟩
  rw [sound.balanced.ledger.openSteps_eq]
  exact tears.exitsEq

variable {before : World ρ}

/-- A run that is still going may be done. -/
theorem settle_step {control : Control} (balanced : Balanced sequence runner start world)
    (keeps : Player.Keeps before.player world.player) (isLive : world.isLive = true) :
    ControlStep sequence runner start control before world.settle := by
  rw [settle]
  split
  · rename_i finished
    refine ⟨⟨balanced.of_eq rfl rfl rfl rfl, ?_, fun _ => finished.2, ?_⟩, keeps, ?_⟩
    · nofun
    · nofun
    · intro _ impossible
      cases impossible
  · exact ControlStep.of_live balanced keeps isLive

theorem isLive_of_state (state : world.player.state = before.player.state)
    (isLive : before.isLive = true) : world.isLive = true := by
  rw [World.isLive, state]
  exact isLive

/-- What a pump does to the world: the loop runs while the player is live. -/
theorem pump_world (world : World ρ) (now : TimePoint) : (world.pump sequence runner now).2 =
      let timed := world.mapPlayer fun player => { player with lastNow := now }
      if timed.isLive = false then timed
      else (timed.pumpLoop sequence runner now (2 * sequence.steps.length + 2)).settle := by
  rw [pump]
  dsimp only
  split
  · rfl
  · split <;> rfl

variable (built : sequence.Built)

include built

variable (sound : RunSound sequence runner start world)

include sound

theorem pump_step (now : TimePoint) :
    ControlStep sequence runner start (.pump now) world (world.pump sequence runner now).2 := by
  rw [pump_world]
  have timed : Balanced sequence runner start
      (world.mapPlayer fun player => { player with lastNow := now }) :=
    sound.balanced.of_eq rfl rfl rfl rfl
  dsimp only
  split
  · exact ⟨⟨timed, sound.idle, sound.done,
      fun interrupted => ⟨(sound.ended interrupted).frontier, (sound.ended interrupted).reaped⟩⟩,
      Player.Keeps.refl _, fun going interrupted => absurd interrupted going⟩
  rename_i isLive
  rw [Bool.not_eq_false] at isLive
  have advances := (turnRule_advances built now).pumpLoop built (Advances.refl timed) isLive
    (2 * sequence.steps.length + 2)
  rcases advances.state with sameState | ⟨interrupted, ended, teardown⟩
  · exact settle_step advances.balanced advances.keeps (isLive_of_state sameState isLive)
  have unsettled : ∀ other : World ρ, other.player.state = .interrupted → other.settle = other := by
    intro other isInterrupted
    rw [settle, if_neg]
    rw [isInterrupted]
    exact fun impossible => PlayState.noConfusion impossible.1
  rw [unsettled _ interrupted]
  refine ⟨⟨advances.balanced, ?_, fun _ => ended.frontier, fun _ => ended⟩,
    advances.keeps, fun _ _ => .inr ⟨⟨now, rfl⟩, teardown⟩⟩
  intro isIdle
  cases interrupted.symm.trans isIdle

theorem skip_step :
    ControlStep sequence runner start .skip world (world.skip sequence runner).2 := by
  rw [skip]
  split
  · exact ControlStep.refl sound _
  rename_i isLive
  rw [Bool.not_eq_false] at isLive
  obtain ⟨balanced, keeps, state⟩ := skip_spec built sound.balanced world.player.lastNow
  exact settle_step balanced keeps (isLive_of_state state isLive)

theorem gotoStep_step (target : StepId) (control : Control) :
    ControlStep sequence runner start control world (world.gotoStep sequence runner target).2 := by
  rw [gotoStep]
  split
  · exact ControlStep.refl sound _
  rename_i isLive
  rw [Bool.not_eq_false] at isLive
  obtain ⟨balanced, keeps, state, _⟩ := jumpTo_spec built sound.balanced target
  have jumped : ControlStep sequence runner start control world
      (world.jumpTo sequence runner target).2 :=
    ControlStep.of_live balanced keeps (isLive_of_state state isLive)
  dsimp only
  split <;> exact jumped

/-- Every control keeps the invariant. -/
theorem control_step (control : Control) :
    ControlStep sequence runner start control world (world.control sequence runner control).2 := by
  cases control with
  | play => exact play_step built sound
  | pause => exact pause_step sound
  | pump now => exact pump_step built sound now
  | skip => exact skip_step built sound
  | gotoStep target => exact gotoStep_step built sound target _
  | gotoLabel label =>
    rw [control, gotoLabel]
    split
    · exact ControlStep.refl sound _
    · exact gotoStep_step built sound _ _
  | interrupt => exact interrupt_step built sound

/-- Every run keeps the invariant. -/
theorem run_sound (controls : List Control) :
    RunSound sequence runner start (world.run sequence runner controls) ∧
      Player.Keeps world.player (world.run sequence runner controls).player := by
  induction controls generalizing world with
  | nil => exact ⟨sound, Player.Keeps.refl _⟩
  | cons control rest ih =>
    have first := control_step built sound control
    obtain ⟨restSound, restKeeps⟩ := ih first.sound
    exact ⟨restSound, first.keeps.trans restKeeps⟩

omit sound built

theorem reachable_sound {steps : List Step} {pacing : PacingOptions} {name : String}
    (accepted : Sequence.build steps pacing name = .ok sequence) (state : ρ)
    (controls : List Control) :
    RunSound sequence runner state ((World.initial state).run sequence runner controls) :=
  (run_sound (Sequence.built_of_build accepted) (RunSound.initial state) controls).1

end World

end

/-! ## A small document -/

/-- Two waits, the second after the first. -/
def twoWaits : List Step :=
  [{ command := .wait 5 }, { command := .wait 7, after := [StepId.ofIndex 0] }]

/-- A runner that counts its calls and lets a wait succeed at the time it names. -/
def countingRunner : CommandRunner Nat where
  enter _ _ calls := (.running, calls + 1)
  tick _ _ calls := (.success, calls + 1)
  exit _ _ calls := (.nothingHeld, calls + 1)
  join _ calls := calls
  releaseHolds _ calls := (.nothingHeld, calls)
  lastError _ _ := .internalFault
  nextTick _ := declaredWait
  declaredDuration _ := declaredWait

theorem build_twoWaits : ∃ sequence, Sequence.build twoWaits {} "waits" = .ok sequence := by
  have accepted : (Sequence.build twoWaits {} "waits").isOk = true := by decide +kernel
  cases built : Sequence.build twoWaits {} "waits" with
  | error error =>
    rw [built] at accepted
    cases accepted
  | ok sequence => exact ⟨sequence, rfl⟩

/-- What a jump skips: every step the target depends on, directly or not, once
and in ascending order. -/
theorem ancestorsOf_exact {steps : List Step} {pacing : PacingOptions} {name : String}
    {sequence : Sequence} (accepted : Sequence.build steps pacing name = .ok sequence)
    (id : StepId) :
    (sequence.ancestorsOf id).Pairwise (fun first second => first.bits < second.bits) ∧
      ∀ source, source ∈ sequence.ancestorsOf id ↔ Relation.TransGen sequence.Depends source id :=
  ⟨Sequence.Built.ancestorsOf_ascending id,
    fun _ => (Sequence.built_of_build accepted).mem_ancestorsOf_iff⟩

theorem ancestorsOf_exact_twoWaits : ∃ sequence,
    Sequence.build twoWaits {} "waits" = .ok sequence ∧
      ∀ source, source ∈ sequence.ancestorsOf (StepId.ofIndex 1) ↔
        Relation.TransGen sequence.Depends source (StepId.ofIndex 1) := by
  rcases build_twoWaits with ⟨sequence, accepted⟩
  exact ⟨sequence, accepted, (ancestorsOf_exact accepted _).2⟩

/-! ## The contract of a run -/

section

variable {ρ : Type} {sequence : Sequence} {steps : List Step} {pacing : PacingOptions}
  {name : String}

/-- Every entry is followed by exactly one exit.  The calls of each step are
complete cycles, the last one possibly still open; in a finished run all are
complete; and a run is ended only by an interruption, which exits the open
steps in the reverse of their first entries, or by a failure in a pump, which
exits the failing step before the others. -/
theorem one_exit_per_enter (accepted : Sequence.build steps pacing name = .ok sequence)
    (runner : CommandRunner ρ) (state : ρ) (controls : List Control) :
    let world := (World.initial state).run sequence runner controls
    (∀ id, Cycles (callsOf id world.trace) ∨ OpenCycles (callsOf id world.trace)) ∧
      (world.player.state = .done ∨ world.player.state = .interrupted →
        ∀ id, Cycles (callsOf id world.trace)) ∧
      ∀ control, world.player.state ≠ .interrupted →
        (world.control sequence runner control).2.player.state = .interrupted →
        (control = .interrupt ∧
            InterruptTeardown world.trace (world.control sequence runner control).2.trace) ∨
          ((∃ now, control = .pump now) ∧
            FailureTeardown (world.control sequence runner control).2.trace) := by
  intro world
  have sound : RunSound sequence runner state world := World.reachable_sound accepted state controls
  obtain ⟨protocol, conversation, _, openIff⟩ := sound.balanced.ledger.conversation
  refine ⟨?_, ?_, ?_⟩
  · intro id
    have cycles := conversation.cycles id
    split at cycles
    · exact .inr cycles
    · exact .inl cycles
  · intro finished id
    have emptyFrontier : world.player.frontier = [] := by
      rcases finished with isDone | isInterrupted
      · exact sound.done isDone
      · exact (sound.ended isInterrupted).frontier
    have cycles := conversation.cycles id
    rw [if_neg] at cycles
    · exact cycles
    rw [openIff]
    rintro ⟨live, isOpen⟩
    rw [closed_of_empty sound.balanced.sound emptyFrontier live] at isOpen
    cases isOpen
  · intro control
    exact (World.control_step (Sequence.built_of_build accepted) sound control).ending

/-- A run that was interrupted in the middle of its second step. -/
theorem one_exit_per_enter_twoWaits : ∃ sequence,
    Sequence.build twoWaits {} "waits" = .ok sequence ∧
      let world := (World.initial 0).run sequence countingRunner
        [.play, .pump 0, .pump 5, .interrupt]
      ∀ id, Cycles (callsOf id world.trace) := by
  obtain ⟨sequence, accepted⟩ := build_twoWaits
  have interrupted : (Sequence.build twoWaits {} "waits").toOption.map (fun sequence =>
      ((World.initial 0).run sequence countingRunner
        [.play, .pump 0, .pump 5, .interrupt]).player.state) = some .interrupted := by
    decide +kernel
  rw [accepted] at interrupted
  exact ⟨sequence, accepted, (one_exit_per_enter accepted countingRunner 0 _).2.1
    (.inr (some.inj interrupted))⟩

/-- Progress is closed under ancestors: a step that left `pending` has only
terminal ancestors, a step is entered only then, and the scan of the frontier
in a jump never refuses it. -/
theorem progress_ancestor_closed (accepted : Sequence.build steps pacing name = .ok sequence)
    (runner : CommandRunner ρ) (state : ρ) (controls : List Control) :
    let world := (World.initial state).run sequence runner controls
    (∀ id, sequence.Live id → world.player.status id.index ≠ .pending →
        ∀ ancestor, sequence.Ancestor ancestor id →
          terminalStatus (world.player.status ancestor.index) = true) ∧
      (∀ id now answer statuses, Event.enter id now answer statuses ∈ world.trace →
        ∀ ancestor, sequence.Ancestor ancestor id →
          terminalStatus (statuses ancestor.index) = true) ∧
      ∀ target step blocker,
        Event.jump target (some (.behindFrontier step blocker)) ∉ world.trace := by
  intro world
  have sound : RunSound sequence runner state world := World.reachable_sound accepted state controls
  refine ⟨sound.balanced.sound.closed, ?_, ?_⟩
  · intro id now answer statuses member
    exact sound.balanced.ledger.lawful _ member
  · intro target step blocker member
    exact sound.balanced.ledger.lawful _ member

theorem progress_ancestor_closed_twoWaits : ∃ sequence,
    Sequence.build twoWaits {} "waits" = .ok sequence ∧
      let world := (World.initial 0).run sequence countingRunner [.play, .pump 0, .pump 5]
      ∀ ancestor, sequence.Ancestor ancestor (StepId.ofIndex 1) →
        terminalStatus (world.player.status ancestor.index) = true := by
  obtain ⟨sequence, accepted⟩ := build_twoWaits
  have started : (Sequence.build twoWaits {} "waits").toOption.map (fun sequence =>
      (decide ((StepId.ofIndex 1) ∈ sequence.steps.map Step.id),
        ((World.initial 0).run sequence countingRunner
          [.play, .pump 0, .pump 5]).player.status (StepId.ofIndex 1).index)) =
        some (true, .running) := by
    decide +kernel
  rw [accepted, Except.toOption, map_some, some.injEq, Prod.mk.injEq,
    decide_eq_true_eq] at started
  refine ⟨sequence, accepted, (progress_ancestor_closed accepted countingRunner 0 _).1
    (StepId.ofIndex 1) (List.mem_map.mp started.1) ?_⟩
  rw [started.2]
  decide

/-- The frontier is the duplicate-free list of the ready and running steps,
finished steps never change, and a step is entered at most once and then once
more by the retry policy. -/
theorem frontier_exact (accepted : Sequence.build steps pacing name = .ok sequence)
    (runner : CommandRunner ρ) (state : ρ) (controls : List Control) :
    let world := (World.initial state).run sequence runner controls
    (world.player.state ≠ .done → world.player.state ≠ .interrupted →
        world.player.frontier.Nodup ∧
          ∀ id, id ∈ world.player.frontier ↔ sequence.Live id ∧
            (world.player.status id.index = .ready ∨ world.player.status id.index = .running)) ∧
      (∀ later (id : StepId), terminalStatus (world.player.status id.index) = true →
        (world.run sequence runner later).player.status id.index = world.player.status id.index) ∧
      ∀ id, sequence.Live id →
        entryCount id world.trace ≤ 1 + (world.player.runs id.index).retries ∧
          (world.player.runs id.index).retries ≤ maxRetriesPerStep := by
  intro world
  have sound : RunSound sequence runner state world := World.reachable_sound accepted state controls
  have frontier := sound.balanced.sound.frontier
  refine ⟨?_, ?_, ?_⟩
  · intro _ _
    refine ⟨frontier.nodup, ?_⟩
    intro id
    rw [frontier.mem_iff]
    simp [StepStatus.isActive]
  · intro later id terminal
    exact (World.run_sound (Sequence.built_of_build accepted) sound later).2 _ terminal
  intro id live
  refine ⟨?_, sound.balanced.ledger.bounded id live⟩
  have counted := sound.balanced.ledger.counted id live
  split at counted
  · exact counted
  · exact counted.trans (Nat.zero_le _)

theorem frontier_exact_twoWaits : ∃ sequence,
    Sequence.build twoWaits {} "waits" = .ok sequence ∧
      ((World.initial 0).run sequence countingRunner
        [.play, .pump 0, .pump 5]).player.frontier.Nodup := by
  obtain ⟨sequence, accepted⟩ := build_twoWaits
  have playing : (Sequence.build twoWaits {} "waits").toOption.map (fun sequence =>
      ((World.initial 0).run sequence countingRunner
        [.play, .pump 0, .pump 5]).player.state) = some .playing := by
    decide +kernel
  rw [accepted, Except.toOption, map_some, some.injEq] at playing
  refine ⟨sequence, accepted, ((frontier_exact accepted countingRunner 0 _).1 ?_ ?_).1⟩
  · rw [playing]
    decide
  · rw [playing]
    decide

end

end Grab.Kernel
