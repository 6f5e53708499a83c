import Grab.Sequence.Player.Follows

/-!
# The verdict of a run

The verdict on what a run left down is folded into the player, report by report.  It is the worst
of the outcomes the trace tells: of every exit but those of steps that have just succeeded, an
exit that attempted nothing counting as one that held nothing, and of every lift of holds.
-/

namespace Grab.NeutralizationOutcome

/-- From an untouched run to one that left something down. -/
def rank : NeutralizationOutcome → Nat
  | .notAttempted => 0
  | .nothingHeld => 1
  | .released => 2
  | .failed => 3

theorem rank_injective : Function.Injective rank := by
  intro first second same
  cases first <;> cases second <;> first | rfl | cases same

instance : LinearOrder NeutralizationOutcome := LinearOrder.lift' rank rank_injective

end Grab.NeutralizationOutcome

namespace Grab.Kernel

open Grab.Sequence Grab.Lib Relation

/-! ## The tally of a trace -/

/-- What a trace tells about its releases. -/
structure Tally where
  /-- The step whose success is the last that was heard. -/
  succeeding : Option StepId := none
  verdict : NeutralizationOutcome := .notAttempted
  deriving DecidableEq

def Tally.next (tally : Tally) : Event → Tally
  | .enter id _ answer _ | .tick id _ answer =>
    { tally with succeeding := if answer = .success then some id else none }
  | .exit id _ outcome =>
    ⟨none, if tally.succeeding = some id then tally.verdict
      else max tally.verdict (max .nothingHeld outcome)⟩
  | .releaseHolds _ outcome => ⟨none, max tally.verdict outcome⟩
  | .join _ | .jump _ _ => { tally with succeeding := none }

def tallyOf (trace : List Event) : Tally := trace.foldl Tally.next {}

theorem tallyOf_append (first second : List Event) :
    tallyOf (first ++ second) = second.foldl Tally.next (tallyOf first) :=
  List.foldl_append

theorem verdict_le_next (tally : Tally) (event : Event) :
    tally.verdict ≤ (tally.next event).verdict := by
  cases event with
  | enter | tick | join | jump => exact le_refl _
  | exit id now outcome =>
    rw [Tally.next]
    split
    · exact le_refl _
    · exact le_max_left _ _
  | releaseHolds id outcome => exact le_max_left _ _

/-- A failure that is reported once is the verdict from then on. -/
theorem verdict_of_failed {trace : List Event} {id : StepId}
    (reported : Event.releaseHolds id .failed ∈ trace) : (tallyOf trace).verdict = .failed := by
  have top : ∀ outcome : NeutralizationOutcome, .failed ≤ outcome → outcome = .failed := by
    intro outcome worst
    cases outcome <;> first | rfl | exact absurd worst (by decide)
  apply top
  rcases List.append_of_mem reported with ⟨front, back, rfl⟩
  rw [tallyOf_append, List.foldl_cons]
  have grows : ∀ (events : List Event) (tally : Tally),
      tally.verdict ≤ (events.foldl Tally.next tally).verdict := by
    intro events
    induction events with
    | nil => exact fun _ => le_refl _
    | cons event rest later =>
      exact fun tally => (verdict_le_next tally event).trans (later _)
  have heard : .failed ≤ ((tallyOf front).next (.releaseHolds id .failed)).verdict :=
    le_max_right _ _
  exact heard.trans (grows back _)

namespace Player

theorem recordExit_eq_max (player : Player) (outcome : NeutralizationOutcome) :
    player.recordExit outcome =
      { player with neutralization := max player.neutralization (max .nothingHeld outcome) } := by
  rcases player with ⟨_, _, _, _, _, neutralization⟩
  cases neutralization <;> cases outcome <;> rfl

theorem recordNeutralization_eq_max (player : Player) (outcome : NeutralizationOutcome) :
    player.recordNeutralization outcome =
      { player with neutralization := max player.neutralization outcome } := by
  rcases player with ⟨_, _, _, _, _, neutralization⟩
  cases neutralization <;> cases outcome <;> rfl

/-! ## What leaves the verdict alone -/

variable (sequence : Sequence)

@[simp]
theorem neutralization_setStatus (player : Player) (id : StepId) (next : StepStatus) :
    (player.setStatus sequence id next).neutralization = player.neutralization := by
  rw [setStatus]
  split <;> rfl

@[simp]
theorem neutralization_admitToFrontier (player : Player) (id : StepId) (readyAt : TimePoint) :
    (player.admitToFrontier sequence id readyAt).neutralization = player.neutralization := by
  simp only [admitToFrontier]
  split <;> rfl

theorem neutralization_foldl {α : Type} {turn : Player → α → Player}
    (single : ∀ player item, (turn player item).neutralization = player.neutralization)
    (items : List α) (player : Player) :
    (items.foldl turn player).neutralization = player.neutralization := by
  induction items generalizing player with
  | nil => rfl
  | cons item rest later => rw [List.foldl_cons, later, single]

@[simp]
theorem neutralization_admitSuccessors (player : Player) (id : StepId) :
    (player.admitSuccessors sequence id).neutralization = player.neutralization := by
  apply neutralization_foldl
  intro player successor
  rw [admitSuccessor]
  split
  · rfl
  split
  · rfl
  · split
    · rfl
    · simp

end Player

namespace World

section

variable {ρ : Type} {sequence : Sequence} {runner : CommandRunner ρ} {start : ρ}
  {world before after : World ρ} {now : TimePoint} {step : Step} {answer : Status}

/-- The verdict is what the trace tells, and no success waits for its exit. -/
def Told (world : World ρ) : Prop := tallyOf world.trace = ⟨none, world.player.neutralization⟩

/-- The last that was heard is an answer of a step. -/
def Heard (id : StepId) (answer : Status) (world : World ρ) : Prop :=
  tallyOf world.trace = ⟨if answer = .success then some id else none, world.player.neutralization⟩

theorem Told.of_same (told : before.Told) (trace : after.trace = before.trace)
    (verdict : after.player.neutralization = before.player.neutralization) : after.Told := by
  rw [Told, trace, verdict]
  exact told

/-! ## Moves -/

theorem told_neutralize (told : world.Told) (id : StepId) :
    (world.neutralize sequence runner id now).Told := by
  rcases world.neutralize_cases sequence runner id now with
    same | ⟨step, state, joins, outcome, _, _, joined, eq⟩
  · rw [same]
    exact told
  · rw [Told] at told
    rw [eq, Told, tallyOf_append, tallyOf_append, told, Player.recordExit_eq_max]
    rcases joined with rfl | rfl <;> rfl

theorem told_reapHolds (told : world.Told) (id : StepId) :
    (world.reapHolds sequence runner id).Told := by
  rcases world.reapHolds_cases sequence runner id with same | ⟨step, state, outcome, eq⟩
  · rw [same]
    exact told
  · rw [Told] at told
    rw [eq, Told, tallyOf_append, told, Player.recordNeutralization_eq_max]
    rfl

theorem told_markSkipped (told : world.Told) (id : StepId) :
    (world.markSkipped sequence id now).Told :=
  told.of_same rfl (Player.neutralization_setStatus sequence world.player id .skipped)

theorem told_of_move (told : before.Told) (move : Move sequence runner now before after) :
    after.Told := by
  cases move with
  | neutralize id => exact told_neutralize told id
  | reap id => exact told_reapHolds told id
  | measure id | finish id _ | note error | clear | stop => exact told.of_same rfl rfl
  | skip id _ => exact told_markSkipped told id
  | abandon id _ => exact told.of_same rfl (Player.neutralization_setStatus sequence _ id .pending)
  | announce target refused =>
    rw [Told] at told ⊢
    rw [tallyOf_append, told]
    rfl
  | place step _ _ =>
    refine told.of_same rfl ?_
    simp only [mapPlayer, placeTarget]
    split <;> simp
  | retire id status _ _ =>
    refine told.of_same rfl ?_
    simp [retire, mapPlayer, Player.dropFromFrontier]
  | admitted id => exact told.of_same rfl (Player.neutralization_admitSuccessors sequence _ id)

theorem told_of_moves (told : before.Told) (moves : Moves sequence runner now before after) :
    after.Told := by
  induction moves with
  | refl => exact told
  | tail _ move earlier => exact told_of_move earlier move

/-! ## Answers -/

theorem heard_tick (told : world.Told) (step : Step) :
    (world.callTick runner step now).2.Heard step.id (world.callTick runner step now).1 := by
  rw [Told] at told
  rw [Heard, callTick, tallyOf_append, told]
  rfl

theorem heard_enter (told : world.Told) (step : Step) :
    (world.callEnter runner step now).2.Heard step.id (world.callEnter runner step now).1 := by
  rw [Told] at told
  rw [Heard, callEnter, tallyOf_append, told]
  rfl

variable (built : sequence.Built)

include built

variable (member : step ∈ sequence.steps)

include member

/-- The exit of a step that succeeds does not count. -/
theorem told_succeed (answered : Answered sequence runner start step.id .success world)
    (heard : world.Heard step.id .success) : (world.succeed sequence runner step.id now).Told := by
  have isOpen := Player.isOpen_iff.mp ((isOpen_iff_running answered.sound.consistent
    ⟨step, member, rfl⟩).mpr answered.running)
  have openStill : ((world.finishRun step.id now).player.runs step.id.index).entered = true ∧
      ((world.finishRun step.id now).player.runs step.id.index).exited = false := by
    simpa [finishRun, mapPlayer, Player.updateRun] using isOpen
  have exited : ((world.finishRun step.id now).exitCompleted sequence runner step.id now).Told := by
    rw [exitCompleted, built.find_of_mem member]
    dsimp only
    rw [if_pos openStill, Told]
    rw [Heard] at heard
    simp only [callExit, mapPlayer, finishRun, tallyOf_append, heard]
    simp [Tally.next, Player.updateRun]
  refine exited.of_same rfl ?_
  simp [succeed, retire, admitSuccessors, mapPlayer, Player.dropFromFrontier]

variable (answered : Answered sequence runner start step.id answer world)

include answered

theorem told_failStep (timed : world.player.lastNow = now) (told : world.Told) (code : ErrorCode) :
    (world.failStep sequence runner step.id code now).Told := by
  have unfinished : terminalStatus (world.player.status step.id.index) = false := by
    rw [answered.running]
    rfl
  have frontierLive : ∀ id ∈ world.player.frontier, sequence.Live id :=
    fun id inFrontier => ((answered.sound.frontier.mem_iff id).mp inFrontier).1
  rcases moves_failStep built world ⟨step, member, rfl⟩ code unfinished frontierLive timed with
    ⟨retired, first, _, last⟩
  exact told_of_moves told (first.trans last)

/-- An answer is followed by what it leads to; a retry is heard on its own. -/
theorem told_onStatus (timed : world.player.lastNow = now) (heard : world.Heard step.id answer) :
    (world.onStatus sequence runner step.id answer now).Told := by
  refine onStatus_rule built member now
    (fun second after => after.Heard step.id second ∧ after.player.lastNow = now) World.Told
    ?_ ?_ ?_ answered ?_ ⟨heard, timed⟩
  · exact fun _ reached => reached.1
  · exact fun answered reached => told_succeed built member answered reached.1
  · exact fun code answered reached =>
      told_failStep built member answered reached.2 reached.1 code
  rintro rfl _
  have told : world.Told := heard
  have counted : (world.mapPlayer fun player => player.updateRun step.id fun run =>
      { run with retries := run.retries + 1 }).Told := told.of_same rfl rfl
  have reopened : ((((world.mapPlayer fun player => player.updateRun step.id fun run =>
      { run with retries := run.retries + 1 }).neutralize sequence runner step.id
        now).mapPlayer fun player => player.updateRun step.id fun run =>
          { run with exited := false, enteredAt := now })).Told :=
    (told_neutralize counted step.id).of_same rfl rfl
  refine ⟨heard_enter reopened step, ?_⟩
  rcases @reenter_player ρ sequence runner world step now with ⟨_, playerEq⟩
  rw [playerEq]
  exact timed

/-! ## Runs -/

omit answered member

theorem pumpRule_told :
    PumpRule sequence runner start now fun world =>
      world.Told ∧ world.player.lastNow = now where
  tick {world step} balanced _ member running kept := by
    have answered := tick_answered built balanced member running now
    exact ⟨told_onStatus built member answered kept.2 (heard_tick kept.1 step),
      (onStatus_grows built member answered kept.2).2⟩
  enter {world step} balanced _ member ready _ kept := by
    have answered := (enter_answered built balanced member ready now).1
    have inside := built.live_lt ⟨step, member, rfl⟩
    have timed : ((world.markEntered sequence runner step now).callEnter runner step
        now).2.player.lastNow = now := by
      rw [enter_player world inside]
      exact kept.2
    have marked : (world.markEntered sequence runner step now).Told := by
      refine kept.1.of_same rfl ?_
      simp [markEntered, mapPlayer, Player.updateRun]
    exact ⟨told_onStatus built member answered timed (heard_enter marked step),
      (onStatus_grows built member answered timed).2⟩

omit built

theorem told_foldl {turn : World ρ → StepId → World ρ}
    (single : ∀ world : World ρ, world.Told → ∀ id, (turn world id).Told) (ids : List StepId)
    (told : world.Told) : (ids.foldl turn world).Told := by
  induction ids generalizing world with
  | nil => exact told
  | cons id rest later => exact later (single world told id)

theorem told_settle (told : world.Told) : world.settle.Told := by
  rw [settle]
  split
  · exact told.of_same rfl rfl
  · exact told

theorem told_play (told : world.Told) : (world.play sequence).2.Told := by
  rw [play]
  cases world.player.state with
  | paused => exact told.of_same rfl rfl
  | playing | interrupted | done => exact told
  | idle =>
    refine told.of_same rfl ?_
    apply Player.neutralization_foldl
    intro player step
    split
    · rfl
    · simp

theorem told_skip (told : world.Told) : (world.skip sequence runner).2.Told := by
  rw [skip]
  split
  · exact told
  apply told_settle
  apply told_foldl
  · exact fun world told id =>
      told.of_same rfl (Player.neutralization_admitSuccessors sequence world.player id)
  apply told_foldl
  · intro world told id
    rw [skipMember]
    split
    · exact told
    apply told_markSkipped
    rw [exitIfEntered]
    split
    · exact told_of_moves told (moves_measured world id)
    · exact told
  · exact told.of_same rfl rfl

include built

variable (sound : RunSound sequence runner start world)

include sound

theorem told_gotoStep (told : world.Told) (target : StepId) :
    (world.gotoStep sequence runner target).2.Told := by
  rw [gotoStep]
  split
  · exact told
  have jumped := told_of_moves told
    (moves_jumpTo runner built world target (frontier_live sound.balanced) rfl)
  dsimp only
  split <;> exact jumped

theorem told_control (told : world.Told) (control : Control) :
    (world.control sequence runner control).2.Told := by
  cases control with
  | play => exact told_play told
  | pause =>
    rw [control, pause]
    split
    · exact told
    · exact told.of_same rfl rfl
  | pump now =>
    have pumped := (@pumpRule_told ρ sequence runner start now built).pump built sound
      ⟨told.of_same rfl rfl, rfl⟩ (fun {world} kept => ⟨told_settle kept.1, by
        rw [settle]
        split <;> exact kept.2⟩)
    exact pumped.1
  | skip => exact told_skip told
  | gotoStep target => exact told_gotoStep built sound told target
  | gotoLabel label =>
    rw [control, gotoLabel]
    split
    · exact told
    · exact told_gotoStep built sound told _
  | interrupt =>
    rw [control, interrupt]
    split
    · exact told
    · exact (told_of_moves told (moves_unwind world)).of_same rfl rfl

/-- In every run the verdict is what the trace tells. -/
theorem run_told (told : world.Told) (controls : List Control) :
    (world.run sequence runner controls).Told := by
  induction controls generalizing world with
  | nil => exact told
  | cons control rest later =>
    exact later (control_step built sound control).sound (told_control built sound told control)

end

end World

end Grab.Kernel
