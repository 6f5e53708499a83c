import Grab.Sequence.Planned
import Grab.Sequence.Player.Rule

/-!
# The elapsed time of a run

As long as no step failed or was skipped, every step is entered no earlier than its plan
allows, counted from the first entry, and finishes no earlier than its planned finish.
The runner has to be patient: a wait must not answer success before its time is over.
-/

namespace Grab.Kernel

open Grab.Sequence Grab.Lib List Function

/-- From the first entry to the last finish. -/
def Player.elapsed (player : Player) : Nanoseconds :=
  if player.anythingEntered = false ∨ player.lastFinish < player.firstEntry then 0
  else player.lastFinish - player.firstEntry

section

variable {ρ : Type} (sequence : Sequence) (runner : CommandRunner ρ) (start : ρ)

/-- A wait succeeds only when its duration has passed since it was entered. -/
structure Patient : Prop where
  enters : ∀ step duration now state, step.command = .wait duration →
    (runner.enter step now state).1 ≠ .success
  ticks : ∀ trace protocol state id step duration entered now,
    Conversation sequence runner start trace protocol state →
    protocol.isOpen id = true → protocol.due = none → sequence.find id = some step →
    step.command = .wait duration → lastEntry id trace = some entered →
    (runner.tick step now state).1 = .success → entered + duration ≤ now

/-- No step failed or was skipped. -/
def Spotless (player : Player) : Prop :=
  ∀ step ∈ sequence.steps, player.status step.id.index ≠ .failed ∧
    player.status step.id.index ≠ .skipped

variable (finish : Nat → Nanoseconds) (world : World ρ)

/-- A step becomes ready no earlier than planned, counted from the first entry. -/
def ReadyInTime (step : Step) : Prop :=
  world.player.anythingEntered = true ∧
    world.player.firstEntry + finish step.id.index ≤
      (world.player.runs step.id.index).readyAt + ownDuration step

/-- A step was entered no earlier than planned; the runner was told when. -/
structure EnteredInTime (step : Step) : Prop where
  begun : world.player.anythingEntered = true
  floor : world.player.firstEntry + finish step.id.index ≤
    (world.player.runs step.id.index).enteredAt + ownDuration step
  first : world.player.firstEntry ≤ (world.player.runs step.id.index).enteredAt
  past : (world.player.runs step.id.index).enteredAt ≤ world.player.lastNow
  told : lastEntry step.id world.trace = some (world.player.runs step.id.index).enteredAt

/-- A step finished no earlier than planned. -/
structure FinishedInTime (step : Step) : Prop where
  begun : world.player.anythingEntered = true
  floor : world.player.firstEntry + finish step.id.index ≤
    (world.player.runs step.id.index).finishedAt
  first : world.player.firstEntry ≤ (world.player.runs step.id.index).finishedAt
  counted : (world.player.runs step.id.index).finishedAt ≤ world.player.lastFinish

/-- Every step is at or behind its plan. -/
structure Timely : Prop where
  origin : world.player.anythingEntered = true → world.player.firstEntry ≤ world.player.lastNow
  ready : ∀ step ∈ sequence.steps, world.player.status step.id.index = .ready →
    step.after ≠ [] → ReadyInTime finish world step
  running : ∀ step ∈ sequence.steps, world.player.status step.id.index = .running →
    EnteredInTime finish world step
  succeeded : ∀ step ∈ sequence.steps, world.player.status step.id.index = .succeeded →
    FinishedInTime finish world step

end

section

variable {ρ : Type} {sequence : Sequence} {runner : CommandRunner ρ} {start : ρ}
  {finish : Nat → Nanoseconds} {world before after : World ρ} {now : TimePoint} {steps : List Step}

theorem Spotless.of_keeps {first last : Player}
    (keeps : Player.Keeps first last) (spotless : Spotless sequence last) :
    Spotless sequence first := by
  intro step member
  rcases spotless step member with ⟨notFailed, notSkipped⟩
  constructor
  · intro failed
    apply notFailed
    rw [keeps step.id.index (by rw [failed]; rfl), failed]
  · intro skipped
    apply notSkipped
    rw [keeps step.id.index (by rw [skipped]; rfl), skipped]

/-! ## Keeping time -/

/-- The same times in two records of a step. -/
structure SameTimes (before after : StepRun) : Prop where
  readyAt : after.readyAt = before.readyAt
  enteredAt : after.enteredAt = before.enteredAt
  finishedAt : after.finishedAt = before.finishedAt

theorem SameTimes.refl (run : StepRun) : SameTimes run run := ⟨rfl, rfl, rfl⟩

theorem SameTimes.trans {first middle last : StepRun} (left : SameTimes first middle)
    (right : SameTimes middle last) : SameTimes first last :=
  ⟨right.readyAt.trans left.readyAt, right.enteredAt.trans left.enteredAt,
    right.finishedAt.trans left.finishedAt⟩

/-- Nothing that the records of other steps are compared with has changed. -/
structure Onward (step : Step) (before after : World ρ) : Prop where
  elsewhere : ∀ index, index ≠ step.id.index →
    after.player.status index = before.player.status index ∧
      SameTimes (before.player.runs index) (after.player.runs index)
  kept : before.player.anythingEntered = true → after.player.anythingEntered = true ∧
    after.player.firstEntry = before.player.firstEntry
  lastNow : before.player.lastNow ≤ after.player.lastNow
  lastFinish : before.player.lastFinish ≤ after.player.lastFinish
  entries : ∀ id, id ≠ step.id → lastEntry id after.trace = lastEntry id before.trace

/-- A step of a status is at or behind its plan. -/
def StatusInTime (finish : Nat → Nanoseconds) (world : World ρ) (step : Step) : StepStatus → Prop
  | .ready => step.after ≠ [] → ReadyInTime finish world step
  | .running => EnteredInTime finish world step
  | .succeeded => FinishedInTime finish world step
  | _ => True

/-- Every step is left as it was, or in time itself. -/
theorem Timely.carried (timely : Timely sequence finish before)
    (kept : before.player.anythingEntered = true → after.player.anythingEntered = true ∧
      after.player.firstEntry = before.player.firstEntry)
    (lastNow : before.player.lastNow ≤ after.player.lastNow)
    (lastFinish : before.player.lastFinish ≤ after.player.lastFinish)
    (origin : after.player.anythingEntered = true → after.player.firstEntry ≤ after.player.lastNow)
    (each : ∀ step ∈ sequence.steps,
      (after.player.status step.id.index = before.player.status step.id.index ∧
        SameTimes (before.player.runs step.id.index) (after.player.runs step.id.index) ∧
        lastEntry step.id after.trace = lastEntry step.id before.trace) ∨
      StatusInTime finish after step (after.player.status step.id.index)) :
    Timely sequence finish after := by
  constructor
  case origin => exact origin
  case ready =>
    intro step member isReady waits
    rcases each step member with ⟨statusEq, times, _⟩ | inTime
    · rw [statusEq] at isReady
      rcases timely.ready step member isReady waits with ⟨begun, floor⟩
      rcases kept begun with ⟨still, firstEq⟩
      rw [ReadyInTime, firstEq, times.readyAt]
      exact ⟨still, floor⟩
    · rw [isReady] at inTime
      exact inTime waits
  case running =>
    intro step member isRunning
    rcases each step member with ⟨statusEq, times, entries⟩ | inTime
    · rw [statusEq] at isRunning
      rcases timely.running step member isRunning with ⟨begun, floor, first, past, told⟩
      rcases kept begun with ⟨still, firstEq⟩
      rw [← firstEq, ← times.enteredAt] at floor first
      rw [← times.enteredAt] at past told
      exact ⟨still, floor, first, past.trans lastNow, entries.trans told⟩
    · rw [isRunning] at inTime
      exact inTime
  case succeeded =>
    intro step member hasSucceeded
    rcases each step member with ⟨statusEq, times, _⟩ | inTime
    · rw [statusEq] at hasSucceeded
      rcases timely.succeeded step member hasSucceeded with ⟨begun, floor, first, counted⟩
      rcases kept begun with ⟨still, firstEq⟩
      rw [← firstEq, ← times.finishedAt] at floor first
      rw [← times.finishedAt] at counted
      exact ⟨still, floor, first, counted.trans lastFinish⟩
    · rw [hasSucceeded] at inTime
      exact inTime

/-- A change of one step that is in time itself. -/
theorem Timely.onward (built : sequence.Built) {step : Step} (member : step ∈ sequence.steps)
    (timely : Timely sequence finish before) (onward : Onward step before after)
    (origin : after.player.anythingEntered = true → after.player.firstEntry ≤ after.player.lastNow)
    {status : StepStatus} (statusIs : after.player.status step.id.index = status)
    (inTime : StatusInTime finish after step status) : Timely sequence finish after := by
  apply timely.carried onward.kept onward.lastNow onward.lastFinish origin
  intro later laterIn
  by_cases same : later = step
  · subst same
    rw [statusIs]
    exact .inr inTime
  have differs : later.id.index ≠ step.id.index :=
    fun sameIndex => same (built.step_eq laterIn member sameIndex)
  rcases onward.elsewhere _ differs with ⟨statusEq, times⟩
  exact .inl ⟨statusEq, times,
    onward.entries later.id fun idEq => differs (congrArg StepId.index idEq)⟩

/-- Nothing that the plan is compared with has changed. -/
structure Quiet (before after : World ρ) : Prop where
  status : after.player.status = before.player.status
  times : ∀ index, SameTimes (before.player.runs index) (after.player.runs index)
  lastNow : after.player.lastNow = before.player.lastNow
  firstEntry : after.player.firstEntry = before.player.firstEntry
  lastFinish : after.player.lastFinish = before.player.lastFinish
  anythingEntered : after.player.anythingEntered = before.player.anythingEntered
  entries : ∀ id, lastEntry id after.trace = lastEntry id before.trace

theorem Quiet.refl (world : World ρ) : Quiet world world :=
  ⟨rfl, fun _ => SameTimes.refl _, rfl, rfl, rfl, rfl, fun _ => rfl⟩

theorem Quiet.trans {middle : World ρ} (first : Quiet before middle)
    (last : Quiet middle after) : Quiet before after where
  status := last.status.trans first.status
  times index := (first.times index).trans (last.times index)
  lastNow := last.lastNow.trans first.lastNow
  firstEntry := last.firstEntry.trans first.firstEntry
  lastFinish := last.lastFinish.trans first.lastFinish
  anythingEntered := last.anythingEntered.trans first.anythingEntered
  entries id := (last.entries id).trans (first.entries id)

theorem Timely.quiet (timely : Timely sequence finish before) (quiet : Quiet before after) :
    Timely sequence finish after := by
  apply timely.carried _ quiet.lastNow.ge quiet.lastFinish.ge
  · rw [quiet.anythingEntered, quiet.firstEntry, quiet.lastNow]
    exact timely.origin
  · intro step _
    rw [quiet.status]
    exact .inl ⟨rfl, quiet.times _, quiet.entries _⟩
  · exact fun begun => ⟨quiet.anythingEntered.trans begun, quiet.firstEntry⟩

theorem quiet_updateRun (world : World ρ) (id : StepId) (change : StepRun → StepRun)
    (sameReady : ∀ run, (change run).readyAt = run.readyAt)
    (sameEntered : ∀ run, (change run).enteredAt = run.enteredAt)
    (sameFinished : ∀ run, (change run).finishedAt = run.finishedAt) :
    Quiet world (world.mapPlayer fun player => player.updateRun id change) where
  status := rfl
  times index := by
    by_cases here : index = id.index
    · subst here
      constructor
      · simp [World.mapPlayer, Player.updateRun, sameReady]
      · simp [World.mapPlayer, Player.updateRun, sameEntered]
      · simp [World.mapPlayer, Player.updateRun, sameFinished]
    rw [World.mapPlayer, Player.updateRun]
    dsimp only
    rw [update_of_ne here]
    exact SameTimes.refl _
  lastNow := rfl
  firstEntry := rfl
  lastFinish := rfl
  anythingEntered := rfl
  entries _ := rfl

theorem quiet_callTick (runner : CommandRunner ρ) (world : World ρ) (step : Step)
    (now : TimePoint) : Quiet world (world.callTick runner step now).2 :=
  ⟨rfl, fun _ => SameTimes.refl _, rfl, rfl, rfl, rfl, fun _ => lastEntry_quiet rfl⟩

theorem quiet_callExit (runner : CommandRunner ρ) (world : World ρ) (step : Step)
    (now : TimePoint) : Quiet world (world.callExit runner step now).2 :=
  ⟨rfl, fun _ => SameTimes.refl _, rfl, rfl, rfl, rfl, fun _ => lastEntry_quiet rfl⟩

theorem quiet_neutralize (world : World ρ) (id : StepId) (now : TimePoint) :
    Quiet world (world.neutralize sequence runner id now) := by
  rcases world.neutralize_cases sequence runner id now with
    same | ⟨step, state, joins, outcome, _, _, joined, eq⟩
  · rw [same]
    exact Quiet.refl world
  have marked := quiet_updateRun world id (fun run => { run with exited := true })
    (fun _ => rfl) (fun _ => rfl) fun _ => rfl
  rcases (world.player.updateRun id fun run => { run with exited := true }).recordExit_eq
    outcome with ⟨verdict, recorded⟩
  rw [eq, recorded]
  refine ⟨rfl, marked.times, rfl, rfl, rfl, rfl, fun other => ?_⟩
  rcases joined with rfl | rfl
  · rw [append_nil, lastEntry_quiet rfl]
  · rw [lastEntry_quiet rfl, lastEntry_quiet rfl]

theorem quiet_exitCompleted (world : World ρ) (id : StepId) (now : TimePoint) :
    Quiet world (world.exitCompleted sequence runner id now) := by
  rw [World.exitCompleted]
  split
  · exact Quiet.refl world
  rename_i step _
  split
  · exact (quiet_callExit runner world step now).trans
      (quiet_updateRun _ id _ (fun _ => rfl) (fun _ => rfl) fun _ => rfl)
  · exact Quiet.refl world

/-! ## Entering -/

section

variable (built : sequence.Built) {step : Step} (member : step ∈ sequence.steps)

include built member

/-- A step that is due is entered. -/
theorem Timely.enter (plan : IsPlan sequence sequence.pacing finish step)
    (timely : Timely sequence finish world) (timed : world.player.lastNow = now)
    (isReady : world.player.status step.id.index = .ready)
    (isDue : (world.player.runs step.id.index).readyAt ≤ now) :
    Timely sequence finish
      ((world.markEntered sequence runner step now).callEnter runner step now).2 := by
  have inside := built.live_lt ⟨step, member, rfl⟩
  have playerEq := @World.enter_player ρ sequence runner world step now inside
  have firstLe : (if world.player.anythingEntered then world.player.firstEntry else now) ≤
      now := by
    split
    · rename_i begun
      rw [← timed]
      exact timely.origin begun
    · exact le_refl now
  apply timely.onward built member
  case onward =>
    constructor
    case elsewhere =>
      intro index different
      rw [playerEq]
      dsimp only
      rw [update_of_ne different, update_of_ne different]
      exact ⟨rfl, SameTimes.refl _⟩
    case kept =>
      intro begun
      rw [playerEq]
      exact ⟨rfl, if_pos begun⟩
    case lastNow => rw [playerEq]
    case lastFinish => rw [playerEq]
    case entries =>
      intro id different
      exact (lastEntry_enter id step.id _ now _ _).trans (if_neg (Ne.symm different))
  case origin =>
    intro _
    rw [playerEq]
    exact firstLe.trans timed.ge
  case statusIs =>
    exact (congrArg (fun player : Player => player.status step.id.index) playerEq).trans
      (update_self ..)
  case inTime =>
    have enteredAt : (((world.markEntered sequence runner step now).callEnter runner step
        now).2.player.runs step.id.index).enteredAt = now := by
      rw [playerEq]
      dsimp only
      rw [update_self]
    constructor
    case begun => rw [playerEq]
    case floor =>
      rw [enteredAt, playerEq]
      dsimp only
      by_cases isRoot : step.after = []
      · -- a root has no grace and nothing to wait for
        have finishEq : finish step.id.index = ownDuration step := by
          rw [plan, isRoot, graceBefore, if_pos isRoot]
          simp [readyAfter]
        rw [finishEq]
        exact Int.add_le_add_right firstLe _
      · rcases timely.ready step member isReady isRoot with ⟨begun, floor⟩
        rw [if_pos begun]
        exact floor.trans (Int.add_le_add_right isDue _)
    case first =>
      rw [enteredAt, playerEq]
      exact firstLe
    case past =>
      rw [enteredAt, playerEq]
      exact timed.ge
    case told =>
      rw [enteredAt]
      exact (lastEntry_enter step.id step.id _ now _ _).trans (if_pos rfl)

/-- A failed step is entered once more. -/
theorem Timely.reenter (timely : Timely sequence finish world) (timed : world.player.lastNow = now)
    (isRunning : world.player.status step.id.index = .running) :
    Timely sequence finish (world.reenter sequence runner step now).2 ∧
      ((world.reenter sequence runner step now).2.player.runs step.id.index).enteredAt = now ∧
      (world.reenter sequence runner step now).2.player.lastNow = now := by
  generalize countedEq : (world.mapPlayer fun player => player.updateRun step.id fun run =>
    { run with retries := run.retries + 1 }) = counted
  have quietCounted : Quiet world counted := by
    rw [← countedEq]
    exact quiet_updateRun world step.id _ (fun _ => rfl) (fun _ => rfl) fun _ => rfl
  have quiet : Quiet world (counted.neutralize sequence runner step.id now) :=
    quietCounted.trans (quiet_neutralize counted step.id now)
  have still := timely.quiet quiet
  have reenterEq : (world.reenter sequence runner step now).2 =
      (((counted.neutralize sequence runner step.id now).mapPlayer fun player =>
        player.updateRun step.id fun run =>
          { run with exited := false, enteredAt := now }).callEnter runner step now).2 := by
    rw [← countedEq]
    rfl
  rw [reenterEq]
  generalize counted.neutralize sequence runner step.id now = left at quiet still
  rw [← quiet.status] at isRunning
  have inTime := still.running step member isRunning
  have timedLeft : left.player.lastNow = now := quiet.lastNow.trans timed
  have enteredAt : ((((left.mapPlayer fun player => player.updateRun step.id fun run =>
      { run with exited := false, enteredAt := now }).callEnter runner step
        now).2.player.runs step.id.index)).enteredAt = now := by
    simp [World.callEnter, World.mapPlayer, Player.updateRun]
  have past := inTime.past
  rw [timedLeft] at past
  refine ⟨?_, enteredAt, timedLeft⟩
  apply still.onward built member
  case onward =>
    refine ⟨?_, fun begun => ⟨begun, rfl⟩, le_refl _, le_refl _, ?_⟩
    · intro index different
      simp only [World.callEnter, World.mapPlayer, Player.updateRun, update_of_ne different]
      exact ⟨trivial, SameTimes.refl _⟩
    · intro id different
      exact (lastEntry_enter id step.id _ now _ _).trans (if_neg (Ne.symm different))
  case origin => exact still.origin
  case statusIs => exact isRunning
  case inTime =>
    constructor
    case begun => exact inTime.begun
    case floor =>
      rw [enteredAt]
      exact inTime.floor.trans (Int.add_le_add_right past _)
    case first =>
      rw [enteredAt]
      exact inTime.first.trans past
    case past =>
      rw [enteredAt]
      exact timedLeft.ge
    case told =>
      rw [enteredAt]
      exact (lastEntry_enter step.id step.id _ now _ _).trans (if_pos rfl)

end

/-! ## Finishing -/

/-- A running step that took its own time is retired. -/
theorem Timely.retire (built : sequence.Built) {step : Step} (member : step ∈ sequence.steps)
    (timely : Timely sequence finish world) (timed : world.player.lastNow = now)
    (isRunning : world.player.status step.id.index = .running)
    (long : (world.player.runs step.id.index).enteredAt + ownDuration step ≤ now) :
    Timely sequence finish
      (((world.finishRun step.id now).exitCompleted sequence runner step.id now).retire sequence
        step.id .succeeded now) := by
  have inTime := timely.running step member isRunning
  have past := inTime.past
  rw [timed] at past
  have inside := built.live_lt ⟨step, member, rfl⟩
  have quiet : Quiet (world.finishRun step.id now)
      ((world.finishRun step.id now).exitCompleted sequence runner step.id now) :=
    quiet_exitCompleted _ step.id now
  generalize (world.finishRun step.id now).exitCompleted sequence runner step.id now = left at quiet
  have finishedAt : (left.player.runs step.id.index).finishedAt = now := by
    rw [(quiet.times _).finishedAt]
    simp [World.finishRun, World.mapPlayer, Player.updateRun]
  have retiredEq : (left.retire sequence step.id .succeeded now).player =
      { left.player with
        status := Function.update left.player.status step.id.index .succeeded
        lastFinish := max left.player.lastFinish now
        frontier := left.player.frontier.erase step.id } := by
    rw [World.retire, World.mapPlayer]
    simp only [Player.setStatus, if_neg (Nat.not_le.mpr inside)]
    rfl
  apply timely.onward built member
  case onward =>
    constructor
    case elsewhere =>
      intro index different
      rw [retiredEq]
      dsimp only
      rw [update_of_ne different, quiet.status]
      refine ⟨rfl, SameTimes.trans ?_ (quiet.times index)⟩
      simp only [World.finishRun, World.mapPlayer, Player.updateRun, update_of_ne different]
      exact SameTimes.refl _
    case kept =>
      intro begun
      rw [retiredEq]
      exact ⟨quiet.anythingEntered.trans begun, quiet.firstEntry⟩
    case lastNow =>
      rw [retiredEq]
      exact quiet.lastNow.ge
    case lastFinish =>
      rw [retiredEq]
      exact quiet.lastFinish.ge.trans (le_max_left _ _)
    case entries =>
      intro id _
      exact quiet.entries id
  case origin =>
    intro _
    rw [retiredEq]
    dsimp only
    rw [quiet.firstEntry, quiet.lastNow]
    exact timely.origin inTime.begun
  case statusIs =>
    exact (congrArg (fun player : Player => player.status step.id.index) retiredEq).trans
      (update_self ..)
  case inTime =>
    constructor
    case begun =>
      rw [retiredEq]
      exact quiet.anythingEntered.trans inTime.begun
    case floor =>
      rw [retiredEq]
      dsimp only
      rw [finishedAt, quiet.firstEntry]
      exact inTime.floor.trans long
    case first =>
      rw [retiredEq]
      dsimp only
      rw [finishedAt, quiet.firstEntry]
      exact inTime.first.trans past
    case counted =>
      rw [retiredEq]
      dsimp only
      rw [finishedAt]
      exact le_max_right _ _

/-- A step becomes ready in time when those it comes after finished in time. -/
theorem Timely.readied (built : sequence.Built) {step : Step} (member : step ∈ sequence.steps)
    (timely : Timely sequence finish world) {readyAt : TimePoint}
    (ready : step.after ≠ [] → world.player.anythingEntered = true ∧
      world.player.firstEntry + finish step.id.index ≤ readyAt + ownDuration step) :
    Timely sequence finish (world.mapPlayer fun player =>
      (player.setStatus sequence step.id .ready).admitToFrontier sequence step.id readyAt) := by
  rw [World.mapPlayer, Player.admitToFrontier_setStatus _ (built.live_lt ⟨step, member, rfl⟩)]
  apply timely.onward built member
  case onward =>
    constructor
    case elsewhere =>
      intro index different
      dsimp only
      rw [update_of_ne different, update_of_ne different]
      exact ⟨rfl, SameTimes.refl _⟩
    case kept => exact fun begun => ⟨begun, rfl⟩
    case lastNow => exact le_refl _
    case lastFinish => exact le_refl _
    case entries => exact fun id _ => rfl
  case origin => exact timely.origin
  case statusIs => exact update_self ..
  case inTime =>
    intro waits
    rcases ready waits with ⟨begun, floor⟩
    refine ⟨begun, ?_⟩
    dsimp only
    rw [update_self]
    exact floor

/-- A successor that becomes ready does so in time. -/
theorem Timely.admitSuccessor (built : sequence.Built)
    (plan : ∀ step ∈ sequence.steps, IsPlan sequence sequence.pacing finish step)
    (spotless : Spotless sequence world.player) (timely : Timely sequence finish world)
    (successor : StepId) :
    Timely sequence finish
      (world.mapPlayer fun player => player.admitSuccessor sequence successor) := by
  rcases @Player.admitSuccessor_cases sequence world.player successor with
    unchanged | ⟨step, member, eligible, isEligible, _, playerEq⟩
  · rw [World.mapPlayer, unchanged]
    exact timely
  rcases Player.eligibleAt_spec isEligible with ⟨_, predecessors⟩
  rw [World.mapPlayer, playerEq]
  apply timely.readied built member
  intro waits
  have finished : ∀ predecessor ∈ step.after,
      ∃ earlier ∈ sequence.steps, earlier.id = predecessor ∧
        FinishedInTime finish world earlier := by
    intro predecessor inAfter
    rcases built.afterLive step member predecessor inAfter with ⟨earlier, earlierIn, rfl⟩
    refine ⟨earlier, earlierIn, rfl, timely.succeeded earlier earlierIn ?_⟩
    have terminal := (predecessors earlier.id inAfter).1
    have clean := spotless earlier earlierIn
    cases statusIs : world.player.status earlier.id.index with
    | succeeded => rfl
    | failed => exact absurd statusIs clean.1
    | skipped => exact absurd statusIs clean.2
    | pending | ready | running => rw [statusIs] at terminal; cases terminal
  rcases exists_mem_of_ne_nil _ waits with ⟨some, someIn⟩
  rcases finished some someIn with ⟨earlier, _, rfl, earlierFinished⟩
  refine ⟨earlierFinished.begun, ?_⟩
  rw [plan step member]
  have latest : readyAfter sequence finish step.after ≤ eligible - world.player.firstEntry := by
    apply readyAfter_le
    · exact Int.sub_nonneg_of_le (earlierFinished.first.trans (predecessors _ someIn).2)
    intro predecessor inAfter
    rcases finished predecessor inAfter with ⟨other, _, rfl, otherFinished⟩
    exact Int.le_sub_left_of_add_le (otherFinished.floor.trans (predecessors _ inAfter).2)
  have arithmetic : ∀ first ready grace own limit : Int, ready ≤ limit - first →
      first + (ready + grace + own) ≤ limit + grace + own := by omega
  exact arithmetic _ _ _ _ _ latest

/-! ## Answers -/

section

variable (built : sequence.Built)
  (plan : ∀ step ∈ sequence.steps, IsPlan sequence sequence.pacing finish step) {step : Step}
  (member : step ∈ sequence.steps)

include built plan

theorem Timely.admitSuccessors (spotless : Spotless sequence world.player)
    (timely : Timely sequence finish world) (id : StepId) :
    Timely sequence finish (world.admitSuccessors sequence id) ∧
      (world.admitSuccessors sequence id).player.lastNow = world.player.lastNow := by
  rw [World.admitSuccessors, World.mapPlayer, Player.admitSuccessors]
  generalize Rows.row (Player.successorTable sequence) id.index = successors
  rcases world with ⟨player, state, trace⟩
  induction successors generalizing player with
  | nil => exact ⟨timely, rfl⟩
  | cons successor rest ih =>
    have admitted := timely.admitSuccessor built plan spotless successor
    have stillSpotless : Spotless sequence (player.admitSuccessor sequence successor) ∧
        (player.admitSuccessor sequence successor).lastNow = player.lastNow := by
      rcases @Player.admitSuccessor_cases sequence player successor with
        unchanged | ⟨step, member, eligible, _, _, playerEq⟩
      · rw [unchanged]
        exact ⟨spotless, rfl⟩
      rw [playerEq, Player.admitToFrontier_setStatus _ (built.live_lt ⟨step, member, rfl⟩)]
      refine ⟨?_, rfl⟩
      intro later laterIn
      dsimp only
      by_cases here : later.id.index = step.id.index
      · rw [here, update_self]
        exact ⟨StepStatus.noConfusion, StepStatus.noConfusion⟩
      · rw [update_of_ne here]
        exact spotless later laterIn
    rcases ih _ stillSpotless.1 admitted with ⟨last, lastNow⟩
    exact ⟨last, lastNow.trans stillSpotless.2⟩

include member

theorem Timely.succeed (timely : Timely sequence finish world)
    (spotless : Spotless sequence world.player) (timed : world.player.lastNow = now)
    (isRunning : world.player.status step.id.index = .running)
    (long : (world.player.runs step.id.index).enteredAt + ownDuration step ≤ now) :
    Timely sequence finish (world.succeed sequence runner step.id now) ∧
      (world.succeed sequence runner step.id now).player.lastNow = now := by
  have retired : Timely sequence finish
      (((world.finishRun step.id now).exitCompleted sequence runner step.id now).retire sequence
        step.id .succeeded now) := timely.retire built member timed isRunning long
  have inside := built.live_lt ⟨step, member, rfl⟩
  have quiet : Quiet (world.finishRun step.id now)
      ((world.finishRun step.id now).exitCompleted sequence runner step.id now) :=
    quiet_exitCompleted _ step.id now
  rw [World.succeed]
  generalize (world.finishRun step.id now).exitCompleted sequence runner step.id now = left
    at quiet retired
  have statusEq : (left.retire sequence step.id .succeeded now).player.status =
      Function.update left.player.status step.id.index .succeeded :=
    Player.status_setStatus inside .succeeded
  have lastNow : (left.retire sequence step.id .succeeded now).player.lastNow = now := by
    have setEq : (left.player.setStatus sequence step.id .succeeded).lastNow =
        left.player.lastNow := by
      rw [Player.setStatus]
      split <;> rfl
    exact setEq.trans (quiet.lastNow.trans timed)
  have stillSpotless : Spotless sequence (left.retire sequence step.id .succeeded now).player := by
    intro later laterIn
    rw [statusEq, quiet.status]
    by_cases here : later.id.index = step.id.index
    · rw [here, update_self]
      exact ⟨StepStatus.noConfusion, StepStatus.noConfusion⟩
    · rw [update_of_ne here]
      exact spotless later laterIn
  rcases retired.admitSuccessors built plan stillSpotless step.id with ⟨admitted, same⟩
  exact ⟨admitted, same.trans lastNow⟩

end

/-- The world is in time unless a step failed or was skipped. -/
def OnTime (sequence : Sequence) (finish : Nat → Nanoseconds) (now : TimePoint)
    (world : World ρ) : Prop :=
  Spotless sequence world.player → Timely sequence finish world ∧ world.player.lastNow = now

section

variable (built : sequence.Built)
  (plan : ∀ step ∈ sequence.steps, IsPlan sequence sequence.pacing finish step)
  (patient : Patient sequence runner start) {step : Step} (member : step ∈ sequence.steps)

include patient in
theorem ownDuration_of_entered {state : ρ}
    (success : (runner.enter step now state).1 = .success) : ownDuration step = 0 := by
  rw [ownDuration, declaredWait]
  cases commandIs : step.command with
  | wait duration => exact absurd success (patient.enters step duration now state commandIs)
  | _ => rfl

include built plan patient member

theorem onStatus_onTime {answer : Status}
    (answered : World.Answered sequence runner start step.id answer world)
    (onTime : OnTime sequence finish now world)
    (long : Timely sequence finish world → world.player.lastNow = now → answer = .success →
      (world.player.runs step.id.index).enteredAt + ownDuration step ≤ now) :
    OnTime sequence finish now (world.onStatus sequence runner step.id answer now) := by
  have live := sequence.live_of_mem member
  have fails : ∀ {world : World ρ} (code : ErrorCode),
      World.Answered sequence runner start step.id .failure world →
      OnTime sequence finish now (world.failStep sequence runner step.id code now) :=
    fun code answered spotless =>
      absurd (World.failStep_spec built live answered code now).2 (spotless step member).1
  refine World.onStatus_rule built member now (fun second after => Spotless sequence after.player →
    (Timely sequence finish after ∧ after.player.lastNow = now) ∧ (second = .success →
      (after.player.runs step.id.index).enteredAt + ownDuration step ≤ now)) _ ?_ ?_
    (fun code answered _ => fails code answered) answered ?_
    fun spotless => ⟨onTime spotless, long (onTime spotless).1 (onTime spotless).2⟩
  · exact fun _ reached spotless => (reached spotless).1
  · intro middle answered reached spotless
    have advances := World.succeed_advances built member answered now
    have before := Spotless.of_keeps advances.keeps spotless
    rcases reached before with ⟨⟨timely, timed⟩, long⟩
    exact timely.succeed built plan member before timed answered.running (long rfl)
  rintro rfl mayStill spotless
  rcases @World.reenter_player ρ sequence runner world step now with ⟨_, playerEq⟩
  rw [Spotless, playerEq] at spotless
  rcases onTime spotless with ⟨timely, timed⟩
  have reentered : Timely sequence finish (world.reenter sequence runner step now).2 ∧ _ ∧ _ :=
    timely.reenter built member timed answered.running
  rcases reentered with ⟨stillTimely, enteredAt, stillTimed⟩
  refine ⟨⟨stillTimely, stillTimed⟩, fun success => ?_⟩
  rw [enteredAt, ownDuration_of_entered patient success, Int.add_zero]

end

/-! ## The pump -/

theorem OnTime.quiet (onTime : OnTime sequence finish now before) (quiet : Quiet before after) :
    OnTime sequence finish now after := by
  intro spotless
  have spotlessBefore : Spotless sequence before.player := by
    intro step member
    rw [← quiet.status]
    exact spotless step member
  rcases onTime spotlessBefore with ⟨timely, timed⟩
  exact ⟨timely.quiet quiet, quiet.lastNow.trans timed⟩

section

variable (built : sequence.Built)
  (plan : ∀ step ∈ sequence.steps, IsPlan sequence sequence.pacing finish step)
  (patient : Patient sequence runner start)

include built patient in
/-- A running step that answers success has taken its own time. -/
theorem long_of_ticked (balanced : Balanced sequence runner start world) {step : Step}
    (member : step ∈ sequence.steps) (running : world.player.status step.id.index = .running)
    (timely : Timely sequence finish (world.callTick runner step now).2)
    (timed : (world.callTick runner step now).2.player.lastNow = now)
    (success : (world.callTick runner step now).1 = .success) :
    ((world.callTick runner step now).2.player.runs step.id.index).enteredAt +
      ownDuration step ≤ now := by
  have live := sequence.live_of_mem member
  have inTime := timely.running step member running
  rw [ownDuration, declaredWait]
  cases commandIs : step.command with
  | wait duration =>
    rcases balanced.ledger.conversation with ⟨protocol, conversation, idle, openIff⟩
    have isOpen : protocol.isOpen step.id = true := (openIff step.id).mpr
      ⟨live, (isOpen_iff_running balanced.sound.consistent live).mpr running⟩
    have told := inTime.told
    rw [(quiet_callTick runner world step now).entries] at told
    exact patient.ticks world.trace protocol world.runner step.id step duration _ now
      conversation isOpen idle (built.find_of_mem member) commandIs told success
  | _ =>
    have past := inTime.past
    rw [timed] at past
    exact (Int.add_zero _).le.trans past

include built plan patient in
theorem pumpRule_onTime : PumpRule sequence runner start now (OnTime sequence finish now) where
  tick {world step} balanced _ member running onTime := by
    apply onStatus_onTime built plan patient member
      (World.tick_answered built balanced member running now)
    · exact onTime.quiet (quiet_callTick runner world step now)
    · exact long_of_ticked built patient balanced member running
  enter {world step} balanced _ member ready isDue onTime := by
    rcases World.enter_answered built balanced member ready now with ⟨answered, keeps, _⟩
    have entered : OnTime sequence finish now
        ((world.markEntered sequence runner step now).callEnter runner step now).2 := by
      intro spotless
      rcases onTime (Spotless.of_keeps keeps spotless) with ⟨timely, timed⟩
      refine ⟨timely.enter built member (plan step member) timed ready isDue, ?_⟩
      have setEq : (world.player.setStatus sequence step.id .running).lastNow =
          world.player.lastNow := by
        rw [Player.setStatus]
        split <;> rfl
      exact setEq.trans timed
    apply onStatus_onTime built plan patient member answered entered
    intro timely timed success
    have past := (timely.running step member answered.running).past
    rw [timed] at past
    rw [ownDuration_of_entered patient success]
    exact (Int.add_zero _).le.trans past

end

/-! ## Whole runs -/

/-- In time, and ready for later pumps, unless a step failed or was skipped or the run
was interrupted. -/
def InTime (sequence : Sequence) (finish : Nat → Nanoseconds) (later : List TimePoint)
    (world : World ρ) : Prop :=
  world.player.state ≠ .interrupted → Spotless sequence world.player →
    Timely sequence finish world ∧
      ∀ now ∈ later, world.player.anythingEntered = true → world.player.lastNow ≤ now

/-- The pump times of a list of controls. -/
def pumpTimes (controls : List Control) : List TimePoint :=
  controls.filterMap fun control =>
    match control with
    | .pump now => some now
    | _ => none

/-- A control that neither skips nor jumps. -/
def Control.inOrder : Control → Bool
  | .skip => false
  | .gotoStep _ => false
  | .gotoLabel _ => false
  | _ => true

/-- The clock may only go forward once something was entered. -/
theorem Timely.later (timely : Timely sequence finish world)
    (forward : world.player.anythingEntered = true → world.player.lastNow ≤ now) :
    Timely sequence finish (world.mapPlayer fun player => { player with lastNow := now }) where
  origin begun := (timely.origin begun).trans (forward begun)
  ready := timely.ready
  running step member isRunning := by
    have inTime := timely.running step member isRunning
    exact ⟨inTime.begun, inTime.floor, inTime.first, inTime.past.trans (forward inTime.begun),
      inTime.told⟩
  succeeded step member hasSucceeded := by
    have inTime := timely.succeeded step member hasSucceeded
    exact ⟨inTime.begun, inTime.floor, inTime.first, inTime.counted⟩

/-- A root may become ready at any time. -/
theorem Timely.admitRoots (built : sequence.Built) (inside : steps ⊆ sequence.steps)
    {player : Player} {state : ρ} {trace : List Event}
    (timely : Timely sequence finish ⟨player, state, trace⟩) :
    let admitted := steps.foldl
      (fun player step =>
        if step.after ≠ [] then player
        else
          (player.setStatus sequence step.id .ready).admitToFrontier sequence step.id
            player.lastNow)
      player
    Timely sequence finish ⟨admitted, state, trace⟩ ∧ admitted.lastNow = player.lastNow ∧
      admitted.anythingEntered = player.anythingEntered := by
  induction steps generalizing player with
  | nil => exact ⟨timely, rfl, rfl⟩
  | cons step rest ih =>
    have restInside : rest ⊆ sequence.steps := fun later member => inside (mem_cons_of_mem _ member)
    have member := inside mem_cons_self
    rw [foldl_cons]
    by_cases waits : step.after ≠ []
    · rw [if_pos waits]
      exact ih restInside timely
    rw [if_neg waits]
    have readied := @Timely.readied ρ sequence finish _ built step member timely player.lastNow
      fun impossible => absurd impossible waits
    rw [World.mapPlayer, Player.admitToFrontier_setStatus player
      (built.live_lt ⟨step, member, rfl⟩)] at readied
    rw [Player.admitToFrontier_setStatus player (built.live_lt ⟨step, member, rfl⟩)]
    exact ih restInside readied

section

variable (built : sequence.Built)
  (plan : ∀ step ∈ sequence.steps, IsPlan sequence sequence.pacing finish step)
  (patient : Patient sequence runner start) {later : List TimePoint}

include built

theorem play_inTime (sound : RunSound sequence runner start world)
    (inTime : InTime sequence finish later world) :
    InTime sequence finish later (world.play sequence).2 := by
  rw [World.play]
  cases stateIs : world.player.state with
  | paused =>
    intro _ spotless
    rcases inTime (by rw [stateIs]; exact PlayState.noConfusion) spotless with ⟨timely, forward⟩
    refine ⟨timely.quiet ?_, forward⟩
    exact ⟨rfl, fun _ => SameTimes.refl _, rfl, rfl, rfl, rfl, fun _ => rfl⟩
  | playing | interrupted | done => exact inTime
  | idle =>
    intro _ _
    have pending := (sound.idle stateIs).1
    have spotless : Spotless sequence world.player := by
      intro step member
      rw [pending]
      exact ⟨StepStatus.noConfusion, StepStatus.noConfusion⟩
    rcases inTime (by rw [stateIs]; exact PlayState.noConfusion) spotless with ⟨timely, forward⟩
    have quiet : Quiet world (world.mapPlayer fun player => { player with state := .playing }) :=
      ⟨rfl, fun _ => SameTimes.refl _, rfl, rfl, rfl, rfl, fun _ => rfl⟩
    rcases (timely.quiet quiet).admitRoots built (Subset.refl _) with
      ⟨admitted, lastNow, begun⟩
    refine ⟨admitted, ?_⟩
    intro now member entered
    exact lastNow.le.trans (forward now member (begun.symm.trans entered))

omit built in
theorem pause_inTime (inTime : InTime sequence finish later world) :
    InTime sequence finish later world.pause.2 := by
  rw [World.pause]
  split
  · exact inTime
  rename_i isPlaying
  rw [not_not] at isPlaying
  intro _ spotless
  rcases inTime (by rw [isPlaying]; exact PlayState.noConfusion) spotless with ⟨timely, forward⟩
  refine ⟨timely.quiet ?_, forward⟩
  exact ⟨rfl, fun _ => SameTimes.refl _, rfl, rfl, rfl, rfl, fun _ => rfl⟩

include plan patient

variable (sound : RunSound sequence runner start world)

include sound

theorem pump_inTime {now : TimePoint} (sorted : ∀ next ∈ later, now ≤ next)
    (inTime : InTime sequence finish (now :: later) world) :
    InTime sequence finish later (world.pump sequence runner now).2 := by
  intro going spotless
  have stepped := World.pump_step built sound now
  have spotlessBefore := Spotless.of_keeps stepped.keeps spotless
  rw [World.pump_world] at going spotless ⊢
  dsimp only at going spotless ⊢
  have timed : world.player.state ≠ .interrupted → Timely sequence finish
      (world.mapPlayer fun player => { player with lastNow := now }) := by
    intro goingBefore
    rcases inTime goingBefore spotlessBefore with ⟨timely, forward⟩
    exact timely.later (forward now mem_cons_self)
  split
  · rename_i notLive
    rw [if_pos notLive] at going
    exact ⟨timed going, fun next member _ => sorted next member⟩
  rename_i isLive
  rw [if_neg isLive] at spotless
  rw [Bool.not_eq_false] at isLive
  have balanced : Balanced sequence runner start
      (world.mapPlayer fun player => { player with lastNow := now }) :=
    sound.balanced.of_eq rfl rfl rfl rfl
  have started : OnTime sequence finish now
      (world.mapPlayer fun player => { player with lastNow := now }) := by
    intro _
    exact ⟨timed (World.going_of_isLive isLive), rfl⟩
  have looped := ((pumpRule_onTime built plan patient).turns built).pumpLoop built
    ⟨balanced, started⟩ isLive (2 * sequence.steps.length + 2)
  have quiet : ∀ other : World ρ, Quiet other other.settle := by
    intro other
    rw [World.settle]
    split
    · exact ⟨rfl, fun _ => SameTimes.refl _, rfl, rfl, rfl, rfl, fun _ => rfl⟩
    · exact Quiet.refl other
  rcases looped.2.quiet (quiet _) spotless with ⟨timely, lastNow⟩
  refine ⟨timely, fun next member _ => ?_⟩
  rw [lastNow]
  exact sorted next member

/-- Every control that neither skips nor jumps keeps the time. -/
theorem control_inTime {control : Control} (isInOrder : control.inOrder = true)
    (sorted : (pumpTimes [control] ++ later).Pairwise (· ≤ ·))
    (inTime : InTime sequence finish (pumpTimes [control] ++ later) world) :
    InTime sequence finish later (world.control sequence runner control).2 := by
  cases control with
  | play => exact play_inTime built sound inTime
  | pause => exact pause_inTime inTime
  | pump now => exact pump_inTime built plan patient sound (pairwise_cons.mp sorted).1 inTime
  | skip | gotoStep target | gotoLabel label => cases isInOrder
  | interrupt =>
    change InTime sequence finish later (world.interrupt sequence runner).2
    rw [World.interrupt]
    split
    · exact inTime
    · intro going
      exact absurd rfl going

omit sound

theorem run_inTime {controls : List Control}
    (inOrder : ∀ control ∈ controls, control.inOrder = true)
    (sorted : (pumpTimes controls).Pairwise (· ≤ ·)) (sound : RunSound sequence runner start world)
    (inTime : InTime sequence finish (pumpTimes controls) world) :
    InTime sequence finish [] (world.run sequence runner controls) := by
  induction controls generalizing world with
  | nil => exact inTime
  | cons control rest ih =>
    have split : pumpTimes (control :: rest) = pumpTimes [control] ++ pumpTimes rest := by
      rw [pumpTimes, pumpTimes, pumpTimes, ← filterMap_append]
      rfl
    rw [split] at sorted inTime
    apply ih (fun other member => inOrder other (mem_cons_of_mem _ member))
    · exact (pairwise_append.mp sorted).2.1
    · exact (World.control_step built sound control).sound
    · exact control_inTime built plan patient sound (inOrder control mem_cons_self) sorted inTime

end

/-- The elapsed time of a run in which every step succeeded is at least the plan. -/
theorem planned_le_elapsed {pacing : PacingOptions} {name : String}
    (accepted : Sequence.build steps pacing name = .ok sequence)
    (patient : Patient sequence runner start) {controls : List Control}
    (inOrder : ∀ control ∈ controls, control.inOrder = true)
    (sorted : (pumpTimes controls).Pairwise (· ≤ ·)) :
    let world := (World.initial start).run sequence runner controls
    world.player.state = .done →
    (∀ step ∈ sequence.steps, world.player.status step.id.index = .succeeded) →
    planned sequence ≤ world.player.elapsed := by
  intro world done succeeded
  have built := Sequence.built_of_build accepted
  rcases exists_plan accepted with ⟨finish, plan, latest⟩
  have initial : InTime sequence finish (pumpTimes controls) (World.initial start : World ρ) := by
    intro _ _
    constructor
    · constructor
      case origin => nofun
      case ready =>
        intro step _ impossible
        cases impossible
      case running =>
        intro step _ impossible
        cases impossible
      case succeeded =>
        intro step _ impossible
        cases impossible
    · intro now _ impossible
      cases impossible
  have inTime : InTime sequence finish [] world :=
    run_inTime built plan patient inOrder sorted (RunSound.initial start) initial
  have spotless : Spotless sequence world.player := by
    intro step member
    rw [succeeded step member]
    exact ⟨StepStatus.noConfusion, StepStatus.noConfusion⟩
  have timely := (inTime (by rw [done]; exact PlayState.noConfusion) spotless).1
  have nonnegative : 0 ≤ world.player.elapsed := by
    rw [Player.elapsed]
    split
    · exact le_refl _
    · rename_i ordered
      rw [not_or, Int.not_lt] at ordered
      exact Int.sub_nonneg_of_le ordered.2
  apply latest _ nonnegative
  intro step member
  have finished := timely.succeeded step member (succeeded step member)
  have ordered : ¬(world.player.anythingEntered = false ∨
      world.player.lastFinish < world.player.firstEntry) := by
    rw [not_or, Int.not_lt]
    exact ⟨by simp [finished.begun], finished.first.trans finished.counted⟩
  rw [Player.elapsed, if_neg ordered]
  exact Int.le_sub_left_of_add_le (finished.floor.trans finished.counted)

end

end Grab.Kernel
