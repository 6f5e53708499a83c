import Grab.Sequence.Player.Elapsed
import Grab.Sequence.Player.Moves

/-!
# What moves leave alone

Finished steps stay finished, at the time they finished.  A step starts to run only when it is
entered, and one that becomes ready is due after its predecessors have finished and its grace has
passed, or after a jump and its grace.
-/

namespace Grab.Kernel

open Grab.Sequence Grab.Lib Relation List Function

section

variable {ρ : Type}

/-- More happened, but no entry. -/
def Prolongs (before after : List Event) : Prop :=
  ∃ events, after = before ++ events ∧ events.filter Event.isEntry = []

theorem Prolongs.refl (trace : List Event) : Prolongs trace trace :=
  ⟨[], (append_nil trace).symm, rfl⟩

theorem Prolongs.trans {first middle last : List Event} (left : Prolongs first middle)
    (right : Prolongs middle last) : Prolongs first last := by
  rcases left with ⟨earlier, rfl, earlierQuiet⟩
  rcases right with ⟨later, rfl, laterQuiet⟩
  exact ⟨earlier ++ later, append_assoc _ _ _, by
    rw [filter_append, earlierQuiet, laterQuiet, append_nil]⟩

/-- From one world to another by moves at a time. -/
structure Follows (sequence : Sequence) (now : TimePoint) (before after : World ρ) : Prop where
  lastNow : after.player.lastNow = before.player.lastNow
  trace : Prolongs before.trace after.trace
  retries : ∀ index, (before.player.runs index).retries ≤ (after.player.runs index).retries
  entered : ∀ index, (after.player.runs index).entered = (before.player.runs index).entered
  frozen : ∀ index, terminalStatus (before.player.status index) = true →
    terminalStatus (after.player.status index) = true ∧
      (after.player.runs index).finishedAt = (before.player.runs index).finishedAt
  finished : ∀ index, terminalStatus (after.player.status index) = true →
    terminalStatus (before.player.status index) = true ∨ (after.player.runs index).finishedAt ≤ now
  running : ∀ index, after.player.status index = .running →
    before.player.status index = .running ∧
      (after.player.runs index).enteredAt = (before.player.runs index).enteredAt
  ready : ∀ step ∈ sequence.steps, after.player.status step.id.index = .ready →
    (before.player.status step.id.index = .ready ∧
      (after.player.runs step.id.index).readyAt = (before.player.runs step.id.index).readyAt) ∨
    (∀ predecessor ∈ step.after, terminalStatus (after.player.status predecessor.index) = true ∧
      (after.player.runs predecessor.index).finishedAt + graceBefore step sequence.pacing ≤
        (after.player.runs step.id.index).readyAt) ∨
    now + graceBefore step sequence.pacing ≤ (after.player.runs step.id.index).readyAt

variable {sequence : Sequence} {runner : CommandRunner ρ} {now : TimePoint} {before after : World ρ}

/-- Two records that a follower may not tell apart. -/
structure SameStamps (before after : StepRun) : Prop extends SameTimes before after where
  retries : before.retries = after.retries
  entered : after.entered = before.entered

theorem SameStamps.refl (run : StepRun) : SameStamps run run := ⟨SameTimes.refl run, rfl, rfl⟩

theorem Follows.entries (follows : Follows sequence now before after) :
    after.trace.filter Event.isEntry = before.trace.filter Event.isEntry := by
  rcases follows.trace with ⟨events, traceEq, quiet⟩
  rw [traceEq, filter_append, quiet, append_nil]

theorem Follows.of_same (lastNow : after.player.lastNow = before.player.lastNow)
    (trace : Prolongs before.trace after.trace)
    (status : after.player.status = before.player.status)
    (runs : ∀ index, SameStamps (before.player.runs index) (after.player.runs index)) :
    Follows sequence now before after where
  lastNow := lastNow
  trace := trace
  retries index := (runs index).retries.le
  entered index := (runs index).entered
  frozen index terminal := ⟨by rw [status]; exact terminal, (runs index).finishedAt⟩
  finished index terminal := .inl (by rw [← status]; exact terminal)
  running index isRunning := ⟨by rw [← status]; exact isRunning, (runs index).enteredAt⟩
  ready step _ isReady := .inl ⟨by rw [← status]; exact isReady, (runs _).readyAt⟩

theorem Follows.refl (world : World ρ) : Follows sequence now world world :=
  Follows.of_same rfl (Prolongs.refl _) rfl fun _ => SameStamps.refl _

theorem Follows.trans {middle : World ρ} (first : Follows sequence now before middle)
    (last : Follows sequence now middle after) : Follows sequence now before after where
  lastNow := last.lastNow.trans first.lastNow
  trace := first.trace.trans last.trace
  retries index := (first.retries index).trans (last.retries index)
  entered index := (last.entered index).trans (first.entered index)
  frozen index terminal := by
    rcases first.frozen index terminal with ⟨middleTerminal, middleEq⟩
    rcases last.frozen index middleTerminal with ⟨afterTerminal, afterEq⟩
    exact ⟨afterTerminal, afterEq.trans middleEq⟩
  finished index terminal := by
    rcases last.finished index terminal with middleTerminal | recent
    · rw [(last.frozen index middleTerminal).2]
      exact first.finished index middleTerminal
    · exact .inr recent
  running index isRunning := by
    rcases last.running index isRunning with ⟨middleRunning, middleEq⟩
    rcases first.running index middleRunning with ⟨beforeRunning, beforeEq⟩
    exact ⟨beforeRunning, middleEq.trans beforeEq⟩
  ready step member isReady := by
    rcases last.ready step member isReady with ⟨middleReady, middleEq⟩ | isNew
    · rw [middleEq]
      rcases first.ready step member middleReady with old | predecessors | jumped
      · exact .inl old
      · refine .inr (.inl fun predecessor inAfter => ?_)
        rcases predecessors predecessor inAfter with ⟨terminal, due⟩
        rcases last.frozen predecessor.index terminal with ⟨still, sameTime⟩
        rw [sameTime]
        exact ⟨still, due⟩
      · exact .inr (.inr jumped)
    · exact .inr isNew

/-- A change of one step. -/
theorem Follows.at {index : Nat} (lastNow : after.player.lastNow = before.player.lastNow)
    (trace : Prolongs before.trace after.trace) (elsewhere : ∀ other, other ≠ index →
      after.player.status other = before.player.status other ∧
        after.player.runs other = before.player.runs other)
    (counts : (before.player.runs index).retries = (after.player.runs index).retries ∧
      (after.player.runs index).entered = (before.player.runs index).entered)
    (unfinished : terminalStatus (before.player.status index) = false ∨
      terminalStatus (after.player.status index) = true ∧
        (after.player.runs index).finishedAt = (before.player.runs index).finishedAt)
    (finished : terminalStatus (after.player.status index) = true →
      terminalStatus (before.player.status index) = true ∨
        (after.player.runs index).finishedAt ≤ now)
    (running : after.player.status index = .running → before.player.status index = .running ∧
      (after.player.runs index).enteredAt = (before.player.runs index).enteredAt)
    (ready : ∀ step ∈ sequence.steps, step.id.index = index →
      after.player.status index = .ready →
      (before.player.status index = .ready ∧
        (after.player.runs index).readyAt = (before.player.runs index).readyAt) ∨
      (∀ predecessor ∈ step.after,
        terminalStatus (after.player.status predecessor.index) = true ∧
        (after.player.runs predecessor.index).finishedAt + graceBefore step sequence.pacing ≤
          (after.player.runs index).readyAt) ∨
      now + graceBefore step sequence.pacing ≤ (after.player.runs index).readyAt) :
    Follows sequence now before after where
  lastNow := lastNow
  trace := trace
  retries other := by
    by_cases here : other = index
    · rw [here, counts.1]
    · rw [(elsewhere other here).2]
  entered other := by
    by_cases here : other = index
    · rw [here, counts.2]
    · rw [(elsewhere other here).2]
  frozen other terminal := by
    by_cases here : other = index
    · subst here
      rcases unfinished with impossible | kept
      · rw [terminal] at impossible
        cases impossible
      · exact kept
    · rw [(elsewhere other here).1, (elsewhere other here).2]
      exact ⟨terminal, rfl⟩
  finished other terminal := by
    by_cases here : other = index
    · subst here
      exact finished terminal
    · rw [(elsewhere other here).1] at terminal
      exact .inl terminal
  running other isRunning := by
    by_cases here : other = index
    · subst here
      exact running isRunning
    · rw [(elsewhere other here).1] at isRunning
      rw [(elsewhere other here).2]
      exact ⟨isRunning, rfl⟩
  ready step member isReady := by
    by_cases here : step.id.index = index
    · rw [here] at isReady ⊢
      exact ready step member here isReady
    · rw [(elsewhere _ here).1] at isReady
      rw [(elsewhere _ here).2]
      exact .inl ⟨isReady, rfl⟩

namespace World

variable (world : World ρ) {id : StepId}

theorem follows_updateRun (id : StepId) (change : StepRun → StepRun)
    (same : ∀ run, SameStamps run (change run)) :
    Follows sequence now world (world.mapPlayer fun player => player.updateRun id change) := by
  refine Follows.of_same rfl (Prolongs.refl _) rfl fun index => ?_
  by_cases here : index = id.index
  · subst here
    simpa [mapPlayer, Player.updateRun] using same (world.player.runs id.index)
  · simpa [mapPlayer, Player.updateRun, here] using SameStamps.refl _

theorem follows_neutralize (id : StepId) :
    Follows sequence now world (world.neutralize sequence runner id now) := by
  rcases world.neutralize_cases sequence runner id now with
    same | ⟨step, state, joins, outcome, _, _, isJoin, eq⟩
  · rw [same]
    exact Follows.refl world
  rcases Player.recordExit_eq (world.player.updateRun id fun run => { run with exited := true })
    outcome with ⟨verdict, recorded⟩
  rw [eq, recorded]
  have marked := @follows_updateRun ρ sequence now world id
    (fun run => { run with exited := true }) fun run => ⟨⟨rfl, rfl, rfl⟩, rfl, rfl⟩
  refine marked.trans (Follows.of_same rfl ?_ rfl fun _ => SameStamps.refl _)
  refine ⟨joins ++ [.exit step.id now outcome], append_assoc _ _ _, ?_⟩
  rcases isJoin with rfl | rfl
  · rfl
  · rfl

/-- A new status and new times for a step that has not finished. -/
theorem follows_setStatus (status : StepStatus)
    (unfinished : terminalStatus (world.player.status id.index) = false)
    (notActive : StepStatus.isActive status = false)
    (finished : terminalStatus status = true → (world.player.runs id.index).finishedAt ≤ now) :
    Follows sequence now world
      (world.mapPlayer fun player => player.setStatus sequence id status) := by
  by_cases inside : id.index < sequence.steps.length
  · have playerEq : world.player.setStatus sequence id status =
        { world.player with status := Function.update world.player.status id.index status } := by
      rw [Player.setStatus, if_neg (Nat.not_le.mpr inside)]
    rw [mapPlayer, playerEq]
    refine @Follows.at ρ sequence now _ _ id.index rfl (Prolongs.refl _) ?_ ⟨rfl, rfl⟩
      (.inl unfinished) ?_ ?_ ?_
    · intro other different
      exact ⟨update_of_ne different _ _, rfl⟩
    · simp only [update_self]
      exact fun terminal => .inr (finished terminal)
    · simp only [update_self]
      rintro rfl
      cases notActive
    · simp only [update_self]
      rintro step _ _ rfl
      cases notActive
  · have playerEq : world.player.setStatus sequence id status = world.player := by
      rw [Player.setStatus, if_pos (Nat.not_lt.mp inside)]
    rw [mapPlayer, playerEq]
    exact Follows.refl world

/-- A step gets a time to finish at before its status says so. -/
theorem follows_finishRun (id : StepId)
    (unfinished : terminalStatus (world.player.status id.index) = false) :
    Follows sequence now world (world.finishRun id now) := by
  have elsewhere : ∀ other, other ≠ id.index →
      (world.finishRun id now).player.runs other = world.player.runs other :=
    fun other different => update_of_ne different _ _
  have here : (world.finishRun id now).player.runs id.index =
      { world.player.runs id.index with
        callDuration := now - (world.player.runs id.index).enteredAt
        finishedAt := now } := update_self _ _ _
  refine @Follows.at ρ sequence now _ _ id.index rfl (Prolongs.refl _)
    (fun other different => ⟨rfl, elsewhere other different⟩) (by simp [here]) (.inl unfinished)
    (fun terminal => .inl terminal) (fun isRunning => ⟨isRunning, by rw [here]⟩)
    fun _ _ _ isReady => .inl ⟨isReady, by rw [here]⟩

theorem follows_markSkipped (id : StepId)
    (unfinished : terminalStatus (world.player.status id.index) = false) :
    Follows sequence now world (world.markSkipped sequence id now) := by
  by_cases inside : id.index < sequence.steps.length
  · have playerEq : (world.markSkipped sequence id now).player =
        { world.player with
          status := Function.update world.player.status id.index .skipped
          runs := Function.update world.player.runs id.index
            { world.player.runs id.index with finishedAt := now } } := by
      simp only [markSkipped, mapPlayer, Player.setStatus, if_neg (Nat.not_le.mpr inside)]
      rfl
    refine @Follows.at ρ sequence now _ _ id.index (by rw [playerEq]) (Prolongs.refl _) ?_ ?_
      (.inl unfinished) ?_ ?_ ?_
    · intro other different
      rw [playerEq]
      exact ⟨update_of_ne different _ _, update_of_ne different _ _⟩
    · simp [playerEq]
    · simp [playerEq]
    · simp [playerEq]
    · simp [playerEq]
  · have playerEq : (world.markSkipped sequence id now).player =
        { world.player with
          runs := Function.update world.player.runs id.index
            { world.player.runs id.index with finishedAt := now } } := by
      simp only [markSkipped, mapPlayer, Player.setStatus, if_pos (Nat.not_lt.mp inside)]
      rfl
    refine @Follows.at ρ sequence now _ _ id.index (by rw [playerEq]) (Prolongs.refl _) ?_ ?_
      (.inl unfinished) ?_ ?_ ?_
    · intro other different
      rw [playerEq]
      exact ⟨rfl, update_of_ne different _ _⟩
    · simp [playerEq]
    · rw [playerEq]
      exact .inl
    · rw [playerEq]
      exact fun isRunning => ⟨isRunning, by simp⟩
    · rw [playerEq]
      exact fun _ _ _ isReady => .inl ⟨isReady, by simp⟩

theorem follows_retire (id : StepId) {status : StepStatus} (terminal : terminalStatus status = true)
    (finished : (world.player.runs id.index).finishedAt = now) :
    Follows sequence now world (world.retire sequence id status now) := by
  have runsEq : (world.retire sequence id status now).player.runs = world.player.runs := by
    simp only [retire, mapPlayer, Player.setStatus, Player.dropFromFrontier]
    split <;> rfl
  refine @Follows.at ρ sequence now _ _ id.index ?_ (Prolongs.refl _) ?_
    (by simp [runsEq]) ?_ ?_ ?_ ?_
  · simp only [retire, mapPlayer, Player.setStatus, Player.dropFromFrontier]
    split <;> rfl
  · intro other different
    exact ⟨setStatus_elsewhere world.player id status different, by rw [runsEq]⟩
  · cases was : terminalStatus (world.player.status id.index) with
    | false => exact .inl rfl
    | true =>
      refine .inr ⟨?_, by rw [runsEq]⟩
      simp only [retire, mapPlayer, Player.setStatus, Player.dropFromFrontier]
      split
      · exact was
      · simpa using terminal
  · rw [runsEq]
    exact fun _ => .inr finished.le
  · simp only [retire, mapPlayer, Player.setStatus, Player.dropFromFrontier]
    split
    · exact fun isRunning => ⟨isRunning, rfl⟩
    · simp only [update_self]
      rintro rfl
      cases terminal
  · simp only [retire, mapPlayer, Player.setStatus, Player.dropFromFrontier]
    split
    · exact fun _ _ _ isReady => .inl ⟨isReady, rfl⟩
    · simp only [update_self]
      rintro _ _ _ rfl
      cases terminal

variable (built : sequence.Built) {start : ρ} {answer : Status} {world : World ρ} {step : Step}

include built

theorem follows_admitSuccessor (world : World ρ) (successor : StepId) :
    Follows sequence now world
      (world.mapPlayer fun player => player.admitSuccessor sequence successor) := by
  rcases @Player.admitSuccessor_cases sequence world.player successor with
    unchanged | ⟨step, member, eligible, isEligible, pending, playerEq⟩
  · rw [mapPlayer, unchanged]
    exact Follows.refl world
  rcases Player.eligibleAt_spec isEligible with ⟨_, predecessors⟩
  rw [mapPlayer, playerEq, Player.admitToFrontier_setStatus _ (built.live_lt ⟨step, member, rfl⟩)]
  refine @Follows.at ρ sequence now _ _ step.id.index rfl (Prolongs.refl _) ?_ ?_
    (.inl (by rw [pending]; rfl)) ?_ ?_ ?_
  · intro other different
    exact ⟨update_of_ne different _ _, update_of_ne different _ _⟩
  · simp
  · simp [terminalStatus]
  · simp
  intro later laterIn sameIndex _
  obtain rfl : later = step := built.step_eq laterIn member sameIndex
  refine .inr (.inl fun predecessor inAfter => ?_)
  have apart : predecessor.index ≠ later.id.index := by
    intro same
    have terminal := (predecessors predecessor inAfter).1
    rw [same, pending] at terminal
    cases terminal
  simp only [update_of_ne apart, update_self]
  exact ⟨(predecessors predecessor inAfter).1,
    Int.add_le_add_right (predecessors predecessor inAfter).2 _⟩

theorem follows_admitSuccessors (world : World ρ) (id : StepId) :
    Follows sequence now world (world.admitSuccessors sequence id) := by
  rw [admitSuccessors, mapPlayer, Player.admitSuccessors]
  generalize Rows.row (Player.successorTable sequence) id.index = successors
  induction successors generalizing world with
  | nil => exact Follows.refl world
  | cons successor rest later =>
    exact (follows_admitSuccessor built world successor).trans
      (later (world.mapPlayer fun player => player.admitSuccessor sequence successor))

theorem follows_placeTarget (world : World ρ) (member : step ∈ sequence.steps)
    (unfinished : terminalStatus (world.player.status step.id.index) = false) :
    Follows sequence now world
      (world.mapPlayer fun player => placeTarget sequence player step now) := by
  have inside := built.live_lt ⟨step, member, rfl⟩
  simp only [mapPlayer, placeTarget, Player.setStatus, Player.admitToFrontier, Player.updateRun,
    if_neg (Nat.not_le.mpr inside), if_pos inside]
  split
  · refine @Follows.at ρ sequence now _ _ step.id.index rfl (Prolongs.refl _) ?_ ?_
      (.inl unfinished) ?_ ?_ ?_
    · intro other different
      exact ⟨update_of_ne different _ _, update_of_ne different _ _⟩
    · simp
    · simp [terminalStatus]
    · simp
    · intro later laterIn sameIndex _
      obtain rfl : later = step := built.step_eq laterIn member sameIndex
      exact .inr (.inr (by simp))
  · refine Follows.of_same rfl (Prolongs.refl _) rfl fun index => ?_
    by_cases here : index = step.id.index
    · subst here
      simp only [update_self]
      exact SameStamps.refl _
    · simp only [update_of_ne here]
      exact SameStamps.refl _

theorem follows_of_move (move : Move sequence runner now before after) :
    Follows sequence now before after := by
  cases move with
  | neutralize id => exact follows_neutralize before id
  | reap id =>
    rcases before.reapHolds_cases sequence runner id with same | ⟨step, state, outcome, eq⟩
    · rw [same]
      exact Follows.refl before
    · rcases before.player.recordNeutralization_eq outcome with ⟨verdict, recorded⟩
      rw [eq, recorded]
      exact Follows.of_same rfl ⟨_, rfl, rfl⟩ rfl fun _ => SameStamps.refl _
  | measure id => exact follows_updateRun before id _ fun _ => ⟨⟨rfl, rfl, rfl⟩, rfl, rfl⟩
  | finish id unfinished => exact follows_finishRun before id unfinished
  | skip id unfinished => exact follows_markSkipped before id unfinished
  | abandon id unfinished =>
    exact follows_setStatus before .pending unfinished rfl (fun impossible => by cases impossible)
  | announce target refused =>
    exact Follows.of_same rfl ⟨_, rfl, rfl⟩ rfl fun _ => SameStamps.refl _
  | place step member unfinished => exact follows_placeTarget built before member unfinished
  | retire id status terminal finished => exact follows_retire before id terminal finished
  | admitted id => exact follows_admitSuccessors built before id
  | note error | clear | stop =>
    exact Follows.of_same rfl (Prolongs.refl _) rfl fun _ => SameStamps.refl _

theorem follows_of_moves (moves : Moves sequence runner now before after) :
    Follows sequence now before after := by
  induction moves with
  | refl => exact Follows.refl before
  | tail _ move earlier => exact earlier.trans (follows_of_move built move)

/-- A running step succeeds. -/
theorem follows_succeed (world : World ρ)
    (unfinished : terminalStatus (world.player.status id.index) = false) :
    Follows sequence now world (world.succeed sequence runner id now) := by
  have finished := @follows_finishRun ρ sequence now world id unfinished
  have exited : Follows sequence now (world.finishRun id now)
      ((world.finishRun id now).exitCompleted sequence runner id now) := by
    rw [exitCompleted]
    split
    · exact Follows.refl _
    split
    · rename_i step _ _
      have called : Follows sequence now (world.finishRun id now)
          ((world.finishRun id now).callExit runner step now).2 := by
        exact Follows.of_same rfl ⟨_, rfl, rfl⟩ rfl fun _ => SameStamps.refl _
      exact called.trans (follows_updateRun _ id _ fun _ => ⟨⟨rfl, rfl, rfl⟩, rfl, rfl⟩)
    · exact Follows.refl _
  have finishedAt : (((world.finishRun id now).exitCompleted sequence runner id now).player.runs
      id.index).finishedAt = now := by
    rw [((quiet_exitCompleted (world.finishRun id now) id now).times id.index).finishedAt]
    simp [finishRun, mapPlayer, Player.updateRun]
  exact ((finished.trans exited).trans (follows_retire _ id rfl finishedAt)).trans
    (follows_admitSuccessors built _ id)

/-! ## Answers -/

omit built in
/-- A retry logs one entry. -/
theorem reenter_trace (world : World ρ) (step : Step) :
    (world.reenter sequence runner step now).2.trace.filter Event.isEntry =
        world.trace.filter Event.isEntry ++
          [.enter step.id now (world.reenter sequence runner step now).1 world.player.status] ∧
      world.trace ⊆ (world.reenter sequence runner step now).2.trace := by
  generalize countedEq : (world.mapPlayer fun player => player.updateRun step.id fun run =>
    { run with retries := run.retries + 1 }) = counted
  have countedTrace : counted.trace = world.trace := by rw [← countedEq]; rfl
  have countedStatus : counted.player.status = world.player.status := by rw [← countedEq]; rfl
  have reenterEq : world.reenter sequence runner step now =
      ((counted.neutralize sequence runner step.id now).mapPlayer fun player =>
        player.updateRun step.id fun run =>
          { run with exited := false, enteredAt := now }).callEnter runner step now := by
    rw [← countedEq]
    rfl
  have follows := @follows_neutralize ρ sequence runner now counted step.id
  have entries := follows.entries
  have statusEq := @status_neutralize ρ sequence runner now counted step.id
  rw [countedTrace] at entries
  rw [countedStatus] at statusEq
  rcases follows.trace with ⟨events, traceEq, _⟩
  rw [reenterEq]
  constructor
  · simp only [callEnter, mapPlayer, Player.updateRun, filter_append, entries, statusEq]
    rfl
  simp only [callEnter, mapPlayer, traceEq, countedTrace, append_assoc]
  exact subset_append_left _ _

variable (member : step ∈ sequence.steps)

include member

/-- A completed step is finished. -/
theorem succeed_follows (answered : Answered sequence runner start step.id .success world) :
    Follows sequence now world (world.succeed sequence runner step.id now) ∧
      terminalStatus ((world.succeed sequence runner step.id now).player.status
        step.id.index) = true := by
  refine ⟨follows_succeed built world (by rw [answered.running]; rfl), ?_⟩
  have admitting : ∀ after : World ρ,
      Follows sequence now after (after.admitSuccessors sequence step.id) :=
    fun after => follows_admitSuccessors built after step.id
  refine ((admitting _).frozen _ ?_).1
  rw [retire, mapPlayer]
  simp [Player.dropFromFrontier, Player.status_setStatus (built.live_lt ⟨step, member, rfl⟩),
    terminalStatus]

/-- So is one that failed, whatever its policy. -/
theorem failStep_follows (answered : Answered sequence runner start step.id .failure world)
    (timed : world.player.lastNow = now) (code : ErrorCode) :
    Follows sequence now world (world.failStep sequence runner step.id code now) ∧
      terminalStatus ((world.failStep sequence runner step.id code now).player.status
        step.id.index) = true := by
  have frontierLive : ∀ id ∈ world.player.frontier, sequence.Live id :=
    fun id inFrontier => ((answered.sound.frontier.mem_iff id).mp inFrontier).1
  rcases moves_failStep built world ⟨step, member, rfl⟩ code (by rw [answered.running]; rfl)
    frontierLive timed with ⟨retired, first, terminal, last⟩
  have follows := follows_of_moves built last
  exact ⟨(follows_of_moves built first).trans follows, (follows.frozen _ terminal).1⟩

variable (answered : Answered sequence runner start step.id answer world)

include answered

/-- An answer leads nowhere, or to the end of the step, after a retry at most. -/
theorem onStatus_follows (timed : world.player.lastNow = now) (heard : Status → World ρ → Prop)
    (kept : World ρ → Prop) (running : ∀ {world : World ρ}, heard .running world → kept world)
    (ends : ∀ {second : Status} {middle after : World ρ}, heard second middle →
      after.player.Sound sequence → Follows sequence now middle after →
      terminalStatus (after.player.status step.id.index) = true → kept after)
    (reenters : (world.player.runs step.id.index).retries < maxRetriesPerStep →
      heard (world.reenter sequence runner step now).1 (world.reenter sequence runner step now).2)
    (holds : heard answer world) :
    kept (world.onStatus sequence runner step.id answer now) ∧
      (world.onStatus sequence runner step.id answer now).player.lastNow = now := by
  refine onStatus_rule built member now
    (fun second after => heard second after ∧ after.player.lastNow = now)
    (fun after => kept after ∧ after.player.lastNow = now) ?_ ?_ ?_ answered ?_ ⟨holds, timed⟩
  · exact fun _ reached => ⟨running reached.1, reached.2⟩
  · intro middle answered reached
    have sound := (succeed_advances built member answered now).balanced.sound
    rcases @succeed_follows ρ sequence runner now built start middle step member answered with
      ⟨follows, terminal⟩
    exact ⟨ends reached.1 sound follows terminal, follows.lastNow.trans reached.2⟩
  · intro middle code answered reached
    have sound := (failStep_spec built ⟨step, member, rfl⟩ answered code now).1.balanced.sound
    rcases failStep_follows built member answered reached.2 code with ⟨follows, terminal⟩
    exact ⟨ends reached.1 sound follows terminal, follows.lastNow.trans reached.2⟩
  intro _ mayStill
  rcases @reenter_player ρ sequence runner world step now with ⟨_, playerEq⟩
  refine ⟨reenters mayStill, ?_⟩
  rw [playerEq]
  exact timed

theorem onStatus_grows (timed : world.player.lastNow = now) :
    world.trace ⊆ (world.onStatus sequence runner step.id answer now).trace ∧
      (world.onStatus sequence runner step.id answer now).player.lastNow = now := by
  refine onStatus_follows built member answered timed (fun _ after => world.trace ⊆ after.trace)
    (fun after => world.trace ⊆ after.trace) id ?_ ?_ (Subset.refl _)
  · intro _ middle after grows _ follows _
    rcases follows.trace with ⟨events, traceEq, _⟩
    refine Subset.trans grows ?_
    rw [traceEq]
    exact subset_append_left _ _
  exact fun _ => (reenter_trace world step).2

end World

end

end Grab.Kernel
