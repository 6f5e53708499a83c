import Grab.Sequence.Drive
import Grab.Sequence.Player.Follows

/-!
# Grace

No step is entered before its predecessors have finished and its grace has passed since the last
of them.  While the run plays, the deadline is no later than the time the first ready step is due.
-/

namespace Grab.Kernel

open Grab.Sequence Grab.Lib List Function

section

variable {ρ : Type}

/-- The predecessors of a step have finished, and its grace has passed since. -/
def GracedAt (sequence : Sequence) (player : Player) (step : Step) (time : TimePoint) : Prop :=
  ∀ predecessor ∈ step.after, terminalStatus (player.status predecessor.index) = true ∧
    (player.runs predecessor.index).finishedAt + graceBefore step sequence.pacing ≤ time

/-- Every entry there was came after the grace of its step. -/
def EntriesGraced (sequence : Sequence) (world : World ρ) : Prop :=
  ∀ id time answer statuses, Event.enter id time answer statuses ∈ world.trace →
    ∀ step ∈ sequence.steps, step.id = id → GracedAt sequence world.player step time

/-- What a pump at a time finds and leaves. -/
structure Graced (sequence : Sequence) (now : TimePoint) (world : World ρ) : Prop where
  entries : EntriesGraced sequence world
  past : ∀ index, terminalStatus (world.player.status index) = true →
    (world.player.runs index).finishedAt ≤ now
  ready : ∀ step ∈ sequence.steps, world.player.status step.id.index = .ready →
    GracedAt sequence world.player step (world.player.runs step.id.index).readyAt
  running : ∀ step ∈ sequence.steps, world.player.status step.id.index = .running →
    GracedAt sequence world.player step now

variable {sequence : Sequence} {runner : CommandRunner ρ} {start : ρ} {now : TimePoint}
  {world before after : World ρ} {step : Step} {time : TimePoint}

theorem GracedAt.later {player : Player} {time later : TimePoint}
    (graced : GracedAt sequence player step time) (isLater : time ≤ later) :
    GracedAt sequence player step later :=
  fun predecessor inAfter =>
    ⟨(graced predecessor inAfter).1, (graced predecessor inAfter).2.trans isLater⟩

theorem GracedAt.follows (graced : GracedAt sequence before.player step time)
    (follows : Follows sequence now before after) : GracedAt sequence after.player step time := by
  intro predecessor inAfter
  rcases graced predecessor inAfter with ⟨terminal, due⟩
  rcases follows.frozen predecessor.index terminal with ⟨still, sameTime⟩
  rw [sameTime]
  exact ⟨still, due⟩

theorem EntriesGraced.follows (graced : EntriesGraced sequence before)
    (follows : Follows sequence now before after) : EntriesGraced sequence after := by
  intro id time answer statuses entered step member idEq
  have kept : Event.enter id time answer statuses ∈ after.trace.filter Event.isEntry :=
    mem_filter.mpr ⟨entered, rfl⟩
  rw [follows.entries] at kept
  have before := graced id time answer statuses (mem_filter.mp kept).1 step member idEq
  exact before.follows follows

theorem Graced.later {later : TimePoint} (graced : Graced sequence now world)
    (isLater : now ≤ later) : Graced sequence later world where
  entries := graced.entries
  past index terminal := (graced.past index terminal).trans isLater
  ready := graced.ready
  running step member isRunning := (graced.running step member isRunning).later isLater

theorem Graced.follows (graced : Graced sequence now before)
    (sound : after.player.Sound sequence) (follows : Follows sequence now before after) :
    Graced sequence now after := by
  have past : ∀ index, terminalStatus (after.player.status index) = true →
      (after.player.runs index).finishedAt ≤ now := by
    intro index terminal
    rcases follows.finished index terminal with wasTerminal | recent
    · rw [(follows.frozen index wasTerminal).2]
      exact graced.past index wasTerminal
    · exact recent
  constructor
  case entries => exact graced.entries.follows follows
  case past => exact past
  case running =>
    intro step member isRunning
    exact (graced.running step member (follows.running _ isRunning).1).follows follows
  case ready =>
    intro step member isReady
    rcases follows.ready step member isReady with ⟨wasReady, sameTime⟩ | finished | jumped
    · rw [sameTime]
      exact (graced.ready step member wasReady).follows follows
    · exact finished
    -- After a jump the ancestors of the target are out of the way.
    intro predecessor inAfter
    have terminal : terminalStatus (after.player.status predecessor.index) = true := by
      apply sound.closed step.id ⟨step, member, rfl⟩
      · rw [isReady]
        exact StepStatus.noConfusion
      · exact Relation.TransGen.single ⟨step, member, rfl, inAfter⟩
    exact ⟨terminal, (Int.add_le_add_right (past _ terminal) _).trans jumped⟩

/-- An entry at a time that grace allows. -/
theorem EntriesGraced.enter {step : Step} (graced : EntriesGraced sequence before)
    (finished : ∀ index, terminalStatus (before.player.status index) = true →
      terminalStatus (after.player.status index) = true ∧
        (after.player.runs index).finishedAt = (before.player.runs index).finishedAt)
    {answer : Status} {statuses : Nat → StepStatus} {time : TimePoint} (built : sequence.Built)
    (member : step ∈ sequence.steps) (entries : after.trace.filter Event.isEntry =
      before.trace.filter Event.isEntry ++ [.enter step.id time answer statuses])
    (allowed : GracedAt sequence after.player step time) : EntriesGraced sequence after := by
  intro id time' answer' statuses' entered other otherIn idEq
  have kept : Event.enter id time' answer' statuses' ∈ after.trace.filter Event.isEntry :=
    mem_filter.mpr ⟨entered, rfl⟩
  rw [entries, mem_append, mem_singleton] at kept
  rcases kept with old | isNew
  · intro predecessor inAfter
    rcases graced id time' answer' statuses' (mem_filter.mp old).1 other otherIn idEq
      predecessor inAfter with ⟨terminal, due⟩
    rcases finished predecessor.index terminal with ⟨still, sameTime⟩
    rw [sameTime]
    exact ⟨still, due⟩
  · cases isNew
    obtain rfl : other = step := built.step_eq otherIn member (congrArg StepId.index idEq)
    exact allowed

namespace World

variable (built : sequence.Built)

include built

/-- An answer keeps grace: a retry enters a step whose grace has passed already. -/
theorem graced_onStatus (member : step ∈ sequence.steps) {answer : Status}
    (answered : Answered sequence runner start step.id answer world)
    (timed : world.player.lastNow = now) (graced : Graced sequence now world) :
    Graced sequence now (world.onStatus sequence runner step.id answer now) ∧
      (world.onStatus sequence runner step.id answer now).player.lastNow = now := by
  refine onStatus_follows built member answered timed (fun _ after => Graced sequence now after)
    (Graced sequence now) id ?_ ?_ graced
  · exact fun reached sound follows _ => reached.follows sound follows
  intro _
  rcases @reenter_player ρ sequence runner world step now with ⟨_, playerEq⟩
  have entries := (@reenter_trace ρ sequence runner now world step).1
  have sameTimes : ∀ index,
      ((world.reenter sequence runner step now).2.player.runs index).readyAt =
          (world.player.runs index).readyAt ∧
        ((world.reenter sequence runner step now).2.player.runs index).finishedAt =
          (world.player.runs index).finishedAt := by
    intro index
    rw [playerEq]
    by_cases here : index = step.id.index
    · subst here
      simp
    · simp [here]
  have statusEq : (world.reenter sequence runner step now).2.player.status =
      world.player.status := by rw [playerEq]
  have still : ∀ later time, GracedAt sequence world.player later time →
      GracedAt sequence (world.reenter sequence runner step now).2.player later time := by
    intro later time gracedAt predecessor inAfter
    rw [statusEq, (sameTimes _).2]
    exact gracedAt predecessor inAfter
  refine ⟨?_, ?_, ?_, ?_⟩
  · apply graced.entries.enter _ built member entries
    · exact still step now (graced.running step member answered.running)
    · intro index terminal
      rw [statusEq]
      exact ⟨terminal, (sameTimes index).2⟩
  · intro index terminal
    rw [statusEq] at terminal
    rw [(sameTimes index).2]
    exact graced.past index terminal
  · intro later laterIn isReady
    rw [statusEq] at isReady
    rw [(sameTimes _).1]
    exact still later _ (graced.ready later laterIn isReady)
  · intro later laterIn isRunning
    rw [statusEq] at isRunning
    exact still later _ (graced.running later laterIn isRunning)

/-- A due step is entered after its grace. -/
theorem graced_enter (member : step ∈ sequence.steps)
    (isReady : world.player.status step.id.index = .ready)
    (isDue : (world.player.runs step.id.index).readyAt ≤ now) (graced : Graced sequence now world) :
    Graced sequence now
      ((world.markEntered sequence runner step now).callEnter runner step now).2 := by
  have inside := built.live_lt ⟨step, member, rfl⟩
  generalize enteredEq : ((world.markEntered sequence runner step now).callEnter runner step
    now).2 = entered
  have entries : entered.trace.filter Event.isEntry = world.trace.filter Event.isEntry ++
      [.enter step.id now ((world.markEntered sequence runner step now).callEnter runner step now).1
        (world.markEntered sequence runner step now).player.status] := by
    rw [← enteredEq]
    simp [callEnter, markEntered, mapPlayer, Event.isEntry]
  have statusEq : entered.player.status =
      Function.update world.player.status step.id.index .running := by
    rw [← enteredEq]
    exact Player.status_setStatus inside .running
  have sameTimes : ∀ index,
      (entered.player.runs index).readyAt = (world.player.runs index).readyAt ∧
        (entered.player.runs index).finishedAt = (world.player.runs index).finishedAt := by
    intro index
    rw [← enteredEq]
    by_cases here : index = step.id.index
    · subst here
      simp [callEnter, markEntered, mapPlayer, Player.updateRun, Player.setStatus,
        Nat.not_le.mpr inside]
    · simp [callEnter, markEntered, mapPlayer, Player.updateRun, Player.setStatus,
        Nat.not_le.mpr inside, here]
  have kept : ∀ index, terminalStatus (world.player.status index) = true →
      terminalStatus (entered.player.status index) = true ∧
        (entered.player.runs index).finishedAt = (world.player.runs index).finishedAt := by
    intro index terminal
    have apart : index ≠ step.id.index := by
      rintro rfl
      rw [isReady] at terminal
      cases terminal
    rw [statusEq, update_of_ne apart]
    exact ⟨terminal, (sameTimes index).2⟩
  have still : ∀ later time, GracedAt sequence world.player later time →
      GracedAt sequence entered.player later time := by
    intro later time gracedAt predecessor inAfter
    rcases gracedAt predecessor inAfter with ⟨terminal, due⟩
    rw [(kept _ terminal).2]
    exact ⟨(kept _ terminal).1, due⟩
  have allowed := still step now ((graced.ready step member isReady).later isDue)
  constructor
  case entries => exact graced.entries.enter kept built member entries allowed
  case past =>
    intro index terminal
    rw [(sameTimes index).2]
    apply graced.past
    rw [statusEq] at terminal
    by_cases here : index = step.id.index
    · rw [here, update_self] at terminal
      cases terminal
    · rw [update_of_ne here] at terminal
      exact terminal
  case ready =>
    intro later laterIn laterReady
    rw [statusEq] at laterReady
    rw [(sameTimes _).1]
    by_cases here : later.id.index = step.id.index
    · rw [here, update_self] at laterReady
      cases laterReady
    · rw [update_of_ne here] at laterReady
      exact still later _ (graced.ready later laterIn laterReady)
  case running =>
    intro later laterIn laterRunning
    by_cases here : later.id.index = step.id.index
    · rw [built.step_eq laterIn member here]
      exact allowed
    · rw [statusEq, update_of_ne here] at laterRunning
      exact still later _ (graced.running later laterIn laterRunning)

/-- Every tick and every entry of a pump keeps grace. -/
theorem pumpRule_graced :
    PumpRule sequence runner start now fun world =>
      Graced sequence now world ∧ world.player.lastNow = now where
  tick {world step} balanced _ member running graced := by
    have answered := tick_answered built balanced member running now
    have called : Follows sequence now world (world.callTick runner step now).2 := by
      exact Follows.of_same rfl ⟨_, rfl, rfl⟩ rfl fun _ => SameStamps.refl _
    exact graced_onStatus built member answered graced.2 (graced.1.follows answered.sound called)
  enter {world step} balanced _ member ready isDue graced := by
    have answered := (enter_answered built balanced member ready now).1
    apply graced_onStatus built member answered
    · rw [← graced.2]
      simp only [callEnter, markEntered, mapPlayer, Player.setStatus]
      split <;> rfl
    · exact graced_enter built member ready isDue graced.1

/-! ## Controls -/

/-- The roots of a document become ready. -/
theorem follows_admitRoots {steps : List Step} (inside : steps ⊆ sequence.steps) (world : World ρ)
    (unfinished : ∀ index, terminalStatus (world.player.status index) = false) :
    Follows sequence now world (world.mapPlayer fun player =>
      steps.foldl
        (fun player step =>
          if step.after ≠ [] then player
          else
            (player.setStatus sequence step.id .ready).admitToFrontier sequence step.id
              player.lastNow)
        player) := by
  induction steps generalizing world with
  | nil => exact Follows.refl world
  | cons step rest later =>
    have restInside : rest ⊆ sequence.steps := fun _ member => inside (mem_cons_of_mem _ member)
    have member := inside mem_cons_self
    by_cases root : step.after = []
    · have indexInside := built.live_lt ⟨step, member, rfl⟩
      generalize admittedEq : (world.mapPlayer fun player =>
        (player.setStatus sequence step.id .ready).admitToFrontier sequence step.id
          player.lastNow) = admitted
      have playerEq : admitted.player =
          { world.player with
            status := Function.update world.player.status step.id.index .ready
            runs := Function.update world.player.runs step.id.index
              { world.player.runs step.id.index with readyAt := world.player.lastNow }
            frontier := world.player.frontier ++ [step.id]
            deepestFrontier := max world.player.deepestFrontier
              (world.player.frontier ++ [step.id]).length } := by
        rw [← admittedEq]
        simp only [mapPlayer, Player.setStatus, if_neg (Nat.not_le.mpr indexInside),
          Player.admitToFrontier, if_pos indexInside, Player.updateRun]
      have follows : Follows sequence now world admitted := by
        refine @Follows.at ρ sequence now _ _ step.id.index (by rw [playerEq]) ?_ ?_ ?_
          (.inl (unfinished _)) ?_ ?_ ?_
        · rw [← admittedEq]
          exact Prolongs.refl _
        · intro other different
          rw [playerEq]
          exact ⟨update_of_ne different _ _, update_of_ne different _ _⟩
        · simp [playerEq]
        · simp [playerEq, terminalStatus]
        · simp [playerEq]
        · intro other otherIn sameIndex _
          rw [built.step_eq otherIn member sameIndex, root]
          exact Or.inr (Or.inl fun _ impossible => absurd impossible not_mem_nil)
      have statusEq : admitted.player.status =
          Function.update world.player.status step.id.index .ready := by rw [playerEq]
      have others := later restInside admitted fun index => by
        rw [statusEq]
        by_cases here : index = step.id.index
        · rw [here, update_self]
          rfl
        · rw [update_of_ne here]
          exact unfinished index
      rw [← admittedEq] at others follows
      apply follows.trans
      simp only [foldl_cons, root, ne_eq, not_true_eq_false, if_false]
      exact others
    · simpa [root] using later restInside world unfinished

end World

/-- Grace is kept so far, and, unless the run was interrupted, by later pumps. -/
structure GraceKept (sequence : Sequence) (later : List TimePoint) (world : World ρ) : Prop where
  entries : EntriesGraced sequence world
  going : world.player.state ≠ .interrupted → ∀ time ∈ later, Graced sequence time world

namespace World

variable {later : List TimePoint} {best candidate : Option TimePoint} (built : sequence.Built)

include built

variable (sound : RunSound sequence runner start world)

include sound

theorem play_grace (kept : GraceKept sequence later world) :
    GraceKept sequence later (world.play sequence).2 := by
  have stepped := (play_step built sound).sound
  have follows : ∀ now, Follows sequence now world (world.play sequence).2 := by
    intro now
    rw [play]
    cases stateIs : world.player.state with
    | paused => exact Follows.of_same rfl (Prolongs.refl _) rfl fun _ => SameStamps.refl _
    | playing | interrupted | done => exact Follows.refl world
    | idle =>
      have started : Follows sequence now world
          (world.mapPlayer fun player => { player with state := .playing }) :=
        Follows.of_same rfl (Prolongs.refl _) rfl fun _ => SameStamps.refl _
      exact started.trans (follows_admitRoots built (Subset.refl _) _ fun index => by
        simp [mapPlayer, (sound.idle stateIs).1 index, terminalStatus])
  constructor
  case entries => exact kept.entries.follows (follows 0)
  case going =>
    intro going time isLater
    have goingBefore : world.player.state ≠ .interrupted := by
      intro interrupted
      apply going
      rw [play, interrupted]
      exact interrupted
    exact (kept.going goingBefore time isLater).follows stepped.balanced.sound (follows time)

theorem pump_grace (sorted : ∀ next ∈ later, now ≤ next)
    (kept : GraceKept sequence (now :: later) world) :
    GraceKept sequence later (world.pump sequence runner now).2 := by
  by_cases going : world.player.state = .interrupted
  · have pumped : (world.pump sequence runner now).2 =
        world.mapPlayer fun player => { player with lastNow := now } := by
      rw [pump_world]
      rw [if_pos]
      simp [isLive, mapPlayer, going]
    rw [pumped]
    exact ⟨kept.entries, fun impossible => absurd going impossible⟩
  · have graced := kept.going going now mem_cons_self
    have settled : ∀ {world : World ρ}, Graced sequence now world ∧ world.player.lastNow = now →
        Graced sequence now world.settle ∧ world.settle.player.lastNow = now := by
      intro world held
      rw [settle]
      split
      · exact ⟨⟨held.1.entries, held.1.past, held.1.ready, held.1.running⟩, held.2⟩
      · exact held
    have timed : Graced sequence now
        (world.mapPlayer fun player => { player with lastNow := now }) ∧
        (world.mapPlayer fun player => { player with lastNow := now }).player.lastNow = now :=
      ⟨⟨graced.entries, graced.past, graced.ready, graced.running⟩, rfl⟩
    have pumped := (@pumpRule_graced ρ sequence runner start now built).pump built sound timed
      settled
    exact ⟨pumped.1.entries, fun _ time isLater => pumped.1.later (sorted time isLater)⟩

theorem control_grace {control : Control} (isInOrder : control.inOrder = true)
    (sorted : (pumpTimes [control] ++ later).Pairwise (· ≤ ·))
    (kept : GraceKept sequence (pumpTimes [control] ++ later) world) :
    GraceKept sequence later (world.control sequence runner control).2 := by
  cases control with
  | play => exact play_grace built sound kept
  | pause =>
    change GraceKept sequence later world.pause.2
    rw [pause]
    split
    · exact kept
    rename_i isPlaying
    rw [not_not] at isPlaying
    refine ⟨kept.entries, fun _ time isLater => ?_⟩
    have graced := kept.going (by rw [isPlaying]; exact PlayState.noConfusion) time isLater
    exact ⟨graced.entries, graced.past, graced.ready, graced.running⟩
  | pump now => exact pump_grace built sound (pairwise_cons.mp sorted).1 kept
  | skip | gotoStep target | gotoLabel label => cases isInOrder
  | interrupt =>
    change GraceKept sequence later (world.interrupt sequence runner).2
    rw [interrupt]
    split
    · exact kept
    have unwound := follows_of_moves built
      (@moves_unwind ρ sequence runner world.player.lastNow world)
    have entries : EntriesGraced sequence
        (world.unwind sequence runner world.player.lastNow) := kept.entries.follows unwound
    exact ⟨entries, fun impossible => absurd rfl impossible⟩

omit sound

theorem run_grace {controls : List Control} (inOrder : ∀ control ∈ controls, control.inOrder = true)
    (sorted : (pumpTimes controls).Pairwise (· ≤ ·)) (sound : RunSound sequence runner start world)
    (kept : GraceKept sequence (pumpTimes controls) world) :
    GraceKept sequence [] (world.run sequence runner controls) := by
  induction controls generalizing world with
  | nil => exact kept
  | cons control rest later =>
    have split : pumpTimes (control :: rest) = pumpTimes [control] ++ pumpTimes rest := by
      rw [pumpTimes, pumpTimes, pumpTimes, ← filterMap_append]
      rfl
    rw [split] at sorted kept
    apply later (fun other member => inOrder other (mem_cons_of_mem _ member))
    · exact (pairwise_append.mp sorted).2.1
    · exact (control_step built sound control).sound
    · exact control_grace built sound (inOrder control mem_cons_self) sorted kept

/-! ## The next deadline -/

omit built

theorem earlier_left {time : TimePoint} (isBest : best = some time) :
    ∃ deadline, earlier best candidate = some deadline ∧ deadline ≤ time := by
  subst isBest
  cases candidate with
  | none => exact ⟨time, rfl, Int.le_refl _⟩
  | some other =>
    by_cases isBefore : other < time
    · exact ⟨other, if_pos isBefore, isBefore.le⟩
    · exact ⟨time, if_neg isBefore, Int.le_refl _⟩

theorem earlier_right (isCandidate : candidate = some time) :
    ∃ deadline, earlier best candidate = some deadline ∧ deadline ≤ time := by
  subst isCandidate
  cases best with
  | none => exact ⟨time, rfl, Int.le_refl _⟩
  | some best =>
    by_cases isBefore : time < best
    · exact ⟨time, if_pos isBefore, Int.le_refl _⟩
    · exact ⟨best, if_neg isBefore, Int.not_lt.mp isBefore⟩

theorem foldl_earlier_le (candidates : StepId → Option TimePoint) {ids : List StepId}
    {best : Option TimePoint} (isAmong : (∃ first, best = some first ∧ first ≤ time) ∨
      ∃ id ∈ ids, candidates id = some time) :
    ∃ deadline, ids.foldl (fun best id => earlier best (candidates id)) best = some deadline ∧
      deadline ≤ time := by
  induction ids generalizing best with
  | nil =>
    rcases isAmong with found | ⟨id, impossible, _⟩
    · exact found
    · cases impossible
  | cons id rest later =>
    apply later
    rcases isAmong with ⟨first, isBest, isBefore⟩ | ⟨other, member, isCandidate⟩
    · rcases @earlier_left best (candidates id) first isBest with ⟨next, isNext, isEarlier⟩
      exact .inl ⟨next, isNext, isEarlier.trans isBefore⟩
    · rcases mem_cons.mp member with rfl | inRest
      · exact .inl (earlier_right isCandidate)
      · exact .inr ⟨other, inRest, isCandidate⟩

/-- While the run plays, every ready step is a candidate. -/
theorem nextDeadline_le (built : sequence.Built) (sound : world.player.Sound sequence)
    (playing : world.player.state = .playing) (member : step ∈ sequence.steps)
    (isReady : world.player.status step.id.index = .ready) :
    ∃ deadline, world.nextDeadline sequence runner = some deadline ∧
      deadline ≤ (world.player.runs step.id.index).readyAt := by
  have isLive : ¬world.isLive = false := by
    rw [Bool.not_eq_false]
    exact isLive_iff.mpr (.inl playing)
  rw [nextDeadline, if_neg isLive]
  apply foldl_earlier_le
  right
  have live := sequence.live_of_mem member
  have active : StepStatus.isActive (world.player.status step.id.index) = true := by
    rw [isReady]
    rfl
  refine ⟨step.id, (sound.frontier.mem_iff step.id).mpr ⟨live, active⟩, ?_⟩
  rw [candidate, if_neg (Nat.not_le_of_lt (built.live_lt live)), isReady]
  simp [playing]

end World

end

section

variable {ρ : Type} {sequence : Sequence} {steps : List Step} {pacing : PacingOptions}
  {name : String}

/-- Grace is honoured: in a run without goto and skip whose clock does not go back, every entry
comes when the predecessors of the step have finished and its grace has passed since the last of
them, and while the run plays the deadline is not after the time a ready step is due. -/
theorem grace_honoured (accepted : Sequence.build steps pacing name = .ok sequence)
    (runner : CommandRunner ρ) (state : ρ) (controls : List Control)
    (inOrder : ∀ control ∈ controls, control.inOrder = true)
    (sorted : (pumpTimes controls).Pairwise (· ≤ ·)) :
    let world := (World.initial state).run sequence runner controls
    EntriesGraced sequence world ∧
      (world.player.state = .playing → ∀ step ∈ sequence.steps,
        world.player.status step.id.index = .ready →
          ∃ deadline, world.nextDeadline sequence runner = some deadline ∧
            deadline ≤ (world.player.runs step.id.index).readyAt) := by
  intro world
  have built := Sequence.built_of_build accepted
  have sound : RunSound sequence runner state world := World.reachable_sound accepted state controls
  have entries : EntriesGraced sequence (World.initial state) := by
    intro _ _ _ _ impossible
    cases impossible
  have kept : GraceKept sequence (pumpTimes controls) (World.initial state) := by
    refine ⟨entries, fun _ time _ => ⟨entries, ?_, ?_, ?_⟩⟩
    · intro _ terminal
      cases terminal
    · intro _ _ isReady
      cases isReady
    · intro _ _ isRunning
      cases isRunning
  constructor
  case left =>
    exact (World.run_grace built inOrder sorted (RunSound.initial state) kept).entries
  case right =>
    intro playing step member isReady
    exact World.nextDeadline_le built sound.balanced.sound playing member isReady

theorem grace_honoured_twoWaits : ∃ sequence,
    Sequence.build twoWaits {} "waits" = .ok sequence ∧
      EntriesGraced sequence
        ((World.initial 0).run sequence countingRunner [.play, .pump 0, .pump 5]) := by
  rcases build_twoWaits with ⟨sequence, accepted⟩
  exact ⟨sequence, accepted, (grace_honoured accepted countingRunner 0 _ (by decide) (by decide)).1⟩

/-- A pause leaves ready steps out of the deadline. -/
theorem deadline_after_ready_paused :
    ((Sequence.build [{ command := .wait 5 }, { command := .wait 100 },
        { command := .wait 1, after := [StepId.ofIndex 0] }] {} "waits").toOption.map
      fun sequence =>
        let world := (World.initial 0).run sequence countingRunner
          [.play, .pump 0, .pause, .pump 5]
        (world.nextDeadline sequence countingRunner, world.player.status 2,
          decide ((world.player.runs 2).readyAt < 100))) = some (some 100, .ready, true) := by
  decide +kernel

end

end Grab.Kernel
