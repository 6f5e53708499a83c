import Grab.Sequence.Player.Follows

/-!
# Runs that end by themselves

A run is done when its frontier is empty.  Without jumps every pending step waits for a predecessor
that has not finished, so that an empty frontier leaves no step behind.
-/

namespace Grab.Kernel

open Grab.Sequence Grab.Lib List Function

/-! ## Steps that wait -/

namespace Player

/-- A pending step has a predecessor that has not finished, or one whose successors are still to be
looked at. -/
def Waiting (sequence : Sequence) (excused : List StepId) (player : Player) : Prop :=
  ∀ step ∈ sequence.steps, player.status step.id.index = .pending →
    ∃ predecessor ∈ step.after,
      terminalStatus (player.status predecessor.index) = false ∨ predecessor ∈ excused

/-- Some steps became ready, and nothing else happened to the status table. -/
def Woken (before after : Player) : Prop :=
  ∀ index, after.status index = before.status index ∨
    before.status index = .pending ∧ after.status index = .ready

theorem Woken.refl (player : Player) : Woken player player := fun _ => .inl rfl

theorem Woken.trans {first second third : Player} (left : Woken first second)
    (right : Woken second third) : Woken first third := by
  intro index
  rcases right index with same | ⟨pending, ready⟩
  · rw [same]
    exact left index
  rcases left index with same | ⟨_, impossible⟩
  · rw [same] at pending
    exact .inr ⟨pending, ready⟩
  · rw [impossible] at pending
    cases pending

variable {before after : Player}

theorem Woken.pending (woken : Woken before after) {index : Nat}
    (pending : after.status index = .pending) : before.status index = .pending := by
  rcases woken index with same | ⟨wasPending, _⟩
  · rw [← same]
    exact pending
  · exact wasPending

theorem Woken.terminal (woken : Woken before after) (index : Nat) :
    terminalStatus (after.status index) = terminalStatus (before.status index) := by
  rcases woken index with same | ⟨pending, ready⟩
  · rw [same]
  · rw [pending, ready]
    rfl

section

variable {sequence : Sequence} {player : Player}

variable (sequence) in
theorem woken_admitSuccessor (player : Player) (successor : StepId) :
    Woken player (player.admitSuccessor sequence successor) := by
  rw [admitSuccessor]
  split
  · exact Woken.refl player
  rename_i candidate
  rw [not_or, not_not] at candidate
  split
  · exact Woken.refl player
  split
  · exact Woken.refl player
  intro index
  rw [status_admitToFrontier, status_setStatus (Nat.lt_of_not_le candidate.1)]
  by_cases here : index = successor.index
  · rw [here, update_self]
    exact .inr ⟨candidate.2, rfl⟩
  · rw [update_of_ne here]
    exact .inl rfl

variable (sequence) in
theorem woken_foldl (successors : List StepId) (player : Player) :
    Woken player (successors.foldl (admitSuccessor sequence) player) := by
  induction successors generalizing player with
  | nil => exact Woken.refl player
  | cons successor rest later =>
    exact (woken_admitSuccessor sequence player successor).trans (later _)

variable (built : sequence.Built) {excused : List StepId} {step : Step}

include built

/-- A step that is not eligible has a predecessor that has not finished. -/
theorem unfinished_of_not_eligible {after : List StepId}
    (live : ∀ predecessor ∈ after, sequence.Live predecessor) {base : TimePoint}
    (notEligible : player.eligibleAt sequence after base = none) :
    ∃ predecessor ∈ after, terminalStatus (player.status predecessor.index) = false := by
  induction after generalizing base with
  | nil => cases notEligible
  | cons predecessor rest later =>
    rw [eligibleAt] at notEligible
    split at notEligible
    · rcases later (fun other inRest => live other (mem_cons_of_mem _ inRest)) notEligible
        with ⟨other, inRest, unfinished⟩
      exact ⟨other, mem_cons_of_mem _ inRest, unfinished⟩
    rename_i notTerminal
    refine ⟨predecessor, mem_cons_self, ?_⟩
    have inside := built.live_lt (live predecessor mem_cons_self)
    rw [isTerminal, decide_eq_true inside, Bool.true_and, Bool.not_eq_true] at notTerminal
    exact notTerminal

/-- A successor that the walk leaves pending waits. -/
theorem waits_of_walk {successors : List StepId} (member : step ∈ sequence.steps)
    (isSuccessor : step.id ∈ successors)
    (pending : (successors.foldl (admitSuccessor sequence) player).status step.id.index = .pending)
    :
    ∃ predecessor ∈ step.after, terminalStatus
      ((successors.foldl (admitSuccessor sequence) player).status predecessor.index) = false := by
  induction successors generalizing player with
  | nil => cases isSuccessor
  | cons successor rest later =>
    rw [foldl_cons] at pending ⊢
    rcases mem_cons.mp isSuccessor with rfl | inRest
    · have woken := woken_foldl sequence rest (player.admitSuccessor sequence step.id)
      have stillPending := woken.pending pending
      have inside := built.live_lt ⟨step, member, rfl⟩
      have wasPending := (woken_admitSuccessor sequence player step.id).pending stillPending
      have notEligible : player.eligibleAt sequence step.after 0 = none := by
        cases isEligible : player.eligibleAt sequence step.after 0 with
        | none => rfl
        | some eligible =>
          rw [admitSuccessor, if_neg, built.find_of_mem member] at stillPending
          · dsimp only at stillPending
            rw [isEligible] at stillPending
            dsimp only at stillPending
            rw [status_admitToFrontier, status_setStatus inside, update_self] at stillPending
            cases stillPending
          · rw [not_or, not_not]
            exact ⟨Nat.not_le_of_lt inside, wasPending⟩
      rcases unfinished_of_not_eligible built (built.afterLive step member) notEligible with
        ⟨predecessor, inAfter, unfinished⟩
      refine ⟨predecessor, inAfter, ?_⟩
      rw [woken.terminal, (woken_admitSuccessor sequence player step.id).terminal]
      exact unfinished
    · exact later inRest pending

/-- The successor table lists a step under each of its predecessors. -/
theorem mem_successors (member : step ∈ sequence.steps) {predecessor : StepId}
    (inAfter : predecessor ∈ step.after) :
    step.id ∈ Rows.row (successorTable sequence) predecessor.index := by
  have inside := built.live_lt (built.afterLive step member predecessor inAfter)
  rw [successorTable, Rows.row_build inside, Rows.mem_valuesOf_iff, mem_flatMap]
  refine ⟨step, member, ?_⟩
  rw [mem_map]
  exact ⟨predecessor, inAfter, rfl⟩

theorem Waiting.admitSuccessors {id : StepId} (waiting : player.Waiting sequence (id :: excused)) :
    (player.admitSuccessors sequence id).Waiting sequence excused := by
  intro step member pending
  have woken := woken_foldl sequence (Rows.row (successorTable sequence) id.index) player
  rcases waiting step member (woken.pending pending) with
    ⟨predecessor, inAfter, unfinished | isExcused⟩
  · refine ⟨predecessor, inAfter, .inl ?_⟩
    rw [Player.admitSuccessors, woken.terminal]
    exact unfinished
  rcases mem_cons.mp isExcused with rfl | later
  · rcases waits_of_walk built member (mem_successors built member inAfter) pending with
      ⟨other, otherInAfter, unfinished⟩
    exact ⟨other, otherInAfter, .inl unfinished⟩
  · exact ⟨predecessor, inAfter, .inr later⟩

/-- Steps that finish are excused until their successors were looked at. -/
theorem Waiting.finish (waiting : player.Waiting sequence excused) (ids : List StepId)
    (finished : ∀ id ∈ ids, terminalStatus (after.status id.index) = true)
    (others : ∀ id, sequence.Live id → id ∉ ids → after.status id.index = player.status id.index) :
    after.Waiting sequence (ids ++ excused) := by
  intro step member pending
  have notFinished : step.id ∉ ids := by
    intro isFinished
    have terminal := finished step.id isFinished
    rw [pending] at terminal
    cases terminal
  rw [others step.id ⟨step, member, rfl⟩ notFinished] at pending
  rcases waiting step member pending with ⟨predecessor, inAfter, unfinished | isExcused⟩
  · by_cases isFinished : predecessor ∈ ids
    · exact ⟨predecessor, inAfter, .inr (mem_append_left _ isFinished)⟩
    · refine ⟨predecessor, inAfter, .inl ?_⟩
      rw [others predecessor (built.afterLive step member predecessor inAfter) isFinished]
      exact unfinished
  · exact ⟨predecessor, inAfter, .inr (mem_append_right _ isExcused)⟩

omit built in
/-- What is pending was, and what has finished had. -/
theorem Waiting.mono (waiting : player.Waiting sequence excused)
    (pending : ∀ index, after.status index = .pending → player.status index = .pending)
    (terminal : ∀ index, terminalStatus (after.status index) = true →
      terminalStatus (player.status index) = true) : after.Waiting sequence excused := by
  intro step member isPending
  rcases waiting step member (pending _ isPending) with
    ⟨predecessor, inAfter, unfinished | isExcused⟩
  · refine ⟨predecessor, inAfter, .inl ?_⟩
    rw [← Bool.not_eq_true] at unfinished ⊢
    exact mt (terminal _) unfinished
  · exact ⟨predecessor, inAfter, .inr isExcused⟩

omit player in
theorem depends_wellFounded : WellFounded sequence.Depends := by
  have finite : {id | sequence.Live id}.Finite := by
    apply (sequence.steps.map Step.id).finite_toSet.subset
    rintro id ⟨step, member, rfl⟩
    exact mem_map.mpr ⟨step, member, rfl⟩
  apply wellFounded_of_acyclic finite
  · rintro source target ⟨step, member, rfl, _⟩
    exact ⟨step, member, rfl⟩
  · exact built.acyclic

/-- Where every pending step waits, an empty frontier has no step left. -/
theorem Waiting.finished (waiting : player.Waiting sequence []) (sound : player.Sound sequence)
    (emptyFrontier : player.frontier = []) (id : StepId) :
    sequence.Live id → terminalStatus (player.status id.index) = true := by
  induction id using (depends_wellFounded built).induction with
  | h id earlier =>
    rintro ⟨step, member, rfl⟩
    have live := sequence.live_of_mem member
    have inactive : StepStatus.isActive (player.status step.id.index) = false := by
      rw [← Bool.not_eq_true]
      intro active
      have onFrontier := (sound.frontier.mem_iff step.id).mpr ⟨live, active⟩
      rw [emptyFrontier] at onFrontier
      cases onFrontier
    cases status : player.status step.id.index with
    | succeeded | failed | skipped => rfl
    | ready | running =>
      rw [status] at inactive
      cases inactive
    | pending =>
      -- The predecessor it waits for has finished.
      rcases waiting step member status with ⟨predecessor, inAfter, unfinished | impossible⟩
      · rw [earlier predecessor ⟨step, member, rfl, inAfter⟩
          (built.afterLive step member predecessor inAfter)] at unfinished
        cases unfinished
      · cases impossible

end

/-! ## Steps that were entered -/

/-- A step that has finished was entered. -/
def Attended (sequence : Sequence) (player : Player) : Prop :=
  ∀ step ∈ sequence.steps, terminalStatus (player.status step.id.index) = true →
    (player.runs step.id.index).entered = true

variable {sequence : Sequence} {player : Player}

/-- Steps become ready, and the records of the entries stay. -/
theorem Attended.woken (attended : player.Attended sequence) {after : Player}
    (woken : Woken player after) (same : SameRuns player after) : after.Attended sequence := by
  intro step member terminal
  rw [same.entered]
  apply attended step member
  rw [← woken.terminal]
  exact terminal

theorem sameRuns_foldl (successors : List StepId) (player : Player) :
    SameRuns player (successors.foldl (admitSuccessor sequence) player) := by
  induction successors generalizing player with
  | nil => exact SameRuns.refl player
  | cons successor rest later =>
    have first : SameRuns player (player.admitSuccessor sequence successor) := by
      rw [admitSuccessor]
      split
      · exact SameRuns.refl player
      split
      · exact SameRuns.refl player
      · split
        · exact SameRuns.refl player
        · exact (sameRuns_setStatus _).trans (sameRuns_admitToFrontier _)
    exact first.trans (later _)

end Player

section

variable {ρ : Type} {sequence : Sequence} {runner : CommandRunner ρ} {start : ρ}
  {world : World ρ} {now : TimePoint} {skipping : Bool}

/-- No admission was missed, and without skips no step has finished that was not entered. -/
structure Prompt (sequence : Sequence) (skipping : Bool) (player : Player) : Prop where
  waiting : player.Waiting sequence []
  attended : skipping = false → player.Attended sequence

/-- The same statuses and entries. -/
theorem Prompt.of_same {before after : Player} (prompt : Prompt sequence skipping before)
    (status : after.status = before.status)
    (entered : ∀ index, (after.runs index).entered = (before.runs index).entered) :
    Prompt sequence skipping after := by
  constructor
  case waiting =>
    apply prompt.waiting.mono
    · intro index
      rw [status]
      exact id
    · intro index
      rw [status]
      exact id
  case attended =>
    intro never step member
    rw [status, entered]
    exact prompt.attended never step member

/-- A running step finishes, and its successors are looked at. -/
theorem Prompt.retire (built : sequence.Built) {id : StepId} (live : sequence.Live id)
    (prompt : Prompt sequence skipping world.player) (sound : world.player.Sound sequence)
    (running : world.player.status id.index = .running) {exited : World ρ}
    (exits : Exits id world exited) {status : StepStatus}
    (terminal : terminalStatus status = true) (now : TimePoint) :
    Prompt sequence skipping
      ((exited.retire sequence id status now).admitSuccessors sequence id).player := by
  have statusEq : (exited.retire sequence id status now).player.status =
      Function.update world.player.status id.index status := by
    rw [← exits.status]
    exact Player.status_setStatus (built.live_lt live) status
  have enteredEq : ∀ index, ((exited.retire sequence id status now).player.runs index).entered =
      (world.player.runs index).entered := by
    intro index
    have same : ((exited.retire sequence id status now).player.runs index).entered =
        (exited.player.runs index).entered := (Player.sameRuns_setStatus status).entered index
    rw [same]
    by_cases here : index = id.index
    · rw [here]
      exact exits.entered
    · rw [exits.elsewhere index here]
  have isEntered : (world.player.runs id.index).entered = true := by
    have agrees := sound.consistent id live
    rw [running] at agrees
    exact agrees.1
  constructor
  case waiting =>
    apply Player.Waiting.admitSuccessors built
    apply prompt.waiting.finish built [id]
    · intro other isId
      rw [mem_singleton.mp isId, statusEq, update_self]
      exact terminal
    intro other otherLive different
    rw [statusEq]
    apply Player.status_update_other built live otherLive
    exact fun same => different (mem_singleton.mpr same)
  case attended =>
    intro never
    apply Player.Attended.woken _ (Player.woken_foldl sequence _ _) (Player.sameRuns_foldl _ _)
    intro step member finished
    rw [enteredEq]
    by_cases here : step.id.index = id.index
    · rw [here]
      exact isEntered
    · rw [statusEq, update_of_ne here] at finished
      exact prompt.attended never step member finished

/-! ## Answers -/

/-- No step recovers by a jump. -/
def NoRecovery (sequence : Sequence) : Prop := ∀ step ∈ sequence.steps, step.onError ≠ .goto

/-- No jump was accepted so far. -/
def Unjumped (world : World ρ) : Prop := ∀ target, Event.jump target none ∉ world.trace

open World

variable (built : sequence.Built) {target : StepId}

include built

/-- An accepted jump is on record. -/
theorem jump_mem_of_accepted (accepted : (world.jumpTo sequence runner target).1 = none) :
    Event.jump target none ∈ (world.jumpTo sequence runner target).2.trace := by
  unfold jumpTo at accepted ⊢
  split at accepted
  · cases accepted
  dsimp only
  generalize heardEq : ({ world with trace := world.trace ++ [.jump target none] } :
    World ρ) = heard
  have skipped := @moves_foldl ρ sequence runner world.player.lastNow _
    (sequence.ancestorsOf target) (fun world id _ => moves_skipAncestor world id) heard
  generalize (sequence.ancestorsOf target).foldl
    (skipAncestor sequence runner world.player.lastNow) heard = left at skipped ⊢
  have dropped := @moves_foldl ρ sequence runner world.player.lastNow _ left.player.frontier
    (fun world id _ => moves_dropMember target world id) left
  rcases (follows_of_moves built (skipped.trans dropped)).trace with ⟨events, traceEq, _⟩
  change _ ∈ (left.player.frontier.foldl _ left).trace
  rw [traceEq, ← heardEq]
  simp

/-- The answer of a running step. -/
theorem onStatus_prompt {step : Step} (member : step ∈ sequence.steps) {answer : Status}
    (answered : Answered sequence runner start step.id answer world)
    (prompt : Prompt sequence skipping world.player) (now : TimePoint)
    (stays : NoRecovery sequence ∨ Unjumped (world.onStatus sequence runner step.id answer now))
    (going : (world.onStatus sequence runner step.id answer now).player.state ≠ .interrupted) :
    Prompt sequence skipping (world.onStatus sequence runner step.id answer now).player := by
  have live := sequence.live_of_mem member
  have found := built.find_of_mem member
  refine onStatus_rule built member now
    (fun _ after => Prompt sequence skipping after.player)
    (fun after => (NoRecovery sequence ∨ Unjumped after) → after.player.state ≠ .interrupted →
      Prompt sequence skipping after.player) ?_ ?_ ?_ answered ?_ prompt stays going
  · exact fun _ prompt _ _ => prompt
  · intro world answered prompt _ _
    have same := sameRuns_finishRun world step.id now
    have isOpen : (world.finishRun step.id now).player.isOpen step.id = true :=
      (isOpen_of_sameRuns same step.id).trans
        ((isOpen_iff_running answered.sound.consistent live).mpr answered.running)
    have exits := (exits_exitCompleted built member isOpen (.inr rfl) now
      (answered.ledger.bookkeeping same)).1
    exact prompt.retire built live answered.sound answered.running
      (exits_of_measured exits (fun _ => rfl) fun _ => rfl) (rfl : terminalStatus .succeeded = true)
      now
  · intro world code answered prompt stays going
    have same := sameRuns_finishRun world step.id now
    have isOpen : (world.finishRun step.id now).player.isOpen step.id = true :=
      (isOpen_of_sameRuns same step.id).trans
        ((isOpen_iff_running answered.sound.consistent live).mpr answered.running)
    have exits : Exits step.id world
        ((world.finishRun step.id now).neutralize sequence runner step.id now) :=
      exits_of_measured (exits_neutralize runner built live isOpen now) (fun _ => rfl) fun _ => rfl
    rw [failStep, found] at going stays ⊢
    dsimp only [applyPolicy] at going stays ⊢
    cases policy : step.onError with
    | abort =>
      rw [policy] at going
      exact absurd rfl going
    | «goto» =>
      rcases stays with noRecovery | unjumped
      · exact absurd policy (noRecovery step member)
      rw [policy] at going unjumped
      dsimp only at going unjumped
      cases resolved : sequence.resolveLabel step.onErrorTarget with
      | none =>
        rw [resolved] at going
        exact absurd rfl going
      | some target =>
        rw [resolved] at going unjumped
        dsimp only at going unjumped
        split at going
        · rename_i accepted
          rw [accepted] at unjumped
          exact absurd (jump_mem_of_accepted built accepted) (unjumped target)
        · exact absurd rfl going
    | «continue» =>
      exact prompt.retire built live answered.sound answered.running exits
        (rfl : terminalStatus .failed = true) now
  intro _ _
  rcases @reenter_player ρ sequence runner world step now with ⟨_, playerEq⟩
  rw [playerEq]
  refine prompt.of_same rfl fun index => ?_
  by_cases here : index = step.id.index <;> simp [here]

/-- What a run that is going keeps. -/
def Going (sequence : Sequence) (skipping : Bool) (world : World ρ) : Prop :=
  world.player.state ≠ .idle → world.player.state ≠ .interrupted →
    Prompt sequence skipping world.player

/-- Going, where no step recovers by a jump or no jump was accepted, at the time of a pump. -/
structure Kept (sequence : Sequence) (skipping : Bool) (now : TimePoint) (world : World ρ) :
    Prop where
  going : (NoRecovery sequence ∨ Unjumped world) → Going sequence skipping world
  timed : world.player.lastNow = now

omit built in
theorem Unjumped.earlier {before after : World ρ} (unjumped : Unjumped after)
    (grows : before.trace ⊆ after.trace) : Unjumped before :=
  fun target member => unjumped target (grows member)

theorem pumpRule_going : PumpRule sequence runner start now (Kept sequence skipping now) := by
  have started : ∀ {world : World ρ}, world.isLive = true → Going sequence skipping world →
      Prompt sequence skipping world.player := by
    intro world isLive going
    rcases isLive_iff.mp isLive with playing | paused
    · exact going (by rw [playing]; decide) (by rw [playing]; decide)
    · exact going (by rw [paused]; decide) (by rw [paused]; decide)
  constructor
  case tick =>
    intro world step balanced isLive member running kept
    have answered := tick_answered built balanced member running now
    have grows := onStatus_grows built member answered kept.timed
    refine ⟨fun stays _ notEnded => ?_, grows.2⟩
    have going := kept.going (stays.imp_right fun unjumped =>
      unjumped.earlier (Subset.trans (subset_append_left _ _) grows.1))
    exact onStatus_prompt built member answered (started isLive going) now stays notEnded
  case enter =>
    intro world step balanced isLive member ready _ kept
    have answered := (enter_answered built balanced member ready now).1
    have inside := built.live_lt ⟨step, member, rfl⟩
    have timed : ((world.markEntered sequence runner step now).callEnter runner step
        now).2.player.lastNow = now := by
      rw [enter_player world inside]
      exact kept.timed
    have grows := onStatus_grows built member answered timed
    refine ⟨fun stays _ notEnded => ?_, grows.2⟩
    have going := kept.going (stays.imp_right fun unjumped =>
      unjumped.earlier (Subset.trans (subset_append_left _ _) grows.1))
    apply onStatus_prompt built member answered _ now stays notEnded
    have prompt := started isLive going
    have statusEq : (world.markEntered sequence runner step now).player.status =
        Function.update world.player.status step.id.index .running :=
      Player.status_setStatus inside .running
    have runsEq : ∀ index, index ≠ step.id.index →
        (world.markEntered sequence runner step now).player.runs index =
          world.player.runs index := by
      intro index different
      have same : (world.player.setStatus sequence step.id .running).runs = world.player.runs := by
        rw [Player.setStatus]
        split <;> rfl
      change Function.update _ _ _ index = _
      rw [update_of_ne different, same]
    change Prompt sequence skipping (world.markEntered sequence runner step now).player
    constructor
    case waiting =>
      apply prompt.waiting.mono
      · intro index
        rw [statusEq]
        by_cases here : index = step.id.index
        · rw [here, update_self]
          intro impossible
          cases impossible
        · rw [update_of_ne here]
          exact id
      · intro index
        rw [statusEq]
        by_cases here : index = step.id.index
        · rw [here, update_self]
          intro impossible
          cases impossible
        · rw [update_of_ne here]
          exact id
    case attended =>
      intro never other otherMember
      rw [statusEq]
      by_cases here : other.id.index = step.id.index
      · rw [here, update_self]
        intro impossible
        cases impossible
      · rw [update_of_ne here, runsEq _ here]
        exact prompt.attended never other otherMember

/-! ## Controls -/

/-- The roots of a document whose steps are all pending. -/
theorem admitRoots_ready {steps : List Step} (inside : steps ⊆ sequence.steps) (player : Player)
    (unstarted : ∀ index, player.status index = .pending ∨ player.status index = .ready) :
    let roots := steps.foldl
      (fun (player : Player) (step : Step) =>
        if step.after ≠ [] then player
        else (player.setStatus sequence step.id .ready).admitToFrontier sequence step.id
          player.lastNow) player
    (∀ index, roots.status index = .pending ∨ roots.status index = .ready) ∧
      (∀ index, player.status index = .ready → roots.status index = .ready) ∧
      ∀ step ∈ steps, step.after = [] → roots.status step.id.index = .ready := by
  intro roots
  induction steps generalizing player with
  | nil => exact ⟨unstarted, fun _ ready => ready, fun _ impossible => by cases impossible⟩
  | cons step rest later =>
    have restInside : rest ⊆ sequence.steps := fun _ inRest => inside (mem_cons_of_mem _ inRest)
    by_cases root : step.after = []
    · have status : ((player.setStatus sequence step.id .ready).admitToFrontier sequence step.id
          player.lastNow).status = Function.update player.status step.id.index .ready := by
        rw [Player.status_admitToFrontier,
          Player.status_setStatus (built.index_lt (inside mem_cons_self))]
      have stillUnstarted : ∀ index,
          Function.update player.status step.id.index .ready index = .pending ∨
            Function.update player.status step.id.index .ready index = .ready := by
        intro index
        by_cases here : index = step.id.index
        · rw [here, update_self]
          exact .inr rfl
        · rw [update_of_ne here]
          exact unstarted index
      rw [← status] at stillUnstarted
      have ⟨unstartedLater, readyLater, rootsLater⟩ := later restInside _ stillUnstarted
      have rootsEq : roots = rest.foldl (fun (player : Player) (step : Step) =>
          if step.after ≠ [] then player
          else (player.setStatus sequence step.id .ready).admitToFrontier sequence step.id
            player.lastNow) ((player.setStatus sequence step.id .ready).admitToFrontier sequence
              step.id player.lastNow) := by
        change List.foldl _ _ _ = _
        rw [foldl_cons, if_neg (not_not.mpr root)]
      rw [← rootsEq] at unstartedLater readyLater rootsLater
      refine ⟨unstartedLater, ?_, ?_⟩
      · intro index ready
        apply readyLater
        rw [status]
        by_cases here : index = step.id.index
        · rw [here, update_self]
        · rw [update_of_ne here]
          exact ready
      · intro other isStep isRoot
        rcases mem_cons.mp isStep with rfl | inRest
        · apply readyLater
          rw [status, update_self]
        · exact rootsLater other inRest isRoot
    · have rootsEq : roots = rest.foldl (fun (player : Player) (step : Step) =>
          if step.after ≠ [] then player
          else (player.setStatus sequence step.id .ready).admitToFrontier sequence step.id
            player.lastNow) player := by
        change List.foldl _ _ _ = _
        rw [foldl_cons, if_pos root]
      have ⟨unstartedLater, readyLater, rootsLater⟩ := later restInside _ unstarted
      rw [← rootsEq] at unstartedLater readyLater rootsLater
      refine ⟨unstartedLater, readyLater, ?_⟩
      intro other isStep isRoot
      rcases mem_cons.mp isStep with rfl | inRest
      · exact absurd isRoot root
      · exact rootsLater other inRest isRoot

theorem play_going (sound : RunSound sequence runner start world)
    (going : Going sequence skipping world) : Going sequence skipping (world.play sequence).2 := by
  rw [play]
  cases stateIs : world.player.state with
  | paused =>
    intro _ _
    have prompt := going (by rw [stateIs]; decide) (by rw [stateIs]; decide)
    exact prompt.of_same rfl fun _ => rfl
  | playing | interrupted | done => exact going
  | idle =>
    intro _ _
    rcases sound.idle stateIs with ⟨pending, _, _⟩
    rcases admitRoots_ready built (Subset.refl sequence.steps)
      { world.player with state := .playing } (fun index => .inl (pending index)) with
      ⟨unstarted, _, roots⟩
    change Prompt sequence skipping (admitRoots sequence { world.player with state := .playing })
    have unfinished : ∀ index, terminalStatus
        ((admitRoots sequence { world.player with state := .playing }).status index) = false := by
      intro index
      rcases unstarted index with isPending | isReady
      · exact congrArg terminalStatus isPending
      · exact congrArg terminalStatus isReady
    constructor
    case waiting =>
      intro step member isPending
      cases after : step.after with
      | nil =>
        have isReady := roots step member after
        cases isPending.symm.trans isReady
      | cons predecessor rest =>
        exact ⟨predecessor, mem_cons_self, .inl (unfinished _)⟩
    case attended =>
      intro _ step member terminal
      rw [unfinished] at terminal
      cases terminal

theorem waiting_foldl (ids : List StepId) (world : World ρ)
    (waiting : world.player.Waiting sequence ids) :
    (ids.foldl (World.admitSuccessors sequence) world).player.Waiting sequence [] := by
  induction ids generalizing world with
  | nil => exact waiting
  | cons id rest later =>
    apply later
    exact waiting.admitSuccessors built

theorem skip_going (sound : RunSound sequence runner start world)
    (going : Going sequence skipping world) (isSkipping : skipping = true) :
    Going sequence skipping (world.skip sequence runner).2 := by
  rw [skip]
  split
  · exact going
  rename_i isLive
  rw [Bool.not_eq_false] at isLive
  have prompt : Prompt sequence skipping world.player := by
    rcases isLive_iff.mp isLive with playing | paused
    · exact going (by rw [playing]; decide) (by rw [playing]; decide)
    · exact going (by rw [paused]; decide) (by rw [paused]; decide)
  have runSound := sound.balanced.sound
  let emptied := world.mapPlayer fun player => { player with frontier := [] }
  have emptiedLedger : Ledger sequence runner start none emptied :=
    sound.balanced.ledger.bookkeeping (Player.SameRuns.of_eq rfl rfl)
  have emptiedConsistent : emptied.player.Consistent sequence := runSound.consistent
  have frontierLive := frontier_live sound.balanced
  have unfinished : ∀ id ∈ world.player.frontier,
      terminalStatus (emptied.player.status id.index) = false :=
    fun id member => terminalStatus_of_isActive ((runSound.frontier.mem_iff id).mp member).2
  rcases sweep_foldl (skipMember sequence runner world.player.lastNow)
    (fun _ status => terminalStatus status = false)
    (fun _ _ after => terminalStatus after = true) frontierLive runSound.frontier.nodup
    (fun world id member => skipMember_single built _ world id (frontierLive id member))
    emptiedConsistent emptiedLedger unfinished with
    ⟨sweep, _, terminal⟩
  have finishing := prompt.waiting.finish built world.player.frontier terminal
    fun id live absent => (sweep.outside id live absent).1
  rw [append_nil] at finishing
  have waiting := waiting_foldl built _ _ finishing
  intro _ _
  constructor
  case waiting =>
    dsimp only
    rw [settle]
    split <;> exact waiting
  case attended =>
    intro never
    rw [isSkipping] at never
    cases never

omit built in
theorem settle_going (going : Going sequence skipping world) :
    Going sequence skipping world.settle := by
  rw [settle]
  split
  · rename_i finished
    intro _ _
    have prompt := going (by rw [finished.1]; decide) (by rw [finished.1]; decide)
    exact prompt.of_same rfl fun _ => rfl
  · exact going

/-- The controls of a run without jumps. -/
def Control.isPlain : Control → Bool
  | .play => true
  | .pause => true
  | .pump _ => true
  | .skip => true
  | _ => false

omit built in
/-- What has happened stays on record. -/
theorem control_grows (built : sequence.Built) (sound : RunSound sequence runner start world)
    (control : Control) : world.trace ⊆ (world.control sequence runner control).2.trace := by
  have byMoves : ∀ {now : TimePoint} {before after : World ρ},
      Moves sequence runner now before after → before.trace ⊆ after.trace := by
    intro now before after moves
    rcases (follows_of_moves built moves).trace with ⟨events, traceEq, _⟩
    rw [traceEq]
    exact subset_append_left _ _
  have byJump : ∀ target, world.trace ⊆ (world.gotoStep sequence runner target).2.trace := by
    intro target
    rw [gotoStep]
    split
    · exact Subset.refl _
    have jumped := byMoves (moves_jumpTo runner built world target
      (frontier_live sound.balanced) rfl)
    dsimp only
    split <;> exact jumped
  cases control with
  | play =>
    change _ ⊆ (world.play sequence).2.trace
    rw [play]
    split <;> exact Subset.refl _
  | pause =>
    change _ ⊆ world.pause.2.trace
    rw [pause]
    split <;> exact Subset.refl _
  | pump now =>
    have rule : PumpRule sequence runner start now fun after : World ρ =>
        world.trace ⊆ after.trace ∧ after.player.lastNow = now := by
      constructor
      case tick =>
        intro before step balanced _ member running kept
        have grows := onStatus_grows built member
          (tick_answered built balanced member running now) kept.2
        exact ⟨Subset.trans kept.1 (Subset.trans (subset_append_left _ _) grows.1), grows.2⟩
      case enter =>
        intro before step balanced _ member ready _ kept
        have timed : ((before.markEntered sequence runner step now).callEnter runner step
            now).2.player.lastNow = now := by
          rw [enter_player before (built.live_lt ⟨step, member, rfl⟩)]
          exact kept.2
        have grows := onStatus_grows built member
          (enter_answered built balanced member ready now).1 timed
        exact ⟨Subset.trans kept.1 (Subset.trans (subset_append_left _ _) grows.1), grows.2⟩
    apply (rule.pump built sound ⟨Subset.refl _, rfl⟩ _).1
    intro before kept
    rw [settle]
    split <;> exact kept
  | skip =>
    change _ ⊆ (world.skip sequence runner).2.trace
    rw [skip]
    split
    · exact Subset.refl _
    have folded : ∀ (turn : World ρ → StepId → World ρ) (ids : List StepId) (world : World ρ),
        (∀ world id, world.trace ⊆ (turn world id).trace) →
        world.trace ⊆ (ids.foldl turn world).trace := by
      intro turn ids world single
      induction ids generalizing world with
      | nil => exact Subset.refl _
      | cons id rest later => exact Subset.trans (single world id) (later _)
    have skipped : ∀ (world : World ρ) (id : StepId) (now : TimePoint),
        world.trace ⊆ (skipMember sequence runner now world id).trace := by
      intro world id now
      rw [skipMember]
      split
      · exact Subset.refl _
      change _ ⊆ (world.exitIfEntered sequence runner id now).trace
      rw [exitIfEntered]
      split
      · exact @byMoves now _ _ (moves_measured world id)
      · exact Subset.refl _
    have settled : ∀ world : World ρ, world.settle.trace = world.trace := by
      intro world
      rw [settle]
      split <;> rfl
    dsimp only
    rw [settled]
    exact Subset.trans
      (folded _ _ (world.mapPlayer fun player => { player with frontier := [] })
        fun world id => skipped world id _)
      (folded _ _ _ fun _ _ => Subset.refl _)
  | gotoStep target => exact byJump target
  | gotoLabel label =>
    change _ ⊆ (world.gotoLabel sequence runner label).2.trace
    rw [gotoLabel]
    split
    · exact Subset.refl _
    · exact byJump _
  | interrupt =>
    change _ ⊆ (world.interrupt sequence runner).2.trace
    rw [interrupt]
    split
    · exact Subset.refl _
    · exact byMoves ((@moves_unwind ρ sequence runner world.player.lastNow world).tail (.stop _))

theorem run_grows (controls : List Control) (sound : RunSound sequence runner start world) :
    world.trace ⊆ (world.run sequence runner controls).trace := by
  induction controls generalizing world with
  | nil => exact Subset.refl _
  | cons control rest later =>
    exact Subset.trans (control_grows built sound control)
      (later (control_step built sound control).sound)

theorem gotoStep_going (going : Going sequence skipping world)
    (unjumped : Unjumped (world.gotoStep sequence runner target).2) :
    Going sequence skipping (world.gotoStep sequence runner target).2 := by
  rw [gotoStep] at unjumped ⊢
  split
  · exact going
  rename_i isLive
  rw [if_neg isLive] at unjumped
  dsimp only at unjumped ⊢
  cases accepted : (world.jumpTo sequence runner target).1 with
  | none =>
    rw [accepted] at unjumped
    exact absurd (jump_mem_of_accepted built accepted) (unjumped target)
  | some refused =>
    intro notIdle notEnded
    have same : (world.jumpTo sequence runner target).2.player = world.player := by
      unfold jumpTo at accepted ⊢
      split at accepted
      · rfl
      · cases accepted
    change Prompt sequence skipping (world.jumpTo sequence runner target).2.player
    change (world.jumpTo sequence runner target).2.player.state ≠ _ at notIdle notEnded
    rw [same] at notIdle notEnded ⊢
    exact going notIdle notEnded

omit built

theorem control_going (built : sequence.Built) (sound : RunSound sequence runner start world)
    (going : Going sequence skipping world) {control : Control}
    (stays : NoRecovery sequence ∧ control.isPlain = true ∨
      Unjumped (world.control sequence runner control).2)
    (skips : control = .skip → skipping = true) :
    Going sequence skipping (world.control sequence runner control).2 := by
  cases control with
  | play => exact play_going built sound going
  | pause =>
    change Going sequence skipping world.pause.2
    rw [pause]
    split
    · exact going
    rename_i playing
    rw [not_not] at playing
    intro _ _
    have prompt := going (by rw [playing]; decide) (by rw [playing]; decide)
    exact prompt.of_same rfl fun _ => rfl
  | pump now =>
    have timed : Kept sequence skipping now
        (world.mapPlayer fun player => { player with lastNow := now }) := by
      refine ⟨fun _ started notEnded => ?_, rfl⟩
      exact (going started notEnded).of_same rfl fun _ => rfl
    have pumped := (pumpRule_going built).pump built sound timed fun kept => by
      refine ⟨fun stays => settle_going (kept.going ?_), ?_⟩
      · rw [settle] at stays
        split at stays <;> exact stays
      rw [settle]
      split <;> exact kept.timed
    exact pumped.going (stays.imp_left And.left)
  | skip => exact skip_going built sound going (skips rfl)
  | gotoStep target =>
    rcases stays with ⟨_, impossible⟩ | unjumped
    · cases impossible
    · exact gotoStep_going built going unjumped
  | gotoLabel label =>
    rcases stays with ⟨_, impossible⟩ | unjumped
    · cases impossible
    change Unjumped (world.gotoLabel sequence runner label).2 at unjumped
    change Going sequence skipping (world.gotoLabel sequence runner label).2
    rw [gotoLabel] at unjumped ⊢
    cases resolved : sequence.resolveLabel label with
    | none => exact going
    | some target =>
      rw [resolved] at unjumped
      exact gotoStep_going built going unjumped
  | interrupt =>
    change Going sequence skipping (world.interrupt sequence runner).2
    rw [interrupt]
    split
    · exact going
    · intro _ notEnded
      exact absurd rfl notEnded

theorem run_going (built : sequence.Built) (controls : List Control)
    (sound : RunSound sequence runner start world) (going : Going sequence skipping world)
    (stays : (NoRecovery sequence ∧ ∀ control ∈ controls, control.isPlain = true) ∨
      Unjumped (world.run sequence runner controls)) (skips : .skip ∈ controls → skipping = true) :
    Going sequence skipping (world.run sequence runner controls) := by
  induction controls generalizing world with
  | nil => exact going
  | cons control rest later =>
    have stepped := (control_step built sound control).sound
    have staysHere : NoRecovery sequence ∧ control.isPlain = true ∨
        Unjumped (world.control sequence runner control).2 := by
      rcases stays with ⟨noRecovery, plain⟩ | unjumped
      · exact .inl ⟨noRecovery, plain control mem_cons_self⟩
      · exact .inr (unjumped.earlier (run_grows built rest stepped))
    have first := control_going built sound going staysHere
      fun isSkip => skips (isSkip ▸ mem_cons_self)
    exact later stepped first
      (stays.imp_left fun plain => ⟨plain.1, fun other inRest =>
        plain.2 other (mem_cons_of_mem _ inRest)⟩)
      fun inRest => skips (mem_cons_of_mem _ inRest)

end

/-- A step that was entered first at some point was entered. -/
theorem entryCount_pos {id : StepId} (trace : List Event) (entered : id ∈ firstEntered trace) :
    0 < entryCount id trace := by
  induction trace using List.reverseRecOn with
  | nil => cases entered
  | append_singleton trace event earlier =>
    rw [entryCount_append]
    rw [firstEntered_append] at entered
    cases event with
    | enter other now answer statuses =>
      dsimp only at entered
      rw [entryCount_enter]
      split at entered
      · have before := earlier entered
        omega
      rcases mem_append.mp entered with old | new
      · have before := earlier old
        omega
      · rw [if_pos (mem_singleton.mp new).symm]
        omega
    | tick _ _ _ | join _ | exit _ _ _ | releaseHolds _ _ | jump _ _ =>
      have before := earlier entered
      omega

section

variable {ρ : Type} {sequence : Sequence} {steps : List Step} {pacing : PacingOptions}
  {name : String}

/-- In a run without jumps, done means that every step has finished.  Where nothing was skipped
every step was entered, and more than once only by its retry; no step was entered before its
predecessors had finished; and a pump that leaves the run playing leaves something to do. -/
theorem done_means_complete (accepted : Sequence.build steps pacing name = .ok sequence)
    (noRecovery : NoRecovery sequence) (runner : CommandRunner ρ) (state : ρ)
    (controls : List Control) (plain : ∀ control ∈ controls, control.isPlain = true) :
    let world := (World.initial state).run sequence runner controls
    (world.player.state = .done →
        (∀ step ∈ sequence.steps, terminalStatus (world.player.status step.id.index) = true) ∧
          (.skip ∉ controls → ∀ step ∈ sequence.steps,
            1 ≤ entryCount step.id world.trace ∧
              entryCount step.id world.trace ≤ 1 + (world.player.runs step.id.index).retries ∧
              (world.player.runs step.id.index).retries ≤ maxRetriesPerStep)) ∧
      (∀ id now answer statuses, Event.enter id now answer statuses ∈ world.trace →
        ∀ predecessor, sequence.Depends predecessor id →
          terminalStatus (statuses predecessor.index) = true) ∧
      ∀ now, (world.pump sequence runner now).2.player.state = .playing →
        (world.pump sequence runner now).2.player.frontier ≠ [] := by
  intro world
  have built := Sequence.built_of_build accepted
  have sound : RunSound sequence runner state world := World.reachable_sound accepted state controls
  have fresh : ∀ skipping, Going sequence skipping (World.initial state) :=
    fun skipping notIdle => absurd rfl notIdle
  have going : Going sequence (decide (.skip ∈ controls)) world :=
    run_going built controls (RunSound.initial state) (fresh _) (.inl ⟨noRecovery, plain⟩)
      fun isSkip => decide_eq_true isSkip
  refine ⟨?_, ?_, ?_⟩
  · intro isDone
    have prompt := going (by rw [isDone]; decide) (by rw [isDone]; decide)
    have finished : ∀ step ∈ sequence.steps,
        terminalStatus (world.player.status step.id.index) = true := by
      intro step member
      exact prompt.waiting.finished built sound.balanced.sound (sound.done isDone) step.id
        ⟨step, member, rfl⟩
    refine ⟨finished, ?_⟩
    intro never step member
    have live : sequence.Live step.id := ⟨step, member, rfl⟩
    have entered := prompt.attended (decide_eq_false never) step member (finished step member)
    have ledger := sound.balanced.ledger
    have counted := ledger.counted step.id live
    rw [if_pos entered] at counted
    refine ⟨?_, counted, ledger.bounded step.id live⟩
    apply entryCount_pos
    rw [ledger.order]
    exact (ledger.entered step.id).mpr ⟨live, entered⟩
  · intro id now answer statuses isEntry predecessor depends
    exact sound.balanced.ledger.lawful _ isEntry predecessor (Relation.TransGen.single depends)
  · intro now playing
    rw [World.pump_world] at playing ⊢
    dsimp only at playing ⊢
    split at playing
    · rename_i notLive
      rw [World.isLive, playing] at notLive
      cases notLive
    rename_i isLive
    rw [if_neg isLive]
    intro emptyFrontier
    rw [World.settle] at playing emptyFrontier
    split at playing
    · cases playing
    · rename_i unfinished
      rw [if_neg unfinished] at emptyFrontier
      exact unfinished ⟨playing, emptyFrontier⟩

theorem done_means_complete_twoWaits : ∃ sequence,
    Sequence.build twoWaits {} "waits" = .ok sequence ∧
      let world := (World.initial 0).run sequence countingRunner
        [.play, .pump 0, .pause, .pump 5, .play, .pump 6, .pump 13]
      world.player.state = .done ∧
        ∀ step ∈ sequence.steps, terminalStatus (world.player.status step.id.index) = true := by
  rcases build_twoWaits with ⟨sequence, accepted⟩
  have isDone : (Sequence.build twoWaits {} "waits").toOption.map (fun sequence =>
      (decide (∀ step ∈ sequence.steps, step.onError ≠ .goto),
        ((World.initial 0).run sequence countingRunner
          [.play, .pump 0, .pause, .pump 5, .play, .pump 6, .pump 13]).player.state)) =
        some (true, .done) := by
    decide +kernel
  rw [accepted, Except.toOption, Option.map_some, Option.some.injEq, Prod.mk.injEq,
    decide_eq_true_eq] at isDone
  refine ⟨sequence, accepted, isDone.2, ?_⟩
  exact ((done_means_complete accepted isDone.1 countingRunner 0 _ (by decide)).1 isDone.2).1

end

end Grab.Kernel
