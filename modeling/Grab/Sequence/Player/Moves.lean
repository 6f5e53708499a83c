import Grab.Sequence.Player.Goto

/-!
# Moves

Whatever follows an answer, an exit, an unwind or a jump, is made of a few small moves.  A
relation of two worlds that each move respects, and that composes, is respected by all of it.
-/

namespace Grab.Kernel

open Grab.Sequence Grab.Lib Relation List

section

variable {ρ : Type} (sequence : Sequence) (runner : CommandRunner ρ) (now : TimePoint)

inductive Move : World ρ → World ρ → Prop
  | neutralize (world : World ρ) (id : StepId) :
      Move world (world.neutralize sequence runner id now)
  | reap (world : World ρ) (id : StepId) : Move world (world.reapHolds sequence runner id)
  | measure (world : World ρ) (id : StepId) :
      Move world (world.mapPlayer fun player =>
        player.updateRun id fun run => { run with callDuration := now - run.enteredAt })
  | finish (world : World ρ) (id : StepId)
      (unfinished : terminalStatus (world.player.status id.index) = false) :
      Move world (world.finishRun id now)
  | skip (world : World ρ) (id : StepId)
      (unfinished : terminalStatus (world.player.status id.index) = false) :
      Move world (world.markSkipped sequence id now)
  | abandon (world : World ρ) (id : StepId)
      (unfinished : terminalStatus (world.player.status id.index) = false) :
      Move world (world.mapPlayer fun player => player.setStatus sequence id .pending)
  | announce (world : World ρ) (target : StepId) (refused : Option JumpError) :
      Move world { world with trace := world.trace ++ [.jump target refused] }
  | place (world : World ρ) (step : Step) (member : step ∈ sequence.steps)
      (unfinished : terminalStatus (world.player.status step.id.index) = false) :
      Move world (world.mapPlayer fun player => World.placeTarget sequence player step now)
  | retire (world : World ρ) (id : StepId) (status : StepStatus)
      (terminal : terminalStatus status = true)
      (finished : (world.player.runs id.index).finishedAt = now) :
      Move world (world.retire sequence id status now)
  | admitted (world : World ρ) (id : StepId) : Move world (world.admitSuccessors sequence id)
  | note (world : World ρ) (error : Error) :
      Move world (world.mapPlayer fun player => { player with failure := some error })
  | clear (world : World ρ) :
      Move world (world.mapPlayer fun player => { player with frontier := [] })
  | stop (world : World ρ) :
      Move world (world.mapPlayer fun player => { player with state := .interrupted })

abbrev Moves : World ρ → World ρ → Prop := ReflTransGen (Move sequence runner now)

end

section

variable {ρ : Type} {sequence : Sequence} {runner : CommandRunner ρ} {now : TimePoint}

namespace World

theorem status_neutralize (world : World ρ) (id : StepId) :
    (world.neutralize sequence runner id now).player.status = world.player.status := by
  rcases world.neutralize_player sequence runner id now with same | ⟨_, same⟩ <;> rw [same]
  rfl

/-! ## What is made of moves -/

theorem moves_foldl (turn : World ρ → StepId → World ρ) (ids : List StepId)
    (single : ∀ world, ∀ id ∈ ids, Moves sequence runner now world (turn world id))
    (world : World ρ) : Moves sequence runner now world (ids.foldl turn world) := by
  induction ids generalizing world with
  | nil => exact ReflTransGen.refl
  | cons id rest later =>
    exact (single world id mem_cons_self).trans
      (later (fun world other member => single world other (mem_cons_of_mem _ member)) _)

variable (world : World ρ) (id : StepId)

theorem moves_measured :
    Moves sequence runner now world
      ((world.mapPlayer fun player => player.updateRun id fun run =>
        { run with callDuration := now - run.enteredAt }).neutralize sequence runner id now) :=
  (ReflTransGen.single (.measure world id)).tail (.neutralize _ id)

/-- An unfinished step is exited if need be, and skipped. -/
theorem moves_skipped (unfinished : terminalStatus (world.player.status id.index) = false) :
    Moves sequence runner now world
      ((world.exitIfEntered sequence runner id now).markSkipped sequence id now) := by
  rw [exitIfEntered]
  split
  · refine (moves_measured world id).tail (.skip _ id ?_)
    rw [status_neutralize]
    exact unfinished
  · exact ReflTransGen.single (.skip world id unfinished)

theorem moves_unwindEntered :
    Moves sequence runner now world (unwindEntered sequence runner now world id) := by
  rw [unwindEntered]
  split
  · exact ReflTransGen.refl
  split
  · exact ReflTransGen.refl
  split
  · exact ReflTransGen.single (.reap world id)
  dsimp only
  split
  · exact moves_measured world id
  · rename_i unfinished
    exact (moves_measured world id).tail (.skip _ id (Bool.not_eq_true _ ▸ unfinished))

theorem moves_unwind (world : World ρ) :
    Moves sequence runner now world (world.unwind sequence runner now) := by
  rw [unwind]
  refine ReflTransGen.tail (ReflTransGen.trans (moves_foldl _ _ (fun world id _ =>
    moves_unwindEntered world id) world) (moves_foldl _ _ (fun world id _ => ?_) _)) (.clear _)
  rw [unwindReady]
  split
  · rename_i candidate
    exact ReflTransGen.single (.skip world id candidate.2)
  · exact ReflTransGen.refl

theorem moves_skipAncestor (id : StepId) :
    Moves sequence runner now world (skipAncestor sequence runner now world id) := by
  rw [skipAncestor]
  split
  · exact ReflTransGen.refl
  · rename_i candidate
    rw [not_or, Bool.not_eq_true] at candidate
    exact moves_skipped world id candidate.2

theorem moves_dropMember (target : StepId) (world : World ρ) (id : StepId) :
    Moves sequence runner now world (dropMember sequence runner target now world id) := by
  rw [dropMember]
  split
  · exact ReflTransGen.refl
  rename_i candidate
  rw [not_or, not_or, Bool.not_eq_true] at candidate
  dsimp only
  split
  · exact moves_skipped world id candidate.2.2
  · exact ReflTransGen.single (.abandon world id candidate.2.2)

theorem status_foldl {turn : World ρ → StepId → World ρ} {ids : List StepId} {index : Nat}
    (single : ∀ world, ∀ id ∈ ids,
      (turn world id).player.status index = world.player.status index) (world : World ρ) :
    (ids.foldl turn world).player.status index = world.player.status index := by
  induction ids generalizing world with
  | nil => rfl
  | cons id rest later =>
    rw [foldl_cons, later fun world other member =>
      single world other (mem_cons_of_mem _ member)]
    exact single world id mem_cons_self

/-- Jumps and their refusals; a jump takes place at the time of the last pump. -/
theorem moves_jumpTo (runner : CommandRunner ρ) (built : sequence.Built) (world : World ρ)
    (target : StepId) (frontierLive : ∀ id ∈ world.player.frontier, sequence.Live id)
    (timed : world.player.lastNow = now) :
    Moves sequence runner now world (world.jumpTo sequence runner target).2 := by
  unfold jumpTo
  split
  · exact ReflTransGen.single (.announce world target _)
  rename_i step checked
  rcases jumpCheck_ok built checked with ⟨found, unfinished⟩
  rcases Sequence.Built.mem_of_find found with ⟨member, rfl⟩
  have apart : ∀ id, sequence.Live id → id ≠ step.id → step.id.index ≠ id.index :=
    fun id idLive different same =>
      different (built.live_eq idLive ⟨step, member, rfl⟩ same.symm)
  have ancestorLive : ∀ id ∈ sequence.ancestorsOf step.id, sequence.Live id ∧ id ≠ step.id := by
    intro id inList
    have isAncestor := built.mem_ancestorsOf_iff.mp inList
    refine ⟨built.ancestor_live isAncestor, ?_⟩
    rintro rfl
    exact built.acyclic _ isAncestor
  rw [timed]
  dsimp only
  have announced : Moves sequence runner now world
      { world with trace := world.trace ++ [.jump step.id none] } :=
    ReflTransGen.single (.announce world step.id none)
  generalize heardEq : ({ world with trace := world.trace ++ [.jump step.id none] } :
    World ρ) = heard at announced ⊢
  have playerEq : heard.player = world.player := by rw [← heardEq]
  have skips : ∀ world : World ρ, ∀ id ∈ sequence.ancestorsOf step.id,
      Touches id world (skipAncestor sequence runner now world id) :=
    fun _ id inList => touches_skipAncestor built now (ancestorLive id inList).1
  have frontierEq := (@touches_foldl ρ heard _ _ skips).1
  have skippedStatus := @status_foldl ρ _ _ step.id.index (fun world id inList =>
    (skips world id inList).status _
      (apart id (ancestorLive id inList).1 (ancestorLive id inList).2)) heard
  have skipped := announced.trans (moves_foldl _ (sequence.ancestorsOf step.id)
    (fun world id _ => moves_skipAncestor world id) heard)
  generalize (sequence.ancestorsOf step.id).foldl (skipAncestor sequence runner now) heard =
    left at frontierEq skippedStatus skipped ⊢
  have drops : ∀ world : World ρ, ∀ id ∈ left.player.frontier,
      (dropMember sequence runner step.id now world id).player.status step.id.index =
        world.player.status step.id.index := by
    intro world id inFrontier
    by_cases isTarget : id = step.id
    · rw [dropMember, if_pos (.inl isTarget)]
    · rw [frontierEq, playerEq] at inFrontier
      have idLive := frontierLive id inFrontier
      exact (touches_dropMember built step.id now idLive).status _ (apart id idLive isTarget)
  refine (skipped.trans (moves_foldl _ left.player.frontier
    (fun world id _ => moves_dropMember step.id world id) left)).tail (.place _ step member ?_)
  rw [status_foldl drops, skippedStatus, playerEq]
  exact unfinished

theorem moves_abortWith (error : Error) :
    Moves sequence runner now world (world.abortWith sequence runner error now) :=
  (ReflTransGen.trans (ReflTransGen.single (.note world error)) (moves_unwind _)).tail (.stop _)

theorem moves_applyPolicy (built : sequence.Built) (world : World ρ) (step : Step)
    (code : ErrorCode) (frontierLive : ∀ id ∈ world.player.frontier, sequence.Live id)
    (timed : world.player.lastNow = now) :
    Moves sequence runner now world (world.applyPolicy sequence runner step code now) := by
  rw [applyPolicy]
  cases step.onError with
  | «continue» => exact ReflTransGen.single (.admitted world step.id)
  | abort => exact moves_abortWith world _
  | «goto» =>
    dsimp only
    split
    · exact moves_abortWith world _
    rename_i target _
    have jumped := moves_jumpTo runner built world target frontierLive timed
    split
    · exact jumped
    · exact jumped.trans (moves_abortWith _ _)

/-- A failed step is exited and retired; its policy decides the rest. -/
theorem moves_failStep (built : sequence.Built) (world : World ρ) {id : StepId}
    (live : sequence.Live id) (code : ErrorCode)
    (unfinished : terminalStatus (world.player.status id.index) = false)
    (frontierLive : ∀ id ∈ world.player.frontier, sequence.Live id)
    (timed : world.player.lastNow = now) :
    ∃ retired, Moves sequence runner now world retired ∧
      terminalStatus (retired.player.status id.index) = true ∧
      Moves sequence runner now retired (world.failStep sequence runner id code now) := by
  have exited : Moves sequence runner now world
      ((world.finishRun id now).neutralize sequence runner id now) :=
    (ReflTransGen.single (.finish world id unfinished)).tail (.neutralize _ id)
  have finished : ((((world.finishRun id now).neutralize sequence runner id now).player.runs
      id.index).finishedAt = now) ∧
      ((world.finishRun id now).neutralize sequence runner id now).player.lastNow = now ∧
      ((world.finishRun id now).neutralize sequence runner id now).player.frontier =
        world.player.frontier := by
    rcases (world.finishRun id now).neutralize_player sequence runner id now with
      same | ⟨verdict, eq⟩
    · rw [same]
      simp [finishRun, mapPlayer, Player.updateRun, timed]
    · rw [eq]
      simp [finishRun, mapPlayer, Player.updateRun, timed]
  rw [failStep]
  generalize (world.finishRun id now).neutralize sequence runner id now = left at exited finished ⊢
  have retiredEq : (left.retire sequence id .failed now).player =
      { left.player with
        status := Function.update left.player.status id.index .failed
        lastFinish := max left.player.lastFinish now
        frontier := left.player.frontier.erase id } := by
    simp only [retire, mapPlayer, Player.setStatus, if_neg (Nat.not_le.mpr (built.live_lt live))]
    rfl
  refine ⟨_, exited.tail (.retire left id .failed rfl finished.1), ?_, ?_⟩
  · rw [retiredEq]
    simp [terminalStatus]
  split
  · exact ReflTransGen.refl
  apply moves_applyPolicy built
  · intro other inFrontier
    rw [retiredEq] at inFrontier
    apply frontierLive
    rw [← finished.2.2]
    exact mem_of_mem_erase inFrontier
  · rw [retiredEq]
    exact finished.2.1

end World

end

end Grab.Kernel
