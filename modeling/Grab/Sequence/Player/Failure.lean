import Grab.Sequence.Player.Rule

/-!
# How a run fails

The policy of a failing step ends a run and notes its failure, in one place.  Everything else
leaves the state of the run and its failure alone, so that a pump reports an error exactly if it
interrupted the run.
-/

namespace Grab.Kernel

open Grab.Sequence Grab.Lib

/-! ## What leaves the end of a run open -/

section

variable {ρ : Type} (sequence : Sequence) (runner : CommandRunner ρ)

/-- Neither the state of the run nor its failure changed. -/
structure SameEnd (before after : Player) : Prop where
  failure : after.failure = before.failure
  state : after.state = before.state

theorem SameEnd.refl (player : Player) : SameEnd player player := ⟨rfl, rfl⟩

theorem SameEnd.trans {first second third : Player} (left : SameEnd first second)
    (right : SameEnd second third) : SameEnd first third :=
  ⟨right.failure.trans left.failure, right.state.trans left.state⟩

theorem SameEnd.foldl {turn : World ρ → StepId → World ρ}
    (single : ∀ world id, SameEnd world.player (turn world id).player) (ids : List StepId)
    (world : World ρ) : SameEnd world.player (ids.foldl turn world).player := by
  induction ids generalizing world with
  | nil => exact SameEnd.refl _
  | cons id rest later => exact (single world id).trans (later _)

namespace Player

variable (player : Player) (id : StepId)

theorem sameEnd_setStatus (status : StepStatus) :
    SameEnd player (player.setStatus sequence id status) := by
  rw [setStatus]
  split
  · exact SameEnd.refl player
  · exact ⟨rfl, rfl⟩

theorem sameEnd_admitToFrontier (readyAt : TimePoint) :
    SameEnd player (player.admitToFrontier sequence id readyAt) := by
  rw [admitToFrontier]
  split <;> exact ⟨rfl, rfl⟩

theorem sameEnd_admitSuccessors : SameEnd player (player.admitSuccessors sequence id) := by
  rw [admitSuccessors]
  generalize Rows.row (successorTable sequence) id.index = successors
  induction successors generalizing player with
  | nil => exact SameEnd.refl player
  | cons successor rest later =>
    have first : SameEnd player (player.admitSuccessor sequence successor) := by
      rw [admitSuccessor]
      split
      · exact SameEnd.refl player
      split
      · exact SameEnd.refl player
      split
      · exact SameEnd.refl player
      · exact (sameEnd_setStatus sequence player successor _).trans
          (sameEnd_admitToFrontier sequence _ _ _)
    exact first.trans (later _)

end Player

namespace World

variable (world : World ρ) (id : StepId)

theorem sameEnd_neutralize (now : TimePoint) :
    SameEnd world.player (world.neutralize sequence runner id now).player := by
  rcases world.neutralize_player sequence runner id now with same | ⟨verdict, same⟩
  · rw [same]
    exact SameEnd.refl _
  · rw [same]
    exact ⟨rfl, rfl⟩

theorem sameEnd_reapHolds : SameEnd world.player (world.reapHolds sequence runner id).player := by
  rcases world.reapHolds_cases sequence runner id with same | ⟨step, state, outcome, same⟩
  · rw [same]
    exact SameEnd.refl _
  · rcases world.player.recordNeutralization_eq outcome with ⟨verdict, recorded⟩
    rw [same, recorded]
    exact ⟨rfl, rfl⟩

variable (now : TimePoint)

theorem sameEnd_exitIfEntered :
    SameEnd world.player (world.exitIfEntered sequence runner id now).player := by
  rw [exitIfEntered]
  split
  · have measured : SameEnd world.player (world.mapPlayer fun player =>
        player.updateRun id fun run =>
          { run with callDuration := now - run.enteredAt }).player := ⟨rfl, rfl⟩
    exact measured.trans (sameEnd_neutralize sequence runner _ id now)
  · exact SameEnd.refl _

theorem sameEnd_markSkipped : SameEnd world.player (world.markSkipped sequence id now).player := by
  have skipped := Player.sameEnd_setStatus sequence world.player id .skipped
  exact skipped.trans ⟨rfl, rfl⟩

theorem sameEnd_unwindEntered (world : World ρ) (id : StepId) :
    SameEnd world.player (unwindEntered sequence runner now world id).player := by
  rw [unwindEntered]
  split
  · exact SameEnd.refl _
  split
  · exact SameEnd.refl _
  split
  · exact sameEnd_reapHolds sequence runner world id
  have measured : SameEnd world.player (world.mapPlayer fun player =>
      player.updateRun id fun run =>
        { run with callDuration := now - run.enteredAt }).player := ⟨rfl, rfl⟩
  have exited := measured.trans (sameEnd_neutralize sequence runner _ id now)
  dsimp only
  split
  · exact exited
  · exact exited.trans (sameEnd_markSkipped sequence _ id now)

theorem sameEnd_unwind (world : World ρ) (now : TimePoint) :
    SameEnd world.player (world.unwind sequence runner now).player := by
  have entered := SameEnd.foldl (sameEnd_unwindEntered sequence runner
    now) world.player.entryOrder.reverse world
  have ready : ∀ (world : World ρ) (id : StepId),
      SameEnd world.player (unwindReady sequence now world id).player := by
    intro world id
    rw [unwindReady]
    split
    · exact sameEnd_markSkipped sequence world id now
    · exact SameEnd.refl _
  rw [unwind]
  exact (entered.trans (SameEnd.foldl ready _ _)).trans ⟨rfl, rfl⟩

theorem sameEnd_skipAncestor (now : TimePoint) (world : World ρ) (ancestor : StepId) :
    SameEnd world.player (skipAncestor sequence runner now world ancestor).player := by
  rw [skipAncestor]
  split
  · exact SameEnd.refl _
  · exact (sameEnd_exitIfEntered sequence runner world ancestor now).trans
      (sameEnd_markSkipped sequence _ ancestor now)

theorem sameEnd_dropMember (target : StepId) (now : TimePoint) (world : World ρ) (member : StepId) :
    SameEnd world.player (dropMember sequence runner target now world member).player := by
  rw [dropMember]
  split
  · exact SameEnd.refl _
  dsimp only
  split
  · exact (sameEnd_exitIfEntered sequence runner world member now).trans
      (sameEnd_markSkipped sequence _ member now)
  · exact Player.sameEnd_setStatus sequence _ member _

theorem sameEnd_placeTarget (player : Player) (step : Step) (now : TimePoint) :
    SameEnd player (placeTarget sequence player step now) := by
  rw [placeTarget]
  have emptied : SameEnd player { player with frontier := [] } := ⟨rfl, rfl⟩
  split
  · exact emptied.trans ((Player.sameEnd_setStatus sequence _ _ _).trans
      (Player.sameEnd_admitToFrontier sequence _ _ _))
  · exact emptied.trans (Player.sameEnd_admitToFrontier sequence _ _ _)

theorem sameEnd_jumpTo (world : World ρ) (target : StepId) :
    SameEnd world.player (world.jumpTo sequence runner target).2.player := by
  rw [jumpTo]
  split
  · exact ⟨rfl, rfl⟩
  have skipped := SameEnd.foldl (sameEnd_skipAncestor sequence runner
    world.player.lastNow) (sequence.ancestorsOf target)
    { world with trace := world.trace ++ [.jump target none] }
  have dropped := SameEnd.foldl (sameEnd_dropMember sequence runner target world.player.lastNow)
  exact (skipped.trans (dropped _ _)).trans (sameEnd_placeTarget sequence _ _ _)

theorem sameEnd_succeed (world : World ρ) (id : StepId) (now : TimePoint) :
    SameEnd world.player (world.succeed sequence runner id now).player := by
  have exited : SameEnd world.player
      ((world.finishRun id now).exitCompleted sequence runner id now).player := by
    rw [exitCompleted]
    split
    · exact ⟨rfl, rfl⟩
    · split <;> exact ⟨rfl, rfl⟩
  rw [succeed]
  have retired := exited.trans (Player.sameEnd_setStatus sequence _ id .succeeded)
  have dropped : SameEnd world.player (((world.finishRun id now).exitCompleted sequence runner id
      now).retire sequence id .succeeded now).player := retired.trans ⟨rfl, rfl⟩
  exact dropped.trans (Player.sameEnd_admitSuccessors sequence _ id)

theorem sameEnd_admitRoots (player : Player) : SameEnd player (admitRoots sequence player) := by
  rw [admitRoots]
  generalize sequence.steps = steps
  induction steps generalizing player with
  | nil => exact SameEnd.refl player
  | cons step rest later =>
    rw [List.foldl_cons]
    split
    · exact later player
    · exact ((Player.sameEnd_setStatus sequence player step.id .ready).trans
        (Player.sameEnd_admitToFrontier sequence _ _ _)).trans (later _)

theorem sameEnd_reenter (world : World ρ) (step : Step) (now : TimePoint) :
    SameEnd world.player (world.reenter sequence runner step now).2.player := by
  rw [reenter]
  have counted : SameEnd world.player (world.mapPlayer fun player =>
      player.updateRun step.id fun run => { run with retries := run.retries + 1 }).player :=
    ⟨rfl, rfl⟩
  exact (counted.trans (sameEnd_neutralize sequence runner _ step.id now)).trans ⟨rfl, rfl⟩

end World

end

/-! ## Failures -/

section

variable {ρ : Type} {sequence : Sequence} {runner : CommandRunner ρ} {start : ρ}
  {world : World ρ} {now : TimePoint} {id : StepId}

/-- A failure is noted with the end of the run, and only then. -/
structure Blamed (world : World ρ) : Prop where
  ended : world.player.state = .interrupted → world.player.failure ≠ none
  going : world.player.state ≠ .interrupted → world.player.failure = none

theorem Blamed.of_same {before after : World ρ} (same : SameEnd before.player after.player)
    (going : before.player.state ≠ .interrupted) (failure : before.player.failure = none) :
    Blamed after := by
  constructor
  case ended =>
    intro interrupted
    exact absurd (same.state.symm.trans interrupted) going
  case going => exact fun _ => same.failure.trans failure

theorem blamed_abortWith (world : World ρ) (error : Error) (now : TimePoint) :
    Blamed (world.abortWith sequence runner error now) := by
  have unwound := World.sameEnd_unwind sequence runner
    (world.mapPlayer fun player => { player with failure := some error }) now
  constructor
  case ended =>
    intro _ none_
    have failure : (world.abortWith sequence runner error now).player.failure = some error :=
      unwound.failure
    rw [failure] at none_
    cases none_
  case going => exact fun impossible => absurd rfl impossible

theorem blamed_failStep (code : ErrorCode) (going : world.player.state ≠ .interrupted)
    (failure : world.player.failure = none) :
    Blamed (world.failStep sequence runner id code now) := by
  have finished : SameEnd world.player (world.finishRun id now).player := ⟨rfl, rfl⟩
  have exited := finished.trans
    (World.sameEnd_neutralize sequence runner (world.finishRun id now) id now)
  have retired := exited.trans (Player.sameEnd_setStatus sequence _ id .failed)
  have dropped : SameEnd world.player (((world.finishRun id now).neutralize sequence runner id
      now).retire sequence id .failed now).player := retired.trans ⟨rfl, rfl⟩
  rw [World.failStep]
  generalize ((world.finishRun id now).neutralize sequence runner id now).retire sequence id
    .failed now = middle at dropped
  split
  · exact Blamed.of_same dropped going failure
  rename_i step _
  rw [World.applyPolicy]
  cases step.onError with
  | «continue» =>
    exact Blamed.of_same (dropped.trans (Player.sameEnd_admitSuccessors sequence _ step.id))
      going failure
  | abort => exact blamed_abortWith _ _ _
  | «goto» =>
    dsimp only
    split
    · exact blamed_abortWith _ _ _
    rename_i target _
    split
    · exact Blamed.of_same
        (dropped.trans (World.sameEnd_jumpTo sequence runner middle target)) going failure
    · exact blamed_abortWith _ _ _

theorem blamed_onStatus (answer : Status) (going : world.player.state ≠ .interrupted)
    (failure : world.player.failure = none) :
    Blamed (world.onStatus sequence runner id answer now) := by
  cases answer with
  | running => exact Blamed.of_same (SameEnd.refl _) going failure
  | success =>
    exact Blamed.of_same (World.sameEnd_succeed sequence runner world id now) going failure
  | failure =>
    rw [World.onStatus]
    split
    · exact blamed_failStep _ going failure
    rename_i step _
    dsimp only
    split
    · have again := World.sameEnd_reenter sequence runner world step now
      generalize world.reenter sequence runner step now = answered at again
      have stillGoing : answered.2.player.state ≠ .interrupted := by
        rw [again.state]
        exact going
      have stillNone : answered.2.player.failure = none := again.failure.trans failure
      split
      · exact Blamed.of_same (SameEnd.refl _) stillGoing stillNone
      · exact Blamed.of_same (World.sameEnd_succeed sequence runner _ id now) stillGoing stillNone
      · exact blamed_failStep _ stillGoing stillNone
    · exact blamed_failStep _ going failure

theorem pumpRule_blamed : PumpRule sequence runner start now Blamed := by
  constructor
  case tick =>
    intro world step _ isLive _ _ blamed
    have going := World.going_of_isLive isLive
    exact blamed_onStatus _ going (blamed.going going)
  case enter =>
    intro world step _ isLive _ _ _ blamed
    have going := World.going_of_isLive isLive
    have entered : SameEnd world.player
        ((world.markEntered sequence runner step now).callEnter runner step now).2.player :=
      (Player.sameEnd_setStatus sequence world.player step.id .running).trans ⟨rfl, rfl⟩
    have stillGoing : ((world.markEntered sequence runner step now).callEnter runner step
        now).2.player.state ≠ .interrupted := by
      rw [entered.state]
      exact going
    exact blamed_onStatus _ stillGoing (entered.failure.trans (blamed.going going))

/-- A run that was not interrupted has no failure. -/
def Unblamed (world : World ρ) : Prop :=
  world.player.state ≠ .interrupted → world.player.failure = none

theorem settle_blamed (blamed : Blamed world) : Blamed world.settle := by
  rw [World.settle]
  split
  · rename_i finished
    constructor
    case ended =>
      intro impossible
      cases impossible
    case going =>
      intro _
      exact blamed.going (by rw [finished.1]; decide)
  · exact blamed

/-- A pump fails where it interrupts a run that was going. -/
theorem pump_blamed (built : sequence.Built) (sound : RunSound sequence runner start world)
    (isLive : world.isLive = true) (unblamed : Unblamed world) (now : TimePoint) :
    Blamed (world.pump sequence runner now).2 ∧
      ((∃ error, (world.pump sequence runner now).1 = .error error) ↔
        (world.pump sequence runner now).2.player.state = .interrupted) := by
  have going := World.going_of_isLive isLive
  have timed : Blamed (world.mapPlayer fun player => { player with lastNow := now }) :=
    Blamed.of_same ⟨rfl, rfl⟩ going (unblamed going)
  have blamed : Blamed (world.pump sequence runner now).2 :=
    pumpRule_blamed.pump built sound timed settle_blamed
  refine ⟨blamed, ?_⟩
  have pumpLive : (world.mapPlayer fun player => { player with lastNow := now }).isLive = true :=
    isLive
  have noFailure : (world.mapPlayer fun player =>
      { player with lastNow := now }).player.failure = none := unblamed going
  have isError : (∃ error, (world.pump sequence runner now).1 = .error error) ↔
      (world.pump sequence runner now).2.player.failure ≠ none := by
    rw [World.pump]
    dsimp only
    rw [if_neg (by rw [pumpLive]; decide), noFailure]
    cases failed : ((World.pumpLoop sequence runner now (2 * sequence.steps.length + 2)
        (world.mapPlayer fun player => { player with lastNow := now })).settle).player.failure with
    | none =>
      dsimp only
      rw [failed]
      constructor
      · rintro ⟨error, impossible⟩
        cases impossible
      · exact fun impossible => absurd rfl impossible
    | some error =>
      dsimp only
      rw [failed]
      exact ⟨fun _ => Option.some_ne_none error, fun _ => ⟨error, rfl⟩⟩
  rw [isError]
  constructor
  · intro failed
    by_contra stillGoing
    exact failed (blamed.going stillGoing)
  · exact blamed.ended

/-! ## Whole runs -/

theorem Unblamed.of_same {after : World ρ} (unblamed : Unblamed world)
    (same : SameEnd world.player after.player) : Unblamed after := by
  intro going
  rw [same.state] at going
  exact same.failure.trans (unblamed going)

theorem settle_unblamed (unblamed : Unblamed world) : Unblamed world.settle := by
  rw [World.settle]
  split
  · rename_i finished
    intro _
    exact unblamed (by rw [finished.1]; decide)
  · exact unblamed

theorem skip_unblamed (unblamed : Unblamed world) : Unblamed (world.skip sequence runner).2 := by
  have skipped : ∀ (now : TimePoint) (world : World ρ) (id : StepId),
      SameEnd world.player (World.skipMember sequence runner now world id).player := by
    intro now world id
    rw [World.skipMember]
    split
    · exact SameEnd.refl _
    · exact (World.sameEnd_exitIfEntered sequence runner world id now).trans
        (World.sameEnd_markSkipped sequence _ id now)
  have admitted : ∀ (world : World ρ) (id : StepId),
      SameEnd world.player (world.admitSuccessors sequence id).player :=
    fun world id => Player.sameEnd_admitSuccessors sequence world.player id
  rw [World.skip]
  split
  · exact unblamed
  apply settle_unblamed
  have emptied : SameEnd world.player
      (world.mapPlayer fun player => { player with frontier := [] }).player := ⟨rfl, rfl⟩
  exact unblamed.of_same ((emptied.trans (SameEnd.foldl (skipped _) _ _)).trans
    (SameEnd.foldl admitted _ _))

theorem control_unblamed (built : sequence.Built) (sound : RunSound sequence runner start world)
    (unblamed : Unblamed world) (control : Control) :
    Unblamed (world.control sequence runner control).2 := by
  have goto : ∀ target, Unblamed (world.gotoStep sequence runner target).2 := by
    intro target
    have jumped := unblamed.of_same (World.sameEnd_jumpTo sequence runner world target)
    rw [World.gotoStep]
    split
    · exact unblamed
    dsimp only
    split <;> exact jumped
  cases control with
  | play =>
    change Unblamed (world.play sequence).2
    rw [World.play]
    cases stateIs : world.player.state with
    | paused => exact fun _ => unblamed (by rw [stateIs]; decide)
    | playing | interrupted | done => exact unblamed
    | idle =>
      intro _
      have started := World.sameEnd_admitRoots sequence { world.player with state := .playing }
      exact started.failure.trans (unblamed (by rw [stateIs]; decide))
  | pause =>
    change Unblamed world.pause.2
    rw [World.pause]
    split
    · exact unblamed
    · rename_i playing
      rw [not_not] at playing
      exact fun _ => unblamed (by rw [playing]; decide)
  | pump now =>
    change Unblamed (world.pump sequence runner now).2
    cases isLive : world.isLive with
    | true => exact (pump_blamed built sound isLive unblamed now).1.going
    | false =>
      have timedDead : (world.mapPlayer fun player =>
          { player with lastNow := now }).isLive = false := isLive
      rw [World.pump_world]
      dsimp only
      rw [if_pos timedDead]
      exact unblamed
  | skip => exact skip_unblamed unblamed
  | gotoStep target => exact goto target
  | gotoLabel label =>
    change Unblamed (world.gotoLabel sequence runner label).2
    rw [World.gotoLabel]
    split
    · exact unblamed
    · exact goto _
  | interrupt =>
    change Unblamed (world.interrupt sequence runner).2
    rw [World.interrupt]
    split
    · exact unblamed
    · exact fun impossible => absurd rfl impossible

theorem run_unblamed (built : sequence.Built) (controls : List Control)
    (sound : RunSound sequence runner start world) (unblamed : Unblamed world) :
    Unblamed (world.run sequence runner controls) := by
  induction controls generalizing world with
  | nil => exact unblamed
  | cons control rest later =>
    exact later (World.control_step built sound control).sound
      (control_unblamed built sound unblamed control)

end

end Grab.Kernel
