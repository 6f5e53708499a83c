import Grab.Sequence.Player.Teardown

/-!
# Jumping and skipping

A jump skips the ancestors of its target, drops the rest of the frontier and
puts the target in its place; a skip marks the whole frontier.  Both leave the
run state sound.  Because progress is ancestor-closed, the scan of the frontier
in a jump never finds anything.
-/

namespace Grab.Kernel

open Grab.Sequence Grab.Lib List

section

variable {ρ : Type} (sequence : Sequence) (runner : CommandRunner ρ) (start : ρ)

/-- What holds between two calls on the player: the ledger is balanced and the
run state is sound. -/
structure Balanced (world : World ρ) : Prop where
  ledger : Ledger sequence runner start none world
  sound : world.player.Sound sequence

end

section

variable {ρ : Type} {sequence : Sequence} {runner : CommandRunner ρ} {start : ρ} {world : World ρ}
  {player : Player} (balanced : Balanced sequence runner start world)

include balanced

theorem Balanced.bookkeeping (sound : player.Sound sequence)
    (same : Player.SameRuns world.player player) :
    Balanced sequence runner start { world with player := player } :=
  ⟨balanced.ledger.bookkeeping same, sound⟩

/-- Nothing changes that the invariants look at. -/
theorem Balanced.of_eq (statusEq : player.status = world.player.status)
    (runsEq : player.runs = world.player.runs)
    (frontierEq : player.frontier = world.player.frontier)
    (orderEq : player.entryOrder = world.player.entryOrder) :
    Balanced sequence runner start { world with player := player } := by
  have sound := balanced.sound
  refine balanced.bookkeeping ⟨?_, ⟨?_, ?_⟩, ?_⟩ (Player.SameRuns.of_eq orderEq runsEq)
  · intro id live
    rw [statusEq, runsEq]
    exact sound.consistent id live
  · rw [frontierEq]
    exact sound.frontier.nodup
  · rw [frontierEq, statusEq]
    exact sound.frontier.mem_iff
  · intro id live
    rw [statusEq]
    exact sound.closed id live

omit balanced

namespace World

/-! ## The checks of a jump -/

variable {target : StepId} (built : sequence.Built) {before : World ρ} {step : Step}

include built

theorem blockerOf_eq_none (sound : world.player.Sound sequence)
    (unfinished : terminalStatus (world.player.status target.index) = false) :
    blockerOf sequence world.player target = none := by
  rw [blockerOf, find?_eq_none]
  intro member inFrontier
  rw [Bool.and_eq_true, not_and]
  intro _ isAncestor
  rw [decide_eq_true_eq, built.mem_ancestorsOf_iff] at isAncestor
  obtain ⟨live, active⟩ := (sound.frontier.mem_iff member).mp inFrontier
  have started : world.player.status member.index ≠ .pending := by
    intro pending
    rw [pending] at active
    cases active
  rw [sound.closed member live started target isAncestor] at unfinished
  cases unfinished

theorem isTerminal_eq {id : StepId} (live : sequence.Live id) :
    player.isTerminal sequence id = terminalStatus (player.status id.index) := by
  rw [Player.isTerminal, decide_eq_true (built.live_lt live), Bool.true_and]

theorem jumpCheck_ok (accepted : jumpCheck sequence world.player target = .ok step) :
    sequence.find target = some step ∧
      terminalStatus (world.player.status target.index) = false := by
  unfold jumpCheck at accepted
  split at accepted
  · cases accepted
  rename_i found
  rw [isTerminal_eq built (Sequence.Built.live_of_find found)] at accepted
  split at accepted
  · cases accepted
  rename_i unfinished
  split at accepted
  · cases accepted
  · cases accepted
    exact ⟨found, Bool.not_eq_true _ ▸ unfinished⟩

/-- The scan of the frontier is never the check that refuses a jump. -/
theorem jumpCheck_error (sound : world.player.Sound sequence) {refused : JumpError}
    (isRefused : jumpCheck sequence world.player target = .error refused) :
    (Event.jump target (some refused)).Lawful sequence := by
  unfold jumpCheck at isRefused
  split at isRefused
  · cases isRefused
    exact trivial
  rename_i found
  rw [isTerminal_eq built (Sequence.Built.live_of_find found)] at isRefused
  split at isRefused
  · cases isRefused
    exact trivial
  rename_i unfinished
  rw [Bool.not_eq_true] at unfinished
  rw [blockerOf_eq_none built sound unfinished] at isRefused
  cases isRefused

/-! ## The loops of a jump -/

theorem skipAncestor_single (now : TimePoint) (world : World ρ) (id : StepId)
    (live : sequence.Live id) (consistent : world.player.Consistent sequence)
    (ledger : Ledger sequence runner start none world) :
    Sweep sequence [id] world (skipAncestor sequence runner now world id) ∧
      Ledger sequence runner start none (skipAncestor sequence runner now world id) ∧
      terminalStatus ((skipAncestor sequence runner now world id).player.status id.index) =
        true := by
  rw [skipAncestor]
  cases finished : terminalStatus (world.player.status id.index) with
  | true =>
    rw [if_pos (.inr rfl)]
    exact ⟨Sweep.refl consistent _, ledger, finished⟩
  | false =>
    rw [if_neg (by simpa using built.live_lt live)]
    obtain ⟨sweep, kept, skipped⟩ := skip_unfinished built live consistent ledger finished now
    exact ⟨sweep, kept, congrArg terminalStatus skipped⟩

/-- What a jump makes of a frontier member. -/
def Dropped (target id : StepId) (before after : StepStatus) : Prop :=
  if id = target then after = before
  else StepStatus.isActive after = false ∧ (after ≠ .pending → before ≠ .pending)

theorem dropMember_single (target : StepId) (now : TimePoint) (world : World ρ) (id : StepId)
    (live : sequence.Live id) (consistent : world.player.Consistent sequence)
    (ledger : Ledger sequence runner start none world)
    (started : world.player.status id.index ≠ .pending) :
    Sweep sequence [id] world (dropMember sequence runner target now world id) ∧
      Ledger sequence runner start none (dropMember sequence runner target now world id) ∧
      Dropped target id (world.player.status id.index)
        ((dropMember sequence runner target now world id).player.status id.index) := by
  have inside := built.live_lt live
  rw [dropMember]
  by_cases isTarget : id = target
  · rw [if_pos (.inl isTarget)]
    exact ⟨Sweep.refl consistent _, ledger, by rw [Dropped, if_pos isTarget]⟩
  cases finished : terminalStatus (world.player.status id.index) with
  | true =>
    rw [if_pos (.inr (.inr rfl))]
    refine ⟨Sweep.refl consistent _, ledger, ?_⟩
    rw [Dropped, if_neg isTarget]
    refine ⟨?_, fun same => same⟩
    rw [← Bool.not_eq_true]
    intro active
    rw [terminalStatus_of_isActive active] at finished
    cases finished
  | false =>
    rw [if_neg (by simpa [isTarget] using inside)]
    dsimp only
    split
    · obtain ⟨sweep, kept, skipped⟩ := skip_unfinished built live consistent ledger finished now
      refine ⟨sweep, kept, ?_⟩
      rw [skipped, Dropped, if_neg isTarget]
      exact ⟨rfl, fun _ => started⟩
    rename_i isClosed
    have agrees := consistent id live
    have unentered : (world.player.runs id.index).entered = false := by
      revert agrees finished
      cases world.player.status id.index with
      | pending | ready => exact fun _ agrees => agrees
      | running => exact fun _ agrees => absurd agrees isClosed
      | succeeded | failed | skipped => intro impossible; cases impossible
    have agreesPending : Agrees .pending (world.player.runs id.index) := unentered
    obtain ⟨sweep, isPending⟩ := sweep_setStatus built live consistent finished agreesPending
    refine ⟨sweep, ledger.mapPlayer (Player.sameRuns_setStatus _), ?_⟩
    rw [isPending, Dropped, if_neg isTarget]
    exact ⟨rfl, fun impossible => absurd rfl impossible⟩

/-- The world after both loops of a jump. -/
structure Cleared (sequence : Sequence) (target : StepId) (before after : World ρ) :
    Prop where
  consistent : after.player.Consistent sequence
  keeps : Player.Keeps before.player after.player
  state : after.player.state = before.player.state
  targetStatus : after.player.status target.index = before.player.status target.index
  ancestors : ∀ ancestor, sequence.Ancestor ancestor target →
    terminalStatus (after.player.status ancestor.index) = true
  inactive : ∀ id, sequence.Live id → id ≠ target →
    StepStatus.isActive (after.player.status id.index) = false
  started : ∀ id, sequence.Live id → ¬sequence.Ancestor id target →
    after.player.status id.index ≠ .pending → before.player.status id.index ≠ .pending

theorem cleared_of_loops (balanced : Balanced sequence runner start world)
    (targetLive : sequence.Live target) (now : TimePoint) :
    let skipped := (sequence.ancestorsOf target).foldl (skipAncestor sequence runner now) world
    let dropped := skipped.player.frontier.foldl (dropMember sequence runner target now) skipped
    Cleared sequence target world dropped ∧ Ledger sequence runner start none dropped := by
  intro skipped dropped
  have sound := balanced.sound
  have ancestorMem : ∀ id, id ∈ sequence.ancestorsOf target ↔ sequence.Ancestor id target :=
    fun _ => built.mem_ancestorsOf_iff
  obtain ⟨skipSweep, skipLedger, skipTerminal⟩ := sweep_foldl
    (skipAncestor sequence runner now) (fun _ _ => True)
    (fun _ _ after => terminalStatus after = true)
    (fun id member => built.ancestor_live ((ancestorMem id).mp member))
    (Sequence.Built.ancestorsOf_nodup target)
    (fun world id member consistent ledger _ => skipAncestor_single built now world id
      (built.ancestor_live ((ancestorMem id).mp member)) consistent ledger)
    sound.consistent balanced.ledger (fun _ _ => trivial)
  have skipFrontier : skipped.player.frontier = world.player.frontier := skipSweep.frontier
  have frontierLive : ∀ id ∈ skipped.player.frontier, sequence.Live id := by
    intro id member
    rw [skipFrontier] at member
    exact ((sound.frontier.mem_iff id).mp member).1
  have skipStatus : ∀ id, sequence.Live id → ¬sequence.Ancestor id target →
      skipped.player.status id.index = world.player.status id.index :=
    fun id live notAncestor =>
      (skipSweep.outside id live fun member => notAncestor ((ancestorMem id).mp member)).1
  -- a frontier member is either an ancestor, skipped by now, or as active as it was
  have frontierStarted : ∀ id ∈ skipped.player.frontier,
      skipped.player.status id.index ≠ .pending := by
    intro id member pending
    by_cases isAncestor : sequence.Ancestor id target
    · have terminal : terminalStatus (skipped.player.status id.index) = true :=
        skipTerminal id ((ancestorMem id).mpr isAncestor)
      rw [pending] at terminal
      cases terminal
    rw [skipFrontier] at member
    have active := ((sound.frontier.mem_iff id).mp member).2
    rw [← skipStatus id (frontierLive id (skipFrontier ▸ member)) isAncestor, pending] at active
    cases active
  obtain ⟨dropSweep, dropLedger, dropPost⟩ := sweep_foldl
    (dropMember sequence runner target now) (fun _ status => status ≠ .pending)
    (Dropped target) frontierLive (by rw [skipFrontier]; exact sound.frontier.nodup)
    (fun world id member consistent ledger started => dropMember_single built target now
      world id (frontierLive id member) consistent ledger started)
    skipSweep.consistent skipLedger frontierStarted
  have keeps : Player.Keeps world.player dropped.player := skipSweep.keeps.trans dropSweep.keeps
  have notSelf : ¬sequence.Ancestor target target := built.acyclic target
  have ancestorsDone : ∀ ancestor, sequence.Ancestor ancestor target →
      terminalStatus (dropped.player.status ancestor.index) = true :=
    fun ancestor isAncestor =>
      dropSweep.keeps.terminal (skipTerminal ancestor ((ancestorMem ancestor).mpr isAncestor))
  have outsideStatus : ∀ id, sequence.Live id → id ∉ world.player.frontier →
      dropped.player.status id.index = skipped.player.status id.index :=
    fun id live absent => (dropSweep.outside id live (skipFrontier ▸ absent)).1
  refine ⟨⟨dropSweep.consistent, keeps, dropSweep.state.trans skipSweep.state, ?_,
    ancestorsDone, ?_, ?_⟩, dropLedger⟩
  · rw [← skipStatus target targetLive notSelf]
    by_cases member : target ∈ skipped.player.frontier
    · have post := dropPost target member
      rw [Dropped, if_pos rfl] at post
      exact post
    · exact (dropSweep.outside target targetLive member).1
  · intro id live different
    by_cases member : id ∈ world.player.frontier
    · have post := dropPost id (skipFrontier ▸ member)
      rw [Dropped, if_neg different] at post
      exact post.1
    by_cases isAncestor : sequence.Ancestor id target
    · rw [← Bool.not_eq_true]
      intro active
      have terminal := ancestorsDone id isAncestor
      rw [terminalStatus_of_isActive active] at terminal
      cases terminal
    · rw [outsideStatus id live member, skipStatus id live isAncestor, ← Bool.not_eq_true]
      exact fun active => member ((sound.frontier.mem_iff id).mpr ⟨live, active⟩)
  · intro id live notAncestor started
    rw [← skipStatus id live notAncestor]
    by_cases member : id ∈ world.player.frontier
    · have inSkipped : id ∈ skipped.player.frontier := skipFrontier ▸ member
      exact frontierStarted id inSkipped
    · rw [← outsideStatus id live member]
      exact started

/-- A player whose only active step is the target of a jump. -/
theorem Cleared.sound (beforeSound : before.player.Sound sequence) (live : sequence.Live target)
    (unfinished : terminalStatus (before.player.status target.index) = false)
    (cleared : Cleared sequence target before world) (same : Player.SameRuns world.player player)
    (others : ∀ id, sequence.Live id → id ≠ target →
      player.status id.index = world.player.status id.index)
    (agrees : Agrees (player.status target.index) (player.runs target.index))
    (active : StepStatus.isActive (player.status target.index) = true)
    (frontierEq : player.frontier = [target]) : player.Sound sequence := by
  refine ⟨?_, ⟨?_, ?_⟩, ?_⟩
  · intro id idLive
    by_cases isTarget : id = target
    · subst id
      exact agrees
    · rw [others id idLive isTarget]
      exact same.agrees (cleared.consistent id idLive)
  · rw [frontierEq]
    exact nodup_singleton target
  · intro id
    rw [frontierEq, mem_singleton]
    constructor
    · rintro rfl
      exact ⟨live, active⟩
    rintro ⟨idLive, idActive⟩
    by_contra isOther
    rw [others id idLive isOther, cleared.inactive id idLive isOther] at idActive
    cases idActive
  · intro id idLive started ancestor isAncestor
    have ancestorLive := built.ancestor_live isAncestor
    have finished : ancestor ≠ target ∧
        terminalStatus (world.player.status ancestor.index) = true := by
      by_cases onTheWay : id = target ∨ sequence.Ancestor id target
      · have aboveTarget : sequence.Ancestor ancestor target := by
          rcases onTheWay with rfl | between
          · exact isAncestor
          · exact isAncestor.trans between
        refine ⟨?_, cleared.ancestors ancestor aboveTarget⟩
        rintro rfl
        exact built.acyclic _ aboveTarget
      · rw [not_or] at onTheWay
        rw [others id idLive onTheWay.1] at started
        have startedBefore := cleared.started id idLive onTheWay.2 started
        have terminalBefore := beforeSound.closed id idLive startedBefore ancestor isAncestor
        refine ⟨?_, cleared.keeps.terminal terminalBefore⟩
        rintro rfl
        rw [unfinished] at terminalBefore
        cases terminalBefore
    rw [others ancestor ancestorLive finished.1]
    exact finished.2

/-- The target takes the place of the whole frontier. -/
theorem sound_placeTarget (sound : before.player.Sound sequence) (member : step ∈ sequence.steps)
    (unfinished : terminalStatus (before.player.status step.id.index) = false)
    (cleared : Cleared sequence step.id before world) (now : TimePoint) :
    (placeTarget sequence world.player step now).Sound sequence ∧
      Player.Bookkeeping world.player (placeTarget sequence world.player step now) := by
  have live := sequence.live_of_mem member
  have unfinishedNow : terminalStatus (world.player.status step.id.index) = false := by
    rw [cleared.targetStatus]
    exact unfinished
  have agrees := cleared.consistent step.id live
  rw [placeTarget]
  split
  · rename_i notRunning
    generalize playerEq : ({ world.player with frontier := [] } : Player) = emptied
    have statusEq : emptied.status = world.player.status := by rw [← playerEq]
    have emptiedRuns : Player.SameRuns world.player emptied := by
      rw [← playerEq]
      exact Player.SameRuns.of_eq rfl rfl
    have step1 : Player.Bookkeeping emptied _ := Player.bookkeeping_activate built live
      (by rw [statusEq]; exact unfinishedNow) (now + graceBefore step sequence.pacing)
    have bookkeeping : Player.Bookkeeping world.player _ :=
      Player.Bookkeeping.trans ⟨emptiedRuns, fun _ _ => by rw [statusEq], by rw [← playerEq]⟩ step1
    have unentered : (world.player.runs step.id.index).entered = false := by
      revert agrees unfinishedNow
      cases statusIs : world.player.status step.id.index with
      | pending | ready => exact fun _ agrees => agrees
      | running => exact absurd statusIs notRunning
      | succeeded | failed | skipped => intro impossible; cases impossible
    refine ⟨cleared.sound built sound live unfinished bookkeeping.runs ?_ ?_ ?_ ?_, bookkeeping⟩
    · intro id idLive isOther
      rw [Player.status_admitToFrontier, Player.status_setStatus (built.live_lt live),
        Player.status_update_other built live idLive isOther, statusEq]
    · rw [Player.status_admitToFrontier, Player.status_setStatus (built.live_lt live),
        Function.update_self]
      exact (bookkeeping.runs.entered step.id.index).trans unentered
    · rw [Player.status_admitToFrontier, Player.status_setStatus (built.live_lt live),
        Function.update_self]
      rfl
    · rw [Player.frontier_admitToFrontier, Player.frontier_setStatus, ← playerEq]
      rfl
  · rename_i running
    rw [not_not] at running
    have same : Player.SameRuns world.player
        (({ world.player with frontier := [] } : Player).admitToFrontier sequence step.id
          (world.player.runs step.id.index).readyAt) := by
      have emptied : Player.SameRuns world.player { world.player with frontier := [] } :=
        Player.SameRuns.of_eq rfl rfl
      exact emptied.trans (Player.sameRuns_admitToFrontier _)
    refine ⟨cleared.sound built sound live unfinished same ?_ ?_ ?_ ?_, same, ?_, ?_⟩
    · intro id _ _
      rw [Player.status_admitToFrontier]
    · rw [Player.status_admitToFrontier]
      exact same.agrees agrees
    · rw [Player.status_admitToFrontier, running]
      rfl
    · rw [Player.frontier_admitToFrontier]
      rfl
    · intro index _
      rw [Player.status_admitToFrontier]
    · rw [Player.state_admitToFrontier]

/-- A jump, whether it goes ahead or not. -/
theorem jumpTo_spec (balanced : Balanced sequence runner start world) (target : StepId) :
    Balanced sequence runner start (world.jumpTo sequence runner target).2 ∧
      Player.Keeps world.player (world.jumpTo sequence runner target).2.player ∧
      (world.jumpTo sequence runner target).2.player.state = world.player.state ∧
      ∀ refused, (world.jumpTo sequence runner target).1 = some refused →
        (world.jumpTo sequence runner target).2 =
          { world with trace := world.trace ++ [.jump target (some refused)] } := by
  unfold jumpTo
  split
  · rename_i refused isRefused
    have lawful := jumpCheck_error built balanced.sound isRefused
    refine ⟨⟨balanced.ledger.jump target lawful, balanced.sound⟩, Player.Keeps.refl _, rfl, ?_⟩
    rintro _ ⟨⟩
    rfl
  rename_i step accepted
  obtain ⟨found, unfinished⟩ := jumpCheck_ok built accepted
  obtain ⟨member, rfl⟩ := Sequence.Built.mem_of_find found
  have announced : Balanced sequence runner start
      { world with trace := world.trace ++ [.jump step.id none] } :=
    ⟨balanced.ledger.jump step.id trivial, balanced.sound⟩
  obtain ⟨cleared, ledger⟩ := cleared_of_loops built announced ⟨step, member, rfl⟩
    world.player.lastNow
  obtain ⟨sound, bookkeeping⟩ := sound_placeTarget built balanced.sound member unfinished
    ⟨cleared.consistent, cleared.keeps, cleared.state, cleared.targetStatus,
      cleared.ancestors, cleared.inactive, cleared.started⟩ world.player.lastNow
  refine ⟨⟨ledger.bookkeeping bookkeeping.runs, sound⟩,
    cleared.keeps.trans bookkeeping.keeps, bookkeeping.state.trans cleared.state, ?_⟩
  intro refused impossible
  cases impossible

end World

end

end Grab.Kernel
