import Grab.Sequence.Player.Run

/-!
# What a jump touches

A refused jump leaves the player and the runner alone.  One that goes ahead puts its target in
the place of the frontier and gives a new status to nothing but the frontier it found, the
ancestors of the target and the target.
-/

namespace Grab.Kernel

open Grab.Sequence Grab.Lib List

/-- Calls on the runner, as opposed to jumps, which are the player's own. -/
def Event.isRequest : Event → Bool
  | .jump _ _ => false
  | _ => true

section

variable {ρ : Type}

/-- A call that jumps, or tries to. -/
structure GotoExact (sequence : Sequence) (world : World ρ) (target : StepId)
    (outcome : Except Error Unit × World ρ) : Prop where
  refused : ∀ error, outcome.1 = .error error →
    outcome.2.player = world.player ∧ outcome.2.runner = world.runner ∧
      outcome.2.trace.filter Event.isRequest = world.trace.filter Event.isRequest
  frontier : outcome.1 = .ok () → outcome.2.player.frontier = [target]
  ancestors : outcome.1 = .ok () → ∀ ancestor, sequence.Ancestor ancestor target →
    terminalStatus (outcome.2.player.status ancestor.index) = true
  changed : outcome.1 = .ok () → ∀ id, sequence.Live id →
    outcome.2.player.status id.index ≠ world.player.status id.index →
    id ∈ world.player.frontier ∨ sequence.Ancestor id target ∨ id = target

variable {sequence : Sequence} {runner : CommandRunner ρ} {start : ρ} {world : World ρ}

namespace World

/-- The frontier stays, and so does every status but that of one step. -/
structure Touches (id : StepId) (before after : World ρ) : Prop where
  frontier : after.player.frontier = before.player.frontier
  status : ∀ index, index ≠ id.index → after.player.status index = before.player.status index

theorem setStatus_elsewhere (player : Player) (id : StepId) (next : StepStatus) {index : Nat}
    (different : index ≠ id.index) :
    (player.setStatus sequence id next).status index = player.status index := by
  rw [Player.setStatus]
  split
  · rfl
  · exact Function.update_of_ne different _ _

theorem touches_setStatus (world : World ρ) (id : StepId) (next : StepStatus) :
    Touches id world (world.mapPlayer fun player => player.setStatus sequence id next) where
  frontier := Player.frontier_setStatus next
  status _ different := setStatus_elsewhere world.player id next different

variable {id : StepId} (built : sequence.Built)

include built

/-- A step is exited if need be, and skipped. -/
theorem touches_skipped (live : sequence.Live id) (now : TimePoint) :
    Touches id world
      ((world.exitIfEntered sequence runner id now).markSkipped sequence id now) := by
  have exited : (world.exitIfEntered sequence runner id now).player.frontier =
        world.player.frontier ∧
      (world.exitIfEntered sequence runner id now).player.status = world.player.status := by
    cases isOpen : world.player.isOpen id with
    | false =>
      rw [exitIfEntered_closed isOpen]
      exact ⟨rfl, rfl⟩
    | true =>
      have exits := exits_exitIfEntered runner built live isOpen now
      exact ⟨exits.frontier, exits.status⟩
  constructor
  case frontier => exact (Player.frontier_setStatus .skipped).trans exited.1
  case status =>
    intro index different
    rw [← exited.2]
    exact setStatus_elsewhere _ id .skipped different

theorem touches_skipAncestor (now : TimePoint) (live : sequence.Live id) :
    Touches id world (skipAncestor sequence runner now world id) := by
  rw [skipAncestor]
  split
  · exact ⟨rfl, fun _ _ => rfl⟩
  · exact touches_skipped built live now

theorem touches_dropMember (target : StepId) (now : TimePoint) (live : sequence.Live id) :
    Touches id world (dropMember sequence runner target now world id) := by
  rw [dropMember]
  split
  · exact ⟨rfl, fun _ _ => rfl⟩
  dsimp only
  split
  · exact touches_skipped built live now
  · exact touches_setStatus world id .pending

omit built

/-- A loop over steps touches no other step. -/
theorem touches_foldl {turn : World ρ → StepId → World ρ} {ids : List StepId}
    (single : ∀ world, ∀ id ∈ ids, Touches id world (turn world id)) :
    (ids.foldl turn world).player.frontier = world.player.frontier ∧
      ∀ index, (∀ id ∈ ids, index ≠ id.index) →
        (ids.foldl turn world).player.status index = world.player.status index := by
  induction ids generalizing world with
  | nil => exact ⟨rfl, fun _ _ => rfl⟩
  | cons id rest ih =>
    have first := single world id mem_cons_self
    rcases @ih (turn world id) fun world other member =>
      single world other (mem_cons_of_mem _ member) with ⟨frontierEq, statusEq⟩
    constructor
    · exact frontierEq.trans first.frontier
    intro index apart
    rw [foldl_cons, statusEq index fun other member =>
      apart other (mem_cons_of_mem _ member)]
    exact first.status index (apart id mem_cons_self)

theorem placeTarget_touches (player : Player) (step : Step) (now : TimePoint) :
    (placeTarget sequence player step now).frontier = [step.id] ∧
      ∀ index, index ≠ step.id.index →
        (placeTarget sequence player step now).status index = player.status index := by
  rw [placeTarget]
  split
  · rw [Player.frontier_admitToFrontier, Player.status_admitToFrontier, Player.frontier_setStatus]
    exact ⟨rfl, fun _ different => setStatus_elsewhere _ step.id .ready different⟩
  · rw [Player.frontier_admitToFrontier, Player.status_admitToFrontier]
    exact ⟨rfl, fun _ _ => rfl⟩

/-- A jump that goes ahead. -/
theorem jumpTo_touches (built : sequence.Built) (balanced : Balanced sequence runner start world)
    {target : StepId} (accepted : (world.jumpTo sequence runner target).1 = none) :
    (world.jumpTo sequence runner target).2.player.frontier = [target] ∧
      ∀ id, sequence.Live id →
        (world.jumpTo sequence runner target).2.player.status id.index ≠
          world.player.status id.index →
        id ∈ world.player.frontier ∨ sequence.Ancestor id target ∨ id = target := by
  unfold jumpTo at accepted ⊢
  split at accepted
  · cases accepted
  rename_i step checked
  rcases jumpCheck_ok built checked with ⟨found, _⟩
  rcases Sequence.Built.mem_of_find found with ⟨member, rfl⟩
  have ancestorMem : ∀ id, id ∈ sequence.ancestorsOf step.id ↔ sequence.Ancestor id step.id :=
    fun _ => built.mem_ancestorsOf_iff
  dsimp only
  generalize announcedEq : ({ world with trace := world.trace ++ [.jump step.id none] } :
    World ρ) = announced
  have playerEq : announced.player = world.player := by rw [← announcedEq]
  rcases @touches_foldl ρ announced (skipAncestor sequence runner world.player.lastNow)
    (sequence.ancestorsOf step.id) fun _ id inList => touches_skipAncestor built _
      (built.ancestor_live ((ancestorMem id).mp inList)) with ⟨skipFrontier, skipStatus⟩
  generalize (sequence.ancestorsOf step.id).foldl _ announced = skipped at skipFrontier skipStatus ⊢
  have frontierLive : ∀ id ∈ skipped.player.frontier, sequence.Live id := by
    intro id inFrontier
    rw [skipFrontier, playerEq] at inFrontier
    exact ((balanced.sound.frontier.mem_iff id).mp inFrontier).1
  rcases @touches_foldl ρ skipped (dropMember sequence runner step.id world.player.lastNow)
    skipped.player.frontier fun _ id inFrontier => touches_dropMember built _ _
      (frontierLive id inFrontier) with ⟨_, dropStatus⟩
  generalize skipped.player.frontier.foldl _ skipped = dropped at dropStatus ⊢
  rcases @placeTarget_touches sequence dropped.player step world.player.lastNow with
    ⟨placedFrontier, placedStatus⟩
  refine ⟨placedFrontier, ?_⟩
  intro id live differs
  by_contra elsewhere
  simp only [not_or] at elsewhere
  rcases elsewhere with ⟨offFrontier, notAncestor, notTarget⟩
  have apart : ∀ other, sequence.Live other → other ≠ id → id.index ≠ other.index :=
    fun other otherLive different same => different (built.live_eq otherLive live same.symm)
  have dropApart : ∀ other ∈ skipped.player.frontier, id.index ≠ other.index := by
    intro other inFrontier
    apply apart other (frontierLive other inFrontier)
    rintro rfl
    rw [skipFrontier, playerEq] at inFrontier
    exact offFrontier inFrontier
  have skipApart : ∀ other ∈ sequence.ancestorsOf step.id, id.index ≠ other.index := by
    intro other inList
    have isAncestor := (ancestorMem other).mp inList
    apply apart other (built.ancestor_live isAncestor)
    rintro rfl
    exact notAncestor isAncestor
  apply differs
  rw [mapPlayer, placedStatus id.index (apart step.id ⟨step, member, rfl⟩ (Ne.symm notTarget)),
    dropStatus id.index dropApart, skipStatus id.index skipApart, playerEq]

theorem gotoStep_exact (built : sequence.Built) (sound : RunSound sequence runner start world)
    (target : StepId) :
    GotoExact sequence world target (world.gotoStep sequence runner target) := by
  rw [gotoStep]
  split
  · constructor
    case refused => exact fun _ _ => ⟨rfl, rfl, rfl⟩
    case frontier => intro impossible; cases impossible
    case ancestors => intro impossible; cases impossible
    case changed => intro impossible; cases impossible
  rcases jumpTo_spec built sound.balanced target with ⟨balanced, _, _, refusal⟩
  dsimp only
  split
  · rename_i accepted
    rcases jumpTo_touches built sound.balanced accepted with ⟨frontierEq, changed⟩
    constructor
    case refused => intro _ impossible; cases impossible
    case frontier => exact fun _ => frontierEq
    case ancestors =>
      intro _ ancestor isAncestor
      have active := (balanced.sound.frontier.mem_iff target).mp (by simp [frontierEq])
      apply balanced.sound.closed target active.1 _ ancestor isAncestor
      intro pending
      rw [pending] at active
      cases active.2
    case changed => exact fun _ => changed
  · rename_i refused isRefused
    rw [refusal refused isRefused]
    constructor
    case refused =>
      intro _ _
      simp [Event.isRequest]
    case frontier => intro impossible; cases impossible
    case ancestors => intro impossible; cases impossible
    case changed => intro impossible; cases impossible

end World

end

section

variable {ρ : Type} {sequence : Sequence} {steps : List Step} {pacing : PacingOptions}
  {name : String}

/-- Jumps are atomic and forward-only, in every state a run can reach; a label that names no
step is refused without a change. -/
theorem goto_atomic (accepted : Sequence.build steps pacing name = .ok sequence)
    (runner : CommandRunner ρ) (state : ρ) (controls : List Control) :
    let world := (World.initial state).run sequence runner controls
    (∀ target, GotoExact sequence world target (world.gotoStep sequence runner target)) ∧
      ∀ label,
        (∀ target, sequence.resolveLabel label = some target →
          GotoExact sequence world target (world.gotoLabel sequence runner label)) ∧
        (sequence.resolveLabel label = none →
          (∃ error, (world.gotoLabel sequence runner label).1 = .error error) ∧
            (world.gotoLabel sequence runner label).2 = world) := by
  intro world
  have sound : RunSound sequence runner state world := World.reachable_sound accepted state controls
  have exact_ := World.gotoStep_exact (Sequence.built_of_build accepted) sound
  refine ⟨exact_, fun label => ⟨fun target resolved => ?_, fun unresolved => ?_⟩⟩
  · rw [World.gotoLabel, resolved]
    exact exact_ target
  · rw [World.gotoLabel, unresolved]
    exact ⟨⟨_, rfl⟩, rfl⟩

/-- A jump over the first of two waits, while it runs. -/
theorem goto_atomic_twoWaits : ∃ sequence,
    Sequence.build twoWaits {} "waits" = .ok sequence ∧
      let world := (World.initial 0).run sequence countingRunner [.play, .pump 0]
      GotoExact sequence world (StepId.ofIndex 1)
        (world.gotoStep sequence countingRunner (StepId.ofIndex 1)) := by
  rcases build_twoWaits with ⟨sequence, accepted⟩
  exact ⟨sequence, accepted, (goto_atomic accepted countingRunner 0 _).1 (StepId.ofIndex 1)⟩

end

end Grab.Kernel
