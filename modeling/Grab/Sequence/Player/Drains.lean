import Grab.Sequence.Player.Complete

/-!
# Pumps that drain

A pass that makes progress uses up what its steps may still be answered, or enters the steps that
are due.  A pump therefore stops because nothing moves any more, and never because of its limit.
-/

namespace Grab.Kernel

open Grab.Sequence Grab.Lib List

namespace Player

/-- What a step may still be answered: its end, and the retries before it. -/
def chances (player : Player) (index : Nat) : Nat :=
  if terminalStatus (player.status index) = true then 0
  else if (player.runs index).entered = true then
    maxRetriesPerStep + 1 - (player.runs index).retries
  else maxRetriesPerStep + 1

def chancesLeft (sequence : Sequence) (player : Player) : Nat :=
  (sequence.steps.map fun step => player.chances step.id.index).sum

/-- Ready, and due. -/
def IsDue (now : TimePoint) (player : Player) (step : Step) : Prop :=
  player.status step.id.index = .ready ∧ (player.runs step.id.index).readyAt ≤ now

instance (now : TimePoint) (player : Player) (step : Step) :
    Decidable (player.IsDue now step) :=
  inferInstanceAs (Decidable (_ ∧ _))

/-- The chances of the steps, and one pass more where steps are due. -/
def potential (sequence : Sequence) (now : TimePoint) (player : Player) : Nat :=
  player.chancesLeft sequence +
    if player.state = .playing ∧ ∃ step ∈ sequence.steps, player.IsDue now step then 1 else 0

section

variable {sequence : Sequence} {before after : Player} {now : TimePoint}

theorem chances_le (player : Player) (index : Nat) :
    player.chances index ≤ maxRetriesPerStep + 1 := by
  rw [chances]
  split
  · exact Nat.zero_le _
  · split
    · exact Nat.sub_le _ _
    · exact Nat.le_refl _

theorem chances_of_terminal {player : Player} {index : Nat}
    (terminal : terminalStatus (player.status index) = true) : player.chances index = 0 :=
  if_pos terminal

theorem chancesLeft_le (less : ∀ index, after.chances index ≤ before.chances index) :
    after.chancesLeft sequence ≤ before.chancesLeft sequence :=
  sum_le_sum fun step _ => less step.id.index

/-- What one step lost is lost to all of them. -/
theorem chancesLeft_add_le {step : Step} (member : step ∈ sequence.steps) {lost : Nat}
    (less : ∀ index, after.chances index ≤ before.chances index)
    (gap : after.chances step.id.index + lost ≤ before.chances step.id.index) :
    after.chancesLeft sequence + lost ≤ before.chancesLeft sequence := by
  rcases append_of_mem member with ⟨front, back, stepsEq⟩
  have inFront : (front.map fun step => after.chances step.id.index).sum ≤
      (front.map fun step => before.chances step.id.index).sum :=
    sum_le_sum fun step _ => less step.id.index
  have inBack : (back.map fun step => after.chances step.id.index).sum ≤
      (back.map fun step => before.chances step.id.index).sum :=
    sum_le_sum fun step _ => less step.id.index
  rw [chancesLeft, chancesLeft, stepsEq]
  simp only [map_append, map_cons, sum_append, sum_cons]
  omega

theorem chancesLeft_bound (player : Player) :
    player.chancesLeft sequence ≤ 2 * sequence.steps.length := by
  rw [chancesLeft]
  induction sequence.steps with
  | nil => exact Nat.le_refl _
  | cons step rest bound =>
    have here := player.chances_le step.id.index
    have one : maxRetriesPerStep = 1 := rfl
    rw [map_cons, sum_cons, length_cons]
    omega

theorem potential_lt (player : Player) :
    player.potential sequence now < 2 * sequence.steps.length + 2 := by
  have bound := @chancesLeft_bound sequence player
  rw [potential]
  split <;> omega

end

end Player

section

variable {ρ : Type} {sequence : Sequence} {runner : CommandRunner ρ} {start : ρ} {now : TimePoint}
  {world before after : World ρ}

theorem Follows.chances_le (follows : Follows sequence now before after) (index : Nat) :
    after.player.chances index ≤ before.player.chances index := by
  cases terminal : terminalStatus (before.player.status index) with
  | true =>
    rw [Player.chances_of_terminal (follows.frozen index terminal).1]
    exact Nat.zero_le _
  | false =>
    have retries := follows.retries index
    rw [Player.chances, Player.chances, follows.entered index, terminal]
    split
    · exact Nat.zero_le _
    · split
      · exact Nat.sub_le_sub_left retries _
      · exact Nat.le_refl _

namespace World

/-! ## Answers -/

variable (built : sequence.Built) {step : Step} {ids : List StepId}

include built

/-- An answer other than that it still runs ends a step, or uses up its retry. -/
theorem onStatus_chances (member : step ∈ sequence.steps) {answer : Status}
    (answered : Answered sequence runner start step.id answer world)
    (timed : world.player.lastNow = now) (isAnswer : answer ≠ .running) :
    (∀ index, (world.onStatus sequence runner step.id answer now).player.chances index ≤
        world.player.chances index) ∧
      ((world.onStatus sequence runner step.id answer now).player.chances step.id.index = 0 ∨
        (world.onStatus sequence runner step.id answer now).player.chances step.id.index + 1 ≤
            world.player.chances step.id.index ∧
          ∀ other, (world.onStatus sequence runner step.id answer now).player.IsDue now other →
            world.player.IsDue now other) := by
  have isEntered : (world.player.runs step.id.index).entered = true := by
    have agrees := answered.sound.consistent step.id ⟨step, member, rfl⟩
    rw [answered.running] at agrees
    exact agrees.1
  refine (onStatus_follows built member answered timed (fun second middle =>
      (∀ index, middle.player.chances index ≤ world.player.chances index) ∧
      (second = .running → middle.player.chances step.id.index + 1 ≤
          world.player.chances step.id.index ∧
        ∀ other, middle.player.IsDue now other → world.player.IsDue now other))
    (fun after => (∀ index, after.player.chances index ≤ world.player.chances index) ∧
      (after.player.chances step.id.index = 0 ∨
        after.player.chances step.id.index + 1 ≤ world.player.chances step.id.index ∧
          ∀ other, after.player.IsDue now other → world.player.IsDue now other)) ?_ ?_ ?_
    ⟨fun _ => Nat.le_refl _, fun impossible => absurd impossible isAnswer⟩).1
  · exact fun reached => ⟨reached.1, .inr (reached.2 rfl)⟩
  · exact fun reached _ follows terminal =>
      ⟨fun index => (follows.chances_le index).trans (reached.1 index),
        .inl (Player.chances_of_terminal terminal)⟩
  intro mayStill
  rcases @reenter_player ρ sequence runner world step now with ⟨_, playerEq⟩
  generalize world.reenter sequence runner step now = again at playerEq ⊢
  have elsewhere : ∀ index, index ≠ step.id.index →
      again.2.player.chances index = world.player.chances index := by
    intro index different
    simp [playerEq, Player.chances, different]
  have here : again.2.player.chances step.id.index + 1 ≤ world.player.chances step.id.index := by
    simp [playerEq, Player.chances, answered.running, terminalStatus, isEntered]
    omega
  refine ⟨fun index => ?_, fun _ => ⟨here, fun other isDue => ?_⟩⟩
  · by_cases isStep : index = step.id.index
    · rw [isStep]
      exact Nat.le_of_succ_le here
    · exact (elsewhere index isStep).le
  rw [playerEq] at isDue
  refine ⟨isDue.1, ?_⟩
  have dueAt := isDue.2
  by_cases isStep : other.id.index = step.id.index
  · simpa [isStep] using dueAt
  · simpa [isStep] using dueAt

omit built in
theorem running_chances (balanced : Balanced sequence runner start world)
    (member : step ∈ sequence.steps) (running : world.player.status step.id.index = .running) :
    1 ≤ world.player.chances step.id.index := by
  have live := sequence.live_of_mem member
  have bounded := balanced.ledger.bounded step.id live
  have one : maxRetriesPerStep = 1 := rfl
  rw [Player.chances, if_neg (by rw [running]; decide)]
  split <;> omega

/-! ## One step -/

/-- Ticks are at the time of the pump. -/
theorem pumpRule_timed :
    PumpRule sequence runner start now fun world => world.player.lastNow = now where
  tick balanced _ member running timed :=
    (onStatus_grows built member (tick_answered built balanced member running now) timed).2
  enter {world step} balanced _ member ready _ timed := by
    apply (onStatus_grows built member (enter_answered built balanced member ready now).1 _).2
    rw [enter_player world (built.live_lt ⟨step, member, rfl⟩)]
    exact timed

theorem tickOne_spends (balanced : Balanced sequence runner start world) {id : StepId}
    (live : sequence.Live id) (timed : world.player.lastNow = now) :
    (world.tickOne sequence runner now id).1 = false ∧
        (world.tickOne sequence runner now id).2.player = world.player ∨
      (world.tickOne sequence runner now id).1 = true ∧
        (world.tickOne sequence runner now id).2.player.chancesLeft sequence + 1 ≤
          world.player.chancesLeft sequence := by
  rcases built.find_of_live live with ⟨step, found, rfl, member⟩
  rw [tickOne]
  split
  · exact .inl ⟨rfl, rfl⟩
  rename_i candidate
  rw [not_or, not_not] at candidate
  rw [found]
  dsimp only
  have delivered : ∀ ticked : Bool × World ρ, ticked =
      (if (world.callTick runner step now).1 = .running then
        (false, (world.callTick runner step now).2)
      else
        (true, (world.callTick runner step now).2.onStatus sequence runner step.id
          (world.callTick runner step now).1 now)) →
      ticked.1 = false ∧ ticked.2.player = world.player ∨
        ticked.1 = true ∧ ticked.2.player.chancesLeft sequence + 1 ≤
          world.player.chancesLeft sequence := by
    rintro ticked rfl
    split
    · exact .inl ⟨rfl, rfl⟩
    rename_i isAnswer
    have answered := tick_answered built balanced member candidate.2 now
    rcases onStatus_chances built member answered timed isAnswer with ⟨less, spent⟩
    refine .inr ⟨rfl, Player.chancesLeft_add_le member less ?_⟩
    rcases spent with none | ⟨spent, _⟩
    · rw [none]
      exact running_chances balanced member candidate.2
    · exact spent
  split
  · split
    · exact .inl ⟨rfl, rfl⟩
    · exact delivered _ rfl
  · exact delivered _ rfl

/-- A step that is not due is left alone; one that is loses two chances, or else nothing becomes
due. -/
theorem enterOne_spends (balanced : Balanced sequence runner start world)
    (member : step ∈ sequence.steps) (timed : world.player.lastNow = now) :
    ((world.enterOne sequence runner now step.id).1 = false ∧ ¬world.player.IsDue now step) ∨
      (world.enterOne sequence runner now step.id).1 = true ∧ world.player.IsDue now step ∧
        ((world.enterOne sequence runner now step.id).2.player.chancesLeft sequence + 2 ≤
            world.player.chancesLeft sequence ∨
          (world.enterOne sequence runner now step.id).2.player.chancesLeft sequence ≤
              world.player.chancesLeft sequence ∧
            ∀ other ∈ sequence.steps,
              (world.enterOne sequence runner now step.id).2.player.IsDue now other →
                world.player.IsDue now other ∧ other ≠ step) := by
  have inside := built.live_lt ⟨step, member, rfl⟩
  rw [enterOne]
  split
  · rename_i notDue
    refine .inl ⟨rfl, fun isDue => ?_⟩
    rcases notDue with outside | notReady | early
    · exact absurd inside (Nat.not_lt.mpr outside)
    · exact notReady isDue.1
    · exact absurd isDue.2 (Int.not_le.mpr early)
  rename_i candidate
  rw [not_or, not_or, not_not, Int.not_lt] at candidate
  rw [built.find_of_mem member]
  dsimp only
  refine .inr ⟨rfl, candidate.2, ?_⟩
  have answered := (enter_answered built balanced member candidate.2.1 now).1
  have playerEq := @enter_player ρ sequence runner world step now inside
  generalize (world.markEntered sequence runner step now).callEnter runner step now =
    entered at answered playerEq ⊢
  rcases entered with ⟨answer, entered⟩
  dsimp only at answered playerEq ⊢
  have unentered : (world.player.runs step.id.index).entered = false := by
    have agrees := balanced.sound.consistent step.id ⟨step, member, rfl⟩
    rw [candidate.2.1] at agrees
    exact agrees
  have two : world.player.chances step.id.index = 2 := by
    simp [Player.chances, candidate.2.1, terminalStatus, unentered, maxRetriesPerStep]
  have less : ∀ index, entered.player.chances index ≤ world.player.chances index := by
    intro index
    by_cases here : index = step.id.index
    · rw [here, two]
      exact Player.chances_le _ _
    · simp [playerEq, Player.chances, here]
  have due : ∀ other ∈ sequence.steps, entered.player.IsDue now other →
      world.player.IsDue now other ∧ other ≠ step := by
    intro other _ isDue
    have apart : other.id.index ≠ step.id.index := by
      intro same
      have isReady := isDue.1
      rw [same, answered.running] at isReady
      cases isReady
    refine ⟨?_, fun same => apart (congrArg (fun step => step.id.index) same)⟩
    have isReady := isDue.1
    have dueAt := isDue.2
    simp only [playerEq, Function.update_of_ne apart] at isReady dueAt
    exact ⟨isReady, dueAt⟩
  by_cases isAnswer : answer = .running
  · subst isAnswer
    exact .inr ⟨Player.chancesLeft_le less, due⟩
  have enteredTimed : entered.player.lastNow = now := by
    rw [playerEq]
    exact timed
  rcases onStatus_chances built member answered enteredTimed isAnswer with ⟨later, spent⟩
  have total := fun index => (later index).trans (less index)
  rcases spent with none | ⟨_, stillDue⟩
  · refine .inl (Player.chancesLeft_add_le member total ?_)
    rw [none, two]
  · exact .inr ⟨Player.chancesLeft_le total,
      fun other otherIn isDue => due other otherIn (stillDue other isDue)⟩

/-! ## One pass -/

variable (live : ∀ id ∈ ids, sequence.Live id)

include live

theorem tickPass_spends (progressed : Bool) (balanced : Balanced sequence runner start world)
    (isLive : world.isLive = true) (timed : world.player.lastNow = now) :
    (tickPass sequence runner now ids progressed world).1 = progressed ∧
        (tickPass sequence runner now ids progressed world).2.player = world.player ∨
      (tickPass sequence runner now ids progressed world).1 = true ∧
        (tickPass sequence runner now ids progressed world).2.player.chancesLeft sequence + 1 ≤
          world.player.chancesLeft sequence := by
  induction ids generalizing world progressed with
  | nil => exact .inl ⟨rfl, rfl⟩
  | cons id rest later =>
    have here := live id mem_cons_self
    have still := ((pumpRule_timed built).turns built).tickOne built ⟨balanced, timed⟩ isLive here
    have spent := tickOne_spends built balanced here timed
    generalize tickedEq : world.tickOne sequence runner now id = ticked at *
    rw [tickPass, tickedEq]
    have restSpent : ∀ result : Bool × World ρ,
        (result.1 = (progressed || ticked.1) ∧ result.2.player = ticked.2.player ∨
          result.1 = true ∧ result.2.player.chancesLeft sequence + 1 ≤
            ticked.2.player.chancesLeft sequence) →
        result.1 = progressed ∧ result.2.player = world.player ∨
          result.1 = true ∧ result.2.player.chancesLeft sequence + 1 ≤
            world.player.chancesLeft sequence := by
      intro result onward
      rcases spent with ⟨idle, same⟩ | ⟨moved, gap⟩
      · rw [idle, Bool.or_false, same] at onward
        exact onward
      right
      rcases onward with ⟨flag, same⟩ | ⟨flag, more⟩
      · rw [flag, moved, Bool.or_true, same]
        exact ⟨rfl, gap⟩
      · exact ⟨flag, by omega⟩
    apply restSpent
    split
    · rename_i stillLive
      exact later (fun other inRest => live other (mem_cons_of_mem _ inRest)) _
        still.1 stillLive still.2
    · exact .inl ⟨rfl, rfl⟩

/-- What the entries of a pass leave due was due before, and is not among them, unless two chances
were used up. -/
theorem enterPass_spends (progressed : Bool) (balanced : Balanced sequence runner start world)
    (playing : world.player.state = .playing) (timed : world.player.lastNow = now) :
    enterPass sequence runner now ids progressed world = (progressed, world) ∧
        (∀ step ∈ sequence.steps, step.id ∈ ids → ¬world.player.IsDue now step) ∨
      (enterPass sequence runner now ids progressed world).1 = true ∧
        (∃ step ∈ sequence.steps, world.player.IsDue now step) ∧
        ((enterPass sequence runner now ids progressed world).2.player.chancesLeft sequence + 2 ≤
            world.player.chancesLeft sequence ∨
          (enterPass sequence runner now ids progressed world).2.player.chancesLeft sequence ≤
              world.player.chancesLeft sequence ∧
            ((enterPass sequence runner now ids progressed world).2.player.state = .playing →
              ∀ step ∈ sequence.steps,
                (enterPass sequence runner now ids progressed world).2.player.IsDue now step →
                  world.player.IsDue now step ∧ step.id ∉ ids)) := by
  induction ids generalizing world progressed with
  | nil => exact .inl ⟨rfl, fun _ _ impossible => absurd impossible not_mem_nil⟩
  | cons id rest later =>
    rcases live id mem_cons_self with ⟨step, member, rfl⟩
    have restLive : ∀ other ∈ rest, sequence.Live other :=
      fun other inRest => live other (mem_cons_of_mem _ inRest)
    have isStep : ∀ other ∈ sequence.steps, other.id = step.id → other = step :=
      fun other otherIn same => built.step_eq otherIn member (congrArg StepId.index same)
    have still := ((pumpRule_timed built).turns built).enterOne built ⟨balanced, timed⟩
      (isLive_iff.mpr (.inl playing)) ⟨step, member, rfl⟩
    rw [enterPass]
    rcases enterOne_spends built balanced member timed with
      ⟨idle, notDue⟩ | ⟨moved, isDue, spent⟩
    · rw [if_pos idle, enterOne_idle now idle]
      rcases later restLive progressed balanced playing timed with
        ⟨same, restNotDue⟩ | ⟨flag, someDue, restSpent⟩
      · refine .inl ⟨same, fun other otherIn inIds => ?_⟩
        rcases mem_cons.mp inIds with sameId | inRest
        · rw [isStep other otherIn sameId]
          exact notDue
        · exact restNotDue other otherIn inRest
      refine .inr ⟨flag, someDue, restSpent.imp_right fun kept => ⟨kept.1, ?_⟩⟩
      intro stillPlaying other otherIn otherDue
      rcases kept.2 stillPlaying other otherIn otherDue with ⟨wasDue, notInRest⟩
      refine ⟨wasDue, fun inIds => ?_⟩
      rcases mem_cons.mp inIds with sameId | inRest
      · rw [isStep other otherIn sameId] at wasDue
        exact notDue wasDue
      · exact notInRest inRest
    · generalize world.enterOne sequence runner now step.id = entered at *
      rw [if_neg (by rw [moved]; exact Bool.noConfusion)]
      right
      split
      · rename_i stillPlaying
        rcases later restLive true still.1 stillPlaying still.2 with
          ⟨same, restNotDue⟩ | ⟨flag, _, restSpent⟩
        · rw [same]
          refine ⟨rfl, ⟨step, member, isDue⟩, spent.imp_right fun kept => ⟨kept.1, ?_⟩⟩
          intro _ other otherIn otherDue
          rcases kept.2 other otherIn otherDue with ⟨wasDue, different⟩
          refine ⟨wasDue, fun inIds => ?_⟩
          rcases mem_cons.mp inIds with sameId | inRest
          · exact different (isStep other otherIn sameId)
          · exact restNotDue other otherIn inRest otherDue
        · refine ⟨flag, ⟨step, member, isDue⟩, ?_⟩
          rcases spent with gap | ⟨less, kept⟩
          · left
            rcases restSpent with more | ⟨more, _⟩
            · omega
            · omega
          rcases restSpent with more | ⟨more, restKept⟩
          · left
            omega
          refine .inr ⟨more.trans less, fun finallyPlaying other otherIn otherDue => ?_⟩
          rcases restKept finallyPlaying other otherIn otherDue with ⟨middleDue, notInRest⟩
          rcases kept other otherIn middleDue with ⟨wasDue, different⟩
          refine ⟨wasDue, fun inIds => ?_⟩
          rcases mem_cons.mp inIds with sameId | inRest
          · exact different (isStep other otherIn sameId)
          · exact notInRest inRest
      · rename_i stopped
        refine ⟨rfl, ⟨step, member, isDue⟩, spent.imp_right fun kept => ⟨kept.1, ?_⟩⟩
        exact fun impossible => absurd impossible stopped

/-! ## The loop -/

omit live

/-- A pass that makes progress lowers the potential, and one that makes none leaves nothing due. -/
theorem pumpOnce_spends (balanced : Balanced sequence runner start world)
    (isLive : world.isLive = true) (timed : world.player.lastNow = now) :
    ((world.pumpOnce sequence runner now).1 = true →
        (world.pumpOnce sequence runner now).2.isLive = true →
        (world.pumpOnce sequence runner now).2.player.potential sequence now <
          world.player.potential sequence now) ∧
      ((world.pumpOnce sequence runner now).1 = false →
        (world.pumpOnce sequence runner now).2.player.state = .playing →
        ∀ step ∈ sequence.steps,
          ¬(world.pumpOnce sequence runner now).2.player.IsDue now step) := by
  have still := ((pumpRule_timed built).turns built).tickPass built ⟨balanced, timed⟩ isLive
    (frontier_live balanced) false
  have ticks := tickPass_spends built (frontier_live balanced) false balanced isLive timed
  rw [pumpOnce]
  generalize tickPass sequence runner now world.player.frontier false world = ticked at *
  have before : world.player.chancesLeft sequence ≤ world.player.potential sequence now :=
    Nat.le_add_right _ _
  split
  · rename_i playing
    have onFrontier : ∀ step ∈ sequence.steps, ticked.2.player.IsDue now step →
        step.id ∈ ticked.2.player.frontier := by
      intro step member isDue
      apply (still.1.sound.frontier.mem_iff step.id).mpr
      refine ⟨⟨step, member, rfl⟩, ?_⟩
      rw [isDue.1]
      rfl
    have enters := enterPass_spends built (frontier_live still.1) ticked.1
      still.1 playing still.2
    generalize enterPass sequence runner now ticked.2.player.frontier ticked.1 ticked.2 =
      entered at *
    constructor
    case left =>
      intro progressed _
      rcases enters with ⟨same, nothingDue⟩ | ⟨_, someDue, gap | ⟨less, kept⟩⟩
      · -- Nothing was entered: a tick made the progress.
        rw [same] at progressed ⊢
        rcases ticks with ⟨idle, _⟩ | ⟨_, gap⟩
        · rw [idle] at progressed
          cases progressed
        have noneDue : ¬(ticked.2.player.state = .playing ∧
            ∃ step ∈ sequence.steps, ticked.2.player.IsDue now step) :=
          fun due => due.2.elim fun step isDue =>
            nothingDue step isDue.1 (onFrontier step isDue.1 isDue.2) isDue.2
        rw [Player.potential, if_neg noneDue]
        exact Nat.lt_of_lt_of_le gap before
      · have after : entered.2.player.potential sequence now ≤
            entered.2.player.chancesLeft sequence + 1 := by
          rw [Player.potential]
          split
          · exact Nat.le_refl _
          · exact Nat.le_succ _
        rcases ticks with ⟨_, same⟩ | ⟨_, spent⟩
        · rw [same] at gap
          omega
        · omega
      · -- Every step that was due was entered, and nothing new is due.
        have noneDue : ¬(entered.2.player.state = .playing ∧
            ∃ step ∈ sequence.steps, entered.2.player.IsDue now step) := by
          rintro ⟨stillPlaying, step, member, isDue⟩
          rcases kept stillPlaying step member isDue with ⟨wasDue, notOnFrontier⟩
          exact notOnFrontier (onFrontier step member wasDue)
        rw [Player.potential, if_neg noneDue]
        rcases ticks with ⟨_, same⟩ | ⟨_, spent⟩
        · rw [same] at less playing someDue
          rw [Player.potential, if_pos ⟨playing, someDue⟩]
          omega
        · omega
    case right =>
      intro idle _ step member isDue
      rcases enters with ⟨same, nothingDue⟩ | ⟨progressed, _⟩
      · rw [same] at isDue
        exact nothingDue step member (onFrontier step member isDue) isDue
      · rw [progressed] at idle
        cases idle
  · rename_i notPlaying
    constructor
    case left =>
      intro progressed _
      rcases ticks with ⟨idle, _⟩ | ⟨_, spent⟩
      · rw [idle] at progressed
        cases progressed
      · rw [Player.potential, if_neg fun due => notPlaying due.1]
        omega
    case right => exact fun _ playing => absurd playing notPlaying

end World

/-- The loop stops before its limit: a pass made no progress, or the run left the states that a
pump works in. -/
def Drains (sequence : Sequence) (runner : CommandRunner ρ) (now : TimePoint) : Nat → World ρ → Prop
  | 0, _ => False
  | limit + 1, world =>
    (world.pumpOnce sequence runner now).1 = true →
      (world.pumpOnce sequence runner now).2.isLive = true →
      Drains sequence runner now limit (world.pumpOnce sequence runner now).2

namespace World

theorem pumpLoop_drains (built : sequence.Built) (limit : Nat)
    (balanced : Balanced sequence runner start world) (isLive : world.isLive = true)
    (timed : world.player.lastNow = now) (small : world.player.potential sequence now < limit) :
    Drains sequence runner now limit world ∧
      ((world.pumpLoop sequence runner now limit).player.state = .playing →
        ∀ step ∈ sequence.steps,
          ¬(world.pumpLoop sequence runner now limit).player.IsDue now step) := by
  induction limit generalizing world with
  | zero => cases small
  | succ limit later =>
    have still := ((pumpRule_timed built).turns built).pumpOnce built ⟨balanced, timed⟩ isLive
    have spends := pumpOnce_spends built balanced isLive timed
    have onward : (world.pumpOnce sequence runner now).1 = true →
        (world.pumpOnce sequence runner now).2.isLive = true → _ :=
      fun progressed stillLive => later still.1 stillLive still.2
        (Nat.lt_of_lt_of_le (spends.1 progressed stillLive) (Nat.le_of_lt_succ small))
    refine ⟨fun progressed stillLive => (onward progressed stillLive).1, ?_⟩
    rw [pumpLoop]
    split
    · rename_i again
      exact (onward again.1 again.2).2
    rename_i stopped
    intro playing
    apply spends.2 _ playing
    rw [← Bool.not_eq_true]
    exact fun progressed => stopped ⟨progressed, isLive_iff.mpr (.inl playing)⟩

end World

end

section

variable {ρ : Type} {sequence : Sequence} {steps : List Step} {pacing : PacingOptions}
  {name : String}

end

end Grab.Kernel
