import Grab.Sequence.Player.Run

/-!
# Wake-up hints

A runner may answer when a step is next worth a tick, and the pump leaves the step
alone until then.  The answer is only a hint when a tick before it does nothing: the
run is then the run of a runner that never answers.

The two runs differ in their traces, which hold the ticks that were left out.  So
first: the trace is never read, and two worlds that differ in nothing else stay so
under every control.
-/

namespace Grab.Kernel

open Grab.Sequence Grab.Lib

variable {ρ : Type} {first second : World ρ}

/-- Two worlds that differ in their traces only. -/
structure Same (first second : World ρ) : Prop where
  player : first.player = second.player
  runner : first.runner = second.runner

/-- The same answer in worlds that differ in their traces only. -/
structure Alike {α : Type} (first second : α × World ρ) : Prop where
  answer : first.1 = second.1
  world : Same first.2 second.2

namespace Same

variable {α : Type}

theorem alike (same : Same first second) (answer : α) : Alike (answer, first) (answer, second) :=
  ⟨rfl, same⟩

theorem refl (world : World ρ) : Same world world := ⟨rfl, rfl⟩

theorem mapPlayer (same : Same first second) (change : Player → Player) :
    Same (first.mapPlayer change) (second.mapPlayer change) :=
  ⟨congrArg change same.player, same.runner⟩

/-- A chain of the same calls. -/
theorem foldl {call : World ρ → α → World ρ}
    (respects : ∀ {first second : World ρ}, Same first second → ∀ item,
      Same (call first item) (call second item)) (items : List α) (same : Same first second) :
    Same (items.foldl call first) (items.foldl call second) := by
  induction items generalizing first second with
  | nil => exact same
  | cons item rest ih => exact ih (respects same item)

theorem isLive (same : Same first second) : first.isLive = second.isLive := by
  rw [World.isLive, World.isLive, same.player]

variable (sequence : Sequence) (runner : CommandRunner ρ)

/-! ## Calls on the runner -/

variable (same : Same first second)

include same

variable (step : Step)

theorem callEnter (now : TimePoint) :
    Alike (first.callEnter runner step now) (second.callEnter runner step now) := by
  rw [World.callEnter, World.callEnter, same.runner]
  exact ⟨rfl, same.player, rfl⟩

theorem callTick (now : TimePoint) :
    Alike (first.callTick runner step now) (second.callTick runner step now) := by
  rw [World.callTick, World.callTick, same.runner]
  exact ⟨rfl, same.player, rfl⟩

theorem callJoin : Same (first.callJoin runner step) (second.callJoin runner step) := by
  rw [World.callJoin, World.callJoin, same.runner]
  exact ⟨same.player, rfl⟩

theorem callExit (now : TimePoint) :
    Alike (first.callExit runner step now) (second.callExit runner step now) := by
  rw [World.callExit, World.callExit, same.runner]
  exact ⟨rfl, same.player, rfl⟩

theorem callReleaseHolds :
    Alike (first.callReleaseHolds runner step) (second.callReleaseHolds runner step) := by
  rw [World.callReleaseHolds, World.callReleaseHolds, same.runner]
  exact ⟨rfl, same.player, rfl⟩

/-! ## Leaving steps -/

variable (id : StepId)

theorem neutralize (now : TimePoint) :
    Same (first.neutralize sequence runner id now) (second.neutralize sequence runner id now) := by
  rw [World.neutralize, World.neutralize, same.player]
  split
  · exact same
  split
  · exact same
  split
  · exact same
  rename_i step _
  dsimp only
  have joined : Same
      (if isBlockingCommand (kindOf step.command) then first.callJoin runner step else first)
      (if isBlockingCommand (kindOf step.command) then second.callJoin runner step
        else second) := by
    split
    · exact same.callJoin runner step
    · exact same
  rcases joined.callExit runner step now with ⟨outcome, left⟩
  rw [outcome]
  exact left.mapPlayer _

theorem reapHolds :
    Same (first.reapHolds sequence runner id) (second.reapHolds sequence runner id) := by
  rw [World.reapHolds, World.reapHolds]
  split
  · exact same
  rename_i step _
  rcases same.callReleaseHolds runner step with ⟨outcome, lifted⟩
  dsimp only
  rw [outcome]
  exact lifted.mapPlayer _

theorem exitIfEntered (now : TimePoint) :
    Same (first.exitIfEntered sequence runner id now)
      (second.exitIfEntered sequence runner id now) := by
  rw [World.exitIfEntered, World.exitIfEntered, same.player]
  split
  · exact (same.mapPlayer _).neutralize sequence runner id now
  · exact same

theorem markSkipped (now : TimePoint) :
    Same (first.markSkipped sequence id now) (second.markSkipped sequence id now) :=
  same.mapPlayer _

variable (now : TimePoint)

theorem unwindEntered (id : StepId) :
    Same (first.unwindEntered sequence runner now id)
      (second.unwindEntered sequence runner now id) := by
  rw [World.unwindEntered, World.unwindEntered, same.player]
  split
  · exact same
  split
  · exact same
  split
  · exact same.reapHolds sequence runner id
  have left := (same.mapPlayer fun player => player.updateRun id fun run =>
    { run with callDuration := now - run.enteredAt }).neutralize sequence runner id now
  dsimp only
  rw [left.player]
  split
  · exact left
  · exact left.markSkipped sequence id now

theorem unwindReady (id : StepId) :
    Same (first.unwindReady sequence now id) (second.unwindReady sequence now id) := by
  rw [World.unwindReady, World.unwindReady, same.player]
  split
  · exact same.markSkipped sequence id now
  · exact same

theorem unwind : Same (first.unwind sequence runner now) (second.unwind sequence runner now) := by
  rw [World.unwind, World.unwind, same.player]
  have entered := foldl (fun same id => Same.unwindEntered sequence runner same now id)
    second.player.entryOrder.reverse same
  rw [entered.player]
  exact (foldl (fun same id => same.unwindReady sequence now id) _ entered).mapPlayer _

/-! ## Jumps -/

theorem skipAncestor (ancestor : StepId) :
    Same (first.skipAncestor sequence runner now ancestor)
      (second.skipAncestor sequence runner now ancestor) := by
  rw [World.skipAncestor, World.skipAncestor, same.player]
  split
  · exact same
  · exact (same.exitIfEntered sequence runner ancestor now).markSkipped sequence ancestor now

theorem dropMember (target : StepId) (now : TimePoint) (member : StepId) :
    Same (first.dropMember sequence runner target now member)
      (second.dropMember sequence runner target now member) := by
  rw [World.dropMember, World.dropMember, same.player]
  split
  · exact same
  dsimp only
  split
  · exact (same.exitIfEntered sequence runner member now).markSkipped sequence member now
  · exact same.mapPlayer _

theorem jumpTo (target : StepId) :
    Alike (first.jumpTo sequence runner target) (second.jumpTo sequence runner target) := by
  rcases first with ⟨player, state, firstTrace⟩
  rcases second with ⟨_, _, secondTrace⟩
  rcases same with ⟨rfl, rfl⟩
  rw [World.jumpTo, World.jumpTo]
  dsimp only
  split
  · exact ⟨rfl, rfl, rfl⟩
  rename_i step _
  have noted : Same (⟨player, state, firstTrace ++ [.jump target none]⟩ : World ρ)
      ⟨player, state, secondTrace ++ [.jump target none]⟩ := ⟨rfl, rfl⟩
  have skipped := foldl (fun same id => Same.skipAncestor sequence runner same player.lastNow id)
    (sequence.ancestorsOf target) noted
  have dropped := foldl (fun same id =>
    Same.dropMember sequence runner same target player.lastNow id)
    ((sequence.ancestorsOf target).foldl (World.skipAncestor sequence runner player.lastNow)
      ⟨player, state, secondTrace ++ [.jump target none]⟩).player.frontier skipped
  rw [skipped.player]
  exact (dropped.mapPlayer fun player =>
    World.placeTarget sequence player step _).alike none

/-! ## Answers -/

theorem admitSuccessors (id : StepId) :
    Same (first.admitSuccessors sequence id) (second.admitSuccessors sequence id) :=
  same.mapPlayer _

theorem exitCompleted (id : StepId) (now : TimePoint) :
    Same (first.exitCompleted sequence runner id now)
      (second.exitCompleted sequence runner id now) := by
  rw [World.exitCompleted, World.exitCompleted, same.player]
  split
  · exact same
  rename_i step _
  split
  · exact (same.callExit runner step now).2.mapPlayer _
  · exact same

theorem succeed (id : StepId) (now : TimePoint) :
    Same (first.succeed sequence runner id now) (second.succeed sequence runner id now) :=
  (((same.mapPlayer _).exitCompleted sequence runner id now).mapPlayer _).admitSuccessors
    sequence id

theorem abortWith (error : Error) (now : TimePoint) :
    Same (first.abortWith sequence runner error now)
      (second.abortWith sequence runner error now) := by
  rw [World.abortWith, World.abortWith]
  exact ((same.mapPlayer _).unwind sequence runner now).mapPlayer _

theorem applyPolicy (step : Step) (code : ErrorCode) (now : TimePoint) :
    Same (first.applyPolicy sequence runner step code now)
      (second.applyPolicy sequence runner step code now) := by
  rw [World.applyPolicy, World.applyPolicy]
  split
  · exact same.admitSuccessors sequence step.id
  · split
    · exact same.abortWith sequence runner _ now
    · rename_i target _
      rcases same.jumpTo sequence runner target with ⟨answer, jumped⟩
      dsimp only
      rw [answer]
      split
      · exact jumped
      · exact jumped.abortWith sequence runner _ now
  · exact same.abortWith sequence runner _ now

theorem failStep (id : StepId) (code : ErrorCode) (now : TimePoint) :
    Same (first.failStep sequence runner id code now)
      (second.failStep sequence runner id code now) := by
  have retired : Same
      (((first.finishRun id now).neutralize sequence runner id now).retire sequence id .failed now)
      (((second.finishRun id now).neutralize sequence runner id now).retire sequence id .failed
        now) :=
    ((same.mapPlayer _).neutralize sequence runner id now).mapPlayer _
  rw [World.failStep, World.failStep]
  split
  · exact retired
  · exact retired.applyPolicy sequence runner _ code now

theorem reenter (step : Step) (now : TimePoint) :
    Alike (first.reenter sequence runner step now) (second.reenter sequence runner step now) :=
  (((same.mapPlayer _).neutralize sequence runner step.id now).mapPlayer _).callEnter runner
    step now

theorem onStatus (id : StepId) (status : Status) (now : TimePoint) :
    Same (first.onStatus sequence runner id status now)
      (second.onStatus sequence runner id status now) := by
  unfold World.onStatus
  split
  · exact same
  · exact same.succeed sequence runner id now
  split
  · exact same.failStep sequence runner id _ now
  rename_i step _
  dsimp only
  rw [same.player, same.runner]
  split
  · rcases same.reenter sequence runner step now with ⟨answer, entered⟩
    rw [answer]
    split
    · exact entered
    · exact entered.succeed sequence runner id now
    · rw [entered.runner]
      exact entered.failStep sequence runner id _ now
  · exact same.failStep sequence runner id _ now

/-! ## Entries and the controls that enter nothing -/

theorem enterOne (now : TimePoint) (id : StepId) :
    Alike (first.enterOne sequence runner now id) (second.enterOne sequence runner now id) := by
  rw [World.enterOne, World.enterOne, same.player]
  split
  · exact same.alike false
  split
  · exact same.alike false
  rename_i step _
  have marked : Same (first.markEntered sequence runner step now)
      (second.markEntered sequence runner step now) := by
    rw [World.markEntered, World.markEntered, same.runner]
    exact same.mapPlayer _
  rcases marked.callEnter runner step now with ⟨answer, entered⟩
  dsimp only
  rw [answer]
  exact (entered.onStatus sequence runner id _ now).alike true

theorem enterPass (now : TimePoint) (ids : List StepId) (progressed : Bool) :
    Alike (World.enterPass sequence runner now ids progressed first)
      (World.enterPass sequence runner now ids progressed second) := by
  induction ids generalizing first second progressed with
  | nil => exact same.alike progressed
  | cons id rest ih =>
    rcases same.enterOne sequence runner now id with ⟨flag, entered⟩
    rw [World.enterPass, World.enterPass]
    rw [flag, entered.player]
    split
    · exact ih entered progressed
    · split
      · exact ih entered true
      · exact entered.alike true

theorem settle : Same first.settle second.settle := by
  rw [World.settle, World.settle, same.player]
  split
  · exact same.mapPlayer _
  · exact same

theorem play : Alike (first.play sequence) (second.play sequence) := by
  rw [World.play, World.play, same.player]
  split
  · exact (same.mapPlayer _).alike _
  · exact same.alike _
  · exact (same.mapPlayer _).alike _
  · exact same.alike _

theorem pause : Alike first.pause second.pause := by
  rw [World.pause, World.pause, same.player]
  split
  · exact same.alike _
  · exact (same.mapPlayer _).alike _

theorem interrupt : Alike (first.interrupt sequence runner) (second.interrupt sequence runner) := by
  rw [World.interrupt, World.interrupt, same.isLive, same.player]
  split
  · exact same.alike _
  · exact ((same.unwind sequence runner _).mapPlayer _).alike _

theorem skipMember (now : TimePoint) (id : StepId) :
    Same (first.skipMember sequence runner now id) (second.skipMember sequence runner now id) := by
  rw [World.skipMember, World.skipMember]
  split
  · exact same
  · exact (same.exitIfEntered sequence runner id now).markSkipped sequence id now

theorem skip : Alike (first.skip sequence runner) (second.skip sequence runner) := by
  rw [World.skip, World.skip, same.isLive, same.player]
  split
  · exact same.alike _
  have emptied := same.mapPlayer fun player => { player with frontier := [] }
  have skipped := foldl (fun same id =>
    Same.skipMember sequence runner same second.player.lastNow id)
    second.player.frontier emptied
  have admitted := foldl (fun same id => Same.admitSuccessors sequence same id)
    second.player.frontier skipped
  exact admitted.settle.alike _

theorem gotoStep (target : StepId) :
    Alike (first.gotoStep sequence runner target) (second.gotoStep sequence runner target) := by
  rw [World.gotoStep, World.gotoStep, same.isLive]
  split
  · exact same.alike _
  rcases same.jumpTo sequence runner target with ⟨answer, jumped⟩
  dsimp only
  rw [answer]
  split <;> exact jumped.alike _

theorem gotoLabel (label : String) :
    Alike (first.gotoLabel sequence runner label) (second.gotoLabel sequence runner label) := by
  rw [World.gotoLabel, World.gotoLabel]
  split
  · exact same.alike _
  · exact same.gotoStep sequence runner _

end Same

/-! ## A runner that never answers when to tick -/

/-- The same runner, ticked at every pump. -/
def CommandRunner.everyPump (runner : CommandRunner ρ) : CommandRunner ρ :=
  { runner with nextTick := fun _ _ => none }

variable (sequence : Sequence) (runner : CommandRunner ρ) (start : ρ)

/-- A tick before the time that the runner answered does nothing. -/
def HintsOnly : Prop :=
  ∀ (world : World ρ) (step : Step) (due now : TimePoint),
    Balanced sequence runner start world → step ∈ sequence.steps →
    world.player.status step.id.index = .running →
    runner.nextTick world.runner step = some due → now < due →
    runner.tick step now world.runner = (.running, world.runner)

variable {sequence runner start}

/-- What an answer leads to asks for no hint. -/
theorem onStatus_everyPump :
    World.onStatus sequence runner.everyPump = World.onStatus sequence runner :=
  rfl

/-- Nor does entering. -/
theorem enterPass_everyPump (now : TimePoint) (ids : List StepId) (progressed : Bool)
    (world : World ρ) :
    World.enterPass sequence runner.everyPump now ids progressed world =
      World.enterPass sequence runner now ids progressed world := by
  induction ids generalizing progressed world with
  | nil => rfl
  | cons id rest ih =>
    have oneEq : world.enterOne sequence runner.everyPump now id =
        world.enterOne sequence runner now id := by
      rw [World.enterOne, World.enterOne, onStatus_everyPump]
      rfl
    rw [World.enterPass, World.enterPass, oneEq, ih, ih]

/-- Deliver what a tick answered. -/
theorem Same.delivered (same : Same first second) (step : Step) (now : TimePoint) :
    Alike
      (if (first.callTick runner step now).1 = .running then
          (false, (first.callTick runner step now).2)
        else
          (true, (first.callTick runner step now).2.onStatus sequence runner step.id
            (first.callTick runner step now).1 now))
      (if (second.callTick runner step now).1 = .running then
          (false, (second.callTick runner step now).2)
        else
          (true, (second.callTick runner step now).2.onStatus sequence runner step.id
            (second.callTick runner step now).1 now)) := by
  rcases same.callTick runner step now with ⟨answer, ticked⟩
  rw [answer]
  split
  · exact ticked.alike false
  · exact (ticked.onStatus sequence runner step.id _ now).alike true

section

variable (built : sequence.Built) (hints : HintsOnly sequence runner start)

include built hints

/-- The tick that a hint leaves out changes nothing. -/
theorem Same.tickOne (same : Same first second)
    (balanced : Balanced sequence runner start first) (now : TimePoint) {id : StepId}
    (live : sequence.Live id) :
    Alike (first.tickOne sequence runner now id)
      (second.tickOne sequence runner.everyPump now id) := by
  rcases built.find_of_live live with ⟨step, found, rfl, member⟩
  have delivered := @Same.delivered _ _ _ sequence runner same step now
  have everyEq : second.tickOne sequence runner.everyPump now step.id =
      if sequence.steps.length ≤ step.id.index ∨
          second.player.status step.id.index ≠ .running then (false, second)
      else if (second.callTick runner step now).1 = .running then
          (false, (second.callTick runner step now).2)
        else
          (true, (second.callTick runner step now).2.onStatus sequence runner step.id
            (second.callTick runner step now).1 now) := by
    rw [World.tickOne, found, onStatus_everyPump]
    rfl
  rw [everyEq, World.tickOne, ← same.player, found]
  split
  · exact same.alike false
  rename_i candidate
  rw [not_or, not_not] at candidate
  dsimp only
  split
  · rename_i due hinted
    split
    · rename_i early
      have idle := hints first step due now balanced member candidate.2 hinted early
      have ticked : second.callTick runner step now =
          (.running, { second with trace := second.trace ++ [.tick step.id now .running] }) := by
        rw [World.callTick, ← same.runner, idle]
      rw [ticked, if_pos rfl]
      exact ⟨rfl, same.player, same.runner⟩
    · exact delivered
  · exact delivered

variable (now : TimePoint)

theorem Same.tickPass {ids : List StepId} (live : ∀ id ∈ ids, sequence.Live id) (progressed : Bool)
    (same : Same first second) (balanced : Balanced sequence runner start first)
    (isLive : first.isLive = true) :
    Alike (World.tickPass sequence runner now ids progressed first)
      (World.tickPass sequence runner.everyPump now ids progressed second) := by
  induction ids generalizing first second progressed with
  | nil => exact same.alike progressed
  | cons id rest ih =>
    have here := live id List.mem_cons_self
    have advances := (turnRule_advances built now).tickOne built (.refl balanced) isLive here
    rcases same.tickOne built hints balanced now here with ⟨flag, ticked⟩
    rw [World.tickPass, World.tickPass]
    rw [flag, ticked.isLive]
    split
    · rename_i stillLive
      exact ih (fun other inRest => live other (List.mem_cons_of_mem _ inRest)) _ ticked
        advances.balanced (ticked.isLive.trans stillLive)
    · exact ticked.alike _

theorem Same.pumpOnce (same : Same first second) (balanced : Balanced sequence runner start first)
    (isLive : first.isLive = true) :
    Alike (first.pumpOnce sequence runner now) (second.pumpOnce sequence runner.everyPump now) := by
  have passed := Same.tickPass built hints now (World.frontier_live balanced) false same balanced
    isLive
  rw [World.pumpOnce, World.pumpOnce, ← same.player]
  rw [passed.world.player]
  split
  · rw [passed.answer]
    rw [enterPass_everyPump]
    exact passed.world.enterPass sequence runner now _ _
  · exact passed

theorem Same.pumpLoop (limit : Nat) (same : Same first second)
    (balanced : Balanced sequence runner start first) (isLive : first.isLive = true) :
    Same (first.pumpLoop sequence runner now limit)
      (second.pumpLoop sequence runner.everyPump now limit) := by
  induction limit generalizing first second with
  | zero => exact same
  | succ limit ih =>
    have once := (turnRule_advances built now).pumpOnce built (Advances.refl balanced) isLive
    rcases same.pumpOnce built hints now balanced isLive with ⟨flag, pumped⟩
    rw [World.pumpLoop, World.pumpLoop]
    rw [flag, pumped.isLive]
    split
    · rename_i again
      exact ih pumped once.balanced (pumped.isLive.trans again.2)
    · exact pumped

theorem Same.pump (same : Same first second) (balanced : Balanced sequence runner start first) :
    Alike (first.pump sequence runner now) (second.pump sequence runner.everyPump now) := by
  have timed := same.mapPlayer fun player => { player with lastNow := now }
  have timedBalanced : Balanced sequence runner start
      (first.mapPlayer fun player => { player with lastNow := now }) :=
    balanced.of_eq rfl rfl rfl rfl
  rw [World.pump, World.pump]
  dsimp only
  rw [timed.isLive, timed.player]
  split
  · exact timed.alike _
  rename_i isLive
  rw [← timed.isLive, Bool.not_eq_false] at isLive
  have settled := (timed.pumpLoop built hints now (2 * sequence.steps.length + 2)
    timedBalanced isLive).settle
  rw [settled.player]
  split <;> exact settled.alike _

/-- Every call on the player is answered alike. -/
theorem Same.control (same : Same first second)
    (balanced : Balanced sequence runner start first) (control : Control) :
    Alike (first.control sequence runner control)
      (second.control sequence runner.everyPump control) := by
  cases control with
  | play => exact same.play sequence
  | pause => exact same.pause
  | pump now => exact same.pump built hints now balanced
  | skip => exact same.skip sequence runner
  | gotoStep target => exact same.gotoStep sequence runner target
  | gotoLabel label => exact same.gotoLabel sequence runner label
  | interrupt => exact same.interrupt sequence runner

/-- A run that follows the hints is the run that is ticked at every pump. -/
theorem World.run_everyPump (controls : List Control) (sound : RunSound sequence runner start first)
    (same : Same first second) :
    Same (first.run sequence runner controls) (second.run sequence runner.everyPump controls) := by
  induction controls generalizing first second with
  | nil => exact same
  | cons control rest ih =>
    have alike := same.control built hints sound.balanced control
    exact ih (World.control_step built sound control).sound alike.world

end

end Grab.Kernel
