import Grab.Sequence.Player.Unwind

/-!
# Answers, policies and the pump

What a step's answer leads to: completion, a retry, or the error policy; and
the fixpoint loop that ticks what runs and enters what is due.  Every turn of
the pump takes a balanced world to a balanced one and either leaves the play
state alone or ends the run with a complete teardown.
-/

namespace Grab.Kernel

open Grab.Sequence Grab.Lib List Function

section

variable {ρ : Type} {sequence : Sequence} {runner : CommandRunner ρ} {start : ρ}
  {due : Option StepId} {world : World ρ}

/-! ## The open steps of a trace -/

variable {id : StepId} {trace : List Event}

theorem openIn_of_openCycles (cycles : OpenCycles (callsOf id trace)) : openIn trace id = true := by
  obtain ⟨complete, ticks, _, callsEq⟩ := cycles
  rw [openIn, callsEq]
  cases ticks with
  | zero => simp
  | succ ticks =>
    rw [replicate_succ', getLast?_append]
    simp [getLast?_cons]

theorem openIn_of_cycles (cycles : Cycles (callsOf id trace)) : openIn trace id = false := by
  obtain ⟨parts, partsCycle, callsEq⟩ := cycles
  rw [openIn, callsEq]
  cases parts using List.reverseRecOn with
  | nil => rfl
  | append_singleton parts last =>
    obtain ⟨ticks, rfl⟩ := partsCycle last (by simp)
    simp [getLast?_append, getLast?_cons]

/-- The trace knows which steps are open. -/
theorem Ledger.openSteps_eq (ledger : Ledger sequence runner start due world) :
    openSteps world.trace = world.player.entryOrder.filter world.player.isOpen := by
  rw [openSteps, ledger.order]
  apply filter_congr
  intro id member
  obtain ⟨live, _⟩ := (ledger.entered id).mp member
  obtain ⟨protocol, conversation, _, openIff⟩ := ledger.conversation
  have cycles := conversation.cycles id
  cases isOpen : world.player.isOpen id with
  | true =>
    rw [if_pos ((openIff id).mpr ⟨live, isOpen⟩)] at cycles
    exact openIn_of_openCycles cycles
  | false =>
    rw [if_neg (by rw [openIff, isOpen]; simp)] at cycles
    exact openIn_of_cycles cycles

/-! ## How a run ends -/

/-- Every step that was ever entered is exited or has its holds lifted in the
last part of the trace, which enters nothing and starts with no exit overdue. -/
def Reaped (trace : List Event) : Prop :=
  ∃ before teardown, trace = before ++ teardown ∧
    (∃ protocol, Protocol.after before = some protocol ∧ protocol.due = none) ∧
    (∀ event ∈ teardown, event.isTeardown = true) ∧
    ∀ id ∈ firstEntered before, ∃ event ∈ teardown, event.isReleaseOf id = true

/-- A torn down run has nothing active and every entered step was seen to. -/
structure Ended (world : World ρ) : Prop where
  frontier : world.player.frontier = []
  reaped : Reaped world.trace

/-- One stretch of a run: balanced throughout, finished steps untouched, and
either still going or ended by a failure. -/
structure Advances (sequence : Sequence) (runner : CommandRunner ρ) (start : ρ)
    (before after : World ρ) : Prop where
  balanced : Balanced sequence runner start after
  keeps : Player.Keeps before.player after.player
  state : after.player.state = before.player.state ∨
    after.player.state = .interrupted ∧ Ended after ∧ FailureTeardown after.trace

theorem Advances.refl (balanced : Balanced sequence runner start world) :
    Advances sequence runner start world world :=
  ⟨balanced, Player.Keeps.refl _, .inl rfl⟩

theorem Advances.trans {middle after : World ρ}
    (first : Advances sequence runner start world middle)
    (going : middle.player.state ≠ .interrupted)
    (last : Advances sequence runner start middle after) :
    Advances sequence runner start world after := by
  refine ⟨last.balanced, first.keeps.trans last.keeps, ?_⟩
  rcases first.state with sameState | ⟨interrupted, _⟩
  · rw [← sameState]
    exact last.state
  · exact absurd interrupted going

/-- A world seen through a stretch in which the player only did bookkeeping. -/
theorem Advances.of_before {before after : World ρ}
    (advances : Advances sequence runner start world after)
    (keeps : Player.Keeps before.player world.player)
    (state : world.player.state = before.player.state) :
    Advances sequence runner start before after := by
  refine ⟨advances.balanced, keeps.trans advances.keeps, ?_⟩
  rw [← state]
  exact advances.state

namespace World

/-- A running step has just answered. -/
structure Answered (sequence : Sequence) (runner : CommandRunner ρ) (start : ρ)
    (id : StepId) (answer : Status) (world : World ρ) : Prop where
  ledger : Ledger sequence runner start (Protocol.dueAfter id answer) world
  sound : world.player.Sound sequence
  running : world.player.status id.index = .running
  failing : answer = .failure → ∃ earlier request, world.trace = earlier ++ [request] ∧
    request.isFailureOf id = true

/-! ## Completion -/

theorem sameRuns_finishRun (world : World ρ) (id : StepId) (now : TimePoint) :
    Player.SameRuns world.player (world.finishRun id now).player := by
  have timed : Player.SameRuns world.player (world.player.updateRun id fun run =>
      { run with callDuration := now - run.enteredAt, finishedAt := now }) :=
    Player.sameRuns_updateRun (fun _ => rfl) (fun _ => rfl) fun _ => rfl
  exact timed

variable (built : sequence.Built)

include built

/-- A running step is exited and retired. -/
theorem balanced_retire (live : sequence.Live id) {before exited : World ρ}
    (sound : before.player.Sound sequence) (running : before.player.status id.index = .running)
    (exits : Exits id before exited) (ledger : Ledger sequence runner start none exited)
    {status : StepStatus} (terminal : terminalStatus status = true) (now : TimePoint) :
    Balanced sequence runner start (exited.retire sequence id status now) ∧
      Player.Keeps before.player (exited.retire sequence id status now).player ∧
      (exited.retire sequence id status now).player.state = before.player.state := by
  have same : Player.SameRuns exited.player (exited.retire sequence id status now).player := by
    have statusSame : Player.SameRuns exited.player
        (exited.player.setStatus sequence id status) := Player.sameRuns_setStatus status
    exact statusSame.trans (Player.SameRuns.of_eq rfl rfl)
  have statusEq : (exited.retire sequence id status now).player.status =
      Function.update before.player.status id.index status := by
    rw [← exits.status]
    exact Player.status_setStatus (built.live_lt live) status
  have frontierEq : (exited.retire sequence id status now).player.frontier =
      before.player.frontier.erase id := by
    rw [← exits.frontier]
    exact congrArg (List.erase · id) (Player.frontier_setStatus status)
  have active : StepStatus.isActive (before.player.status id.index) = true := by
    rw [running]
    rfl
  obtain ⟨retiredSound, keeps⟩ := sound.retire built live active terminal statusEq frontierEq
    (fun other otherLive different => by
      apply same.agrees
      rw [exits.elsewhere _ fun equal => different (built.live_eq otherLive live equal)]
      exact sound.consistent other otherLive)
    (fun _ => (same.exited id.index).trans exits.exited)
  refine ⟨⟨ledger.bookkeeping same, retiredSound⟩, keeps, ?_⟩
  exact (Player.state_setStatus _).trans exits.state

variable {step : Step} {before events : List Event} {answer : Status}

/-- A clean completion exits the step once. -/
theorem exits_exitCompleted (member : step ∈ sequence.steps)
    (isOpen : world.player.isOpen step.id = true) (isDue : due = none ∨ due = some step.id)
    (now : TimePoint) (ledger : Ledger sequence runner start due world) :
    Exits step.id world (world.exitCompleted sequence runner step.id now) ∧
      Ledger sequence runner start none (world.exitCompleted sequence runner step.id now) := by
  have exitEq : world.exitCompleted sequence runner step.id now =
      (world.callExit runner step now).2.mapPlayer fun player =>
        player.updateRun step.id fun run => { run with exited := true } := by
    rw [exitCompleted, built.find_of_mem member]
    exact if_pos (Player.isOpen_iff.mp isOpen)
  rw [exitEq]
  refine ⟨⟨rfl, rfl, rfl, rfl, ?_, ?_, ?_, ?_, ?_⟩,
    ledger.exit built member isOpen isDue now rfl rfl⟩
  · exact fun index different => update_of_ne different _ _
  · simp [mapPlayer, callExit, Player.updateRun]
  · simp [mapPlayer, callExit, Player.updateRun]
  · simp [mapPlayer, Player.updateRun]
  · exact ⟨_, rfl, rfl, by simp [Event.isTeardown]⟩

theorem succeed_advances (member : step ∈ sequence.steps)
    (answered : Answered sequence runner start step.id .success world) (now : TimePoint) :
    Advances sequence runner start world (world.succeed sequence runner step.id now) := by
  have live := sequence.live_of_mem member
  have same := sameRuns_finishRun world step.id now
  have isOpen : (world.finishRun step.id now).player.isOpen step.id = true :=
    (isOpen_of_sameRuns same step.id).trans
      ((isOpen_iff_running answered.sound.consistent live).mpr answered.running)
  obtain ⟨exits, exitLedger⟩ := exits_exitCompleted built member isOpen (.inr rfl) now
    (answered.ledger.bookkeeping same)
  obtain ⟨retired, keeps, state⟩ := balanced_retire built live answered.sound answered.running
    (exits_of_measured exits (fun _ => rfl) fun _ => rfl) exitLedger
    (rfl : terminalStatus .succeeded = true) now
  obtain ⟨admitted, bookkeeping⟩ := balanced_admitSuccessors built retired step.id
  exact ⟨admitted, keeps.trans bookkeeping.keeps, .inl (bookkeeping.state.trans state)⟩

/-! ## Failure -/

/-- Unwinding a balanced world ends the run. -/
theorem unwind_ends (balanced : Balanced sequence runner start world) (now : TimePoint) :
    let ended := (world.unwind sequence runner now).mapPlayer fun player =>
      { player with state := .interrupted }
    Balanced sequence runner start ended ∧ Player.Keeps world.player ended.player ∧
      ended.player.state = .interrupted ∧ Ended ended ∧
      ∃ events, ended.trace = world.trace ++ events ∧
        Tears (world.player.entryOrder.filter world.player.isOpen).reverse events := by
  have unwound := unwind_spec built balanced now
  obtain ⟨events, traceEq, tears, releases⟩ := unwound.trace
  refine ⟨unwound.balanced.of_eq rfl rfl rfl rfl, unwound.keeps, rfl,
    ⟨unwound.frontier, ?_⟩, events, traceEq, tears⟩
  obtain ⟨protocol, conversation, dueEq, _⟩ := balanced.ledger.conversation
  refine ⟨world.trace, events, traceEq, ⟨protocol, conversation.after, dueEq⟩, tears.teardown, ?_⟩
  intro id entered
  rw [balanced.ledger.order] at entered
  exact releases id entered

/-- The failing step is exited first, the other open steps after it. -/
theorem closing_of_failure (live : sequence.Live id) {failed exited : World ρ}
    (ledger : Ledger sequence runner start (some id) failed) (exits : Exits id failed exited)
    {earlier : List Event} {request : Event} (traceEq : failed.trace = earlier ++ [request])
    (isFailure : request.isFailureOf id = true) :
    FailureOrder failed.trace
      ([id] ++ (exited.player.entryOrder.filter exited.player.isOpen).reverse) := by
  refine ⟨id, request, earlier, traceEq, isFailure, ?_⟩
  have nodup : (failed.player.entryOrder.filter failed.player.isOpen).Nodup := by
    rw [← ledger.order]
    exact (nodup_firstEntered _).filter _
  rw [singleton_append, ledger.openSteps_eq, nodup.erase_eq_filter, filter_filter, exits.entryOrder]
  congr 2
  apply filter_congr
  intro other member
  by_cases same : other = id
  · subst other
    simp [Player.isOpen, exits.exited]
  have elsewhere : other.index ≠ id.index :=
    fun equal => same (built.live_eq ((ledger.entered other).mp member).1 live equal)
  rw [Player.isOpen, exits.elsewhere _ elsewhere]
  simp [same, Player.isOpen]

variable (balanced : Balanced sequence runner start world)

include balanced

theorem abortWith_advances (traceEq : world.trace = before ++ events)
    (teardown : ∀ event ∈ events, event.isTeardown = true) (closing : FailureOrder before
      (exitsOf events ++ (world.player.entryOrder.filter world.player.isOpen).reverse))
    (error : Error) (now : TimePoint) :
    Advances sequence runner start world (world.abortWith sequence runner error now) := by
  have noted : Balanced sequence runner start
      (world.mapPlayer fun player => { player with failure := some error }) :=
    balanced.of_eq rfl rfl rfl rfl
  obtain ⟨endBalanced, keeps, state, ended, unwindEvents, unwindTrace, tears⟩ :=
    unwind_ends built noted now
  refine ⟨endBalanced, keeps, .inr ⟨state, ended, before, events ++ unwindEvents, ?_, ?_, ?_⟩⟩
  · rw [← append_assoc, ← traceEq]
    exact unwindTrace
  · intro event member
    rcases mem_append.mp member with early | late
    · exact teardown event early
    · exact tears.teardown event late
  have exitsEq : exitsOf unwindEvents =
      (world.player.entryOrder.filter world.player.isOpen).reverse := tears.exitsEq
  rw [exitsOf, filterMap_append]
  rw [← exitsEq] at closing
  exact closing

/-- The failed step has been exited and retired; its policy decides the rest. -/
theorem applyPolicy_advances (traceEq : world.trace = before ++ events)
    (teardown : ∀ event ∈ events, event.isTeardown = true) (closing : FailureOrder before
      (exitsOf events ++ (world.player.entryOrder.filter world.player.isOpen).reverse))
    (step : Step) (code : ErrorCode) (now : TimePoint) :
    Advances sequence runner start world (world.applyPolicy sequence runner step code now) := by
  rw [applyPolicy]
  cases step.onError with
  | abort => exact abortWith_advances built balanced traceEq teardown closing _ now
  | «continue» =>
    obtain ⟨admitted, bookkeeping⟩ := balanced_admitSuccessors built balanced step.id
    exact ⟨admitted, bookkeeping.keeps, .inl bookkeeping.state⟩
  | «goto» =>
    dsimp only
    split
    · exact abortWith_advances built balanced traceEq teardown closing _ now
    rename_i target resolved
    obtain ⟨jumped, keeps, state, refusal⟩ := jumpTo_spec built balanced target
    split
    · exact ⟨jumped, keeps, .inl state⟩
    rename_i refused isRefused
    have unchanged := refusal refused isRefused
    rw [unchanged] at jumped ⊢
    have jumpTrace : world.trace ++ [.jump target (some refused)] =
        before ++ (events ++ [.jump target (some refused)]) := by
      rw [traceEq, append_assoc]
    refine (abortWith_advances built jumped jumpTrace ?_ ?_ _ now).of_before
      (Player.Keeps.refl _) rfl
    · intro event member
      rcases mem_append.mp member with old | new
      · exact teardown event old
      · rw [mem_singleton.mp new]
        rfl
    have sameExits : exitsOf (events ++ [.jump target (some refused)]) = exitsOf events := by
      rw [exitsOf, filterMap_append]
      exact append_nil _
    rw [sameExits]
    exact closing

omit balanced

theorem failStep_spec (live : sequence.Live id)
    (answered : Answered sequence runner start id .failure world) (code : ErrorCode)
    (now : TimePoint) :
    Advances sequence runner start world (world.failStep sequence runner id code now) ∧
      (world.failStep sequence runner id code now).player.status id.index = .failed := by
  obtain ⟨step, found, stepId, member⟩ := built.find_of_live live
  obtain ⟨earlier, request, traceEq, isFailure⟩ := answered.failing rfl
  have same := sameRuns_finishRun world id now
  have isOpen : (world.finishRun id now).player.isOpen id = true :=
    (isOpen_of_sameRuns same id).trans
      ((isOpen_iff_running answered.sound.consistent live).mpr answered.running)
  have exits : Exits id world ((world.finishRun id now).neutralize sequence runner id now) :=
    exits_of_measured (exits_neutralize runner built live isOpen now) (fun _ => rfl) fun _ => rfl
  have exitLedger := ledger_neutralize built live isOpen (.inr rfl) now
    (answered.ledger.bookkeeping same)
  obtain ⟨retired, keeps, state⟩ := balanced_retire built live answered.sound answered.running exits
    exitLedger (rfl : terminalStatus .failed = true) now
  have closing := closing_of_failure built live answered.ledger exits traceEq isFailure
  obtain ⟨events, eventsEq, tears⟩ := exits.trace
  rw [failStep]
  generalize exitedEq : (world.finishRun id now).neutralize sequence runner id now = exited at *
  have statusSame : Player.SameRuns exited.player (exited.retire sequence id .failed now).player :=
    Player.SameRuns.trans (Player.sameRuns_setStatus .failed) (Player.SameRuns.of_eq rfl rfl)
  have openSame : ∀ other, (exited.retire sequence id .failed now).player.isOpen other =
      exited.player.isOpen other := isOpen_of_sameRuns statusSame
  rw [found]
  have retiredTrace : (exited.retire sequence id .failed now).trace = world.trace ++ events :=
    eventsEq
  have order : FailureOrder world.trace (exitsOf events ++
      ((exited.retire sequence id .failed now).player.entryOrder.filter
        (exited.retire sequence id .failed now).player.isOpen).reverse) := by
    rw [tears.exitsEq, statusSame.entryOrder, funext openSame]
    exact closing
  have policy := applyPolicy_advances built retired retiredTrace tears.teardown order step code now
  have isFailed : (exited.retire sequence id .failed now).player.status id.index = .failed := by
    have statusEq : (exited.retire sequence id .failed now).player.status =
        Function.update exited.player.status id.index .failed :=
      Player.status_setStatus (built.live_lt live) .failed
    rw [statusEq, update_self]
  refine ⟨policy.of_before keeps state, ?_⟩
  have kept := policy.keeps id.index (by rw [isFailed]; rfl)
  exact kept.trans isFailed

/-! ## Answers -/

theorem tick_answered (balanced : Balanced sequence runner start world)
    (member : step ∈ sequence.steps) (running : world.player.status step.id.index = .running)
    (now : TimePoint) :
    Answered sequence runner start step.id (world.callTick runner step now).1
      (world.callTick runner step now).2 where
  ledger := balanced.ledger.tick built member
    ((isOpen_iff_running balanced.sound.consistent ⟨step, member, rfl⟩).mpr running) now
  sound := balanced.sound
  running := running
  failing isFailure := by
    refine ⟨world.trace, _, rfl, ?_⟩
    have answerIs : (runner.tick step now world.runner).1 = .failure := isFailure
    simp [Event.isFailureOf, answerIs]

/-- The same status table with one record reopened. -/
theorem sound_reopen {before after : Player} (live : sequence.Live id)
    (sound : before.Sound sequence) (statusEq : after.status = before.status)
    (frontierEq : after.frontier = before.frontier)
    (others : ∀ index, index ≠ id.index → after.runs index = before.runs index)
    (agrees : Agrees (before.status id.index) (after.runs id.index)) : after.Sound sequence := by
  refine ⟨?_, ⟨?_, ?_⟩, ?_⟩
  · intro other otherLive
    rw [statusEq]
    by_cases same : other = id
    · subst other
      exact agrees
    · rw [others _ fun equal => same (built.live_eq otherLive live equal)]
      exact sound.consistent other otherLive
  · rw [frontierEq]
    exact sound.frontier.nodup
  · rw [frontierEq, statusEq]
    exact sound.frontier.mem_iff
  · intro other otherLive
    rw [statusEq]
    exact sound.closed other otherLive

omit built in
theorem entryCount_of_tears {exits : List StepId} {events : List Event}
    (tears : Tears exits events) (id : StepId) : entryCount id events = 0 := by
  rw [entryCount, count_eq_zero]
  intro entry
  obtain ⟨event, member, isEntry⟩ := mem_filterMap.mp entry
  have teardown := tears.teardown event member
  cases event with
  | enter _ _ _ _ | tick _ _ _ => cases teardown
  | exit other _ _ =>
    simp only [Event.callOn] at isEntry
    split at isEntry <;> cases isEntry
  | join _ | releaseHolds _ _ | jump _ _ => cases isEntry

omit built in
/-- The player after a retry: one record is written, and the verdict may have changed. -/
theorem reenter_player (world : World ρ) (step : Step) (now : TimePoint) : ∃ verdict,
    (world.reenter sequence runner step now).2.player =
      { world.player with
        runs := Function.update world.player.runs step.id.index
          { world.player.runs step.id.index with
            retries := (world.player.runs step.id.index).retries + 1
            exited := false
            enteredAt := now }
        neutralization := verdict } := by
  generalize countedEq : (world.mapPlayer fun player => player.updateRun step.id fun run =>
    { run with retries := run.retries + 1 }) = counted
  have reenterEq : (world.reenter sequence runner step now).2.player =
      (counted.neutralize sequence runner step.id now).player.updateRun step.id fun run =>
        { run with exited := false, enteredAt := now } := by
    rw [← countedEq]
    rfl
  have countedPlayer : counted.player = world.player.updateRun step.id fun run =>
      { run with retries := run.retries + 1 } := by
    rw [← countedEq]
    rfl
  rw [reenterEq]
  rcases counted.neutralize_player sequence runner step.id now with same | ⟨verdict, same⟩
  · exact ⟨world.player.neutralization, by simp [Player.updateRun, same, countedPlayer]⟩
  · exact ⟨verdict, by simp [Player.updateRun, same, countedPlayer]⟩

/-- A retry exits the step and enters it again under the same status. -/
theorem reenter_answered (member : step ∈ sequence.steps)
    (answered : Answered sequence runner start step.id .failure world)
    (mayStill : (world.player.runs step.id.index).retries < maxRetriesPerStep) (now : TimePoint) :
    Answered sequence runner start step.id (world.reenter sequence runner step now).1
        (world.reenter sequence runner step now).2 := by
  have live := sequence.live_of_mem member
  obtain ⟨ledger, sound, running, _⟩ := answered
  have isOpen := (isOpen_iff_running sound.consistent live).mpr running
  obtain ⟨isEntered, notExited⟩ := Player.isOpen_iff.mp isOpen
  obtain ⟨verdict, playerEq⟩ := @reenter_player ρ sequence runner world step now
  generalize countedEq : (world.mapPlayer fun player => player.updateRun step.id fun run =>
    { run with retries := run.retries + 1 }) = counted
  have countedRuns : counted.player.runs = Function.update world.player.runs step.id.index
      { world.player.runs step.id.index with
        retries := (world.player.runs step.id.index).retries + 1 } := by
    rw [← countedEq]
    rfl
  have countedLedger : Ledger sequence runner start (some step.id) counted := by
    rw [← countedEq]
    refine ledger.raise rfl ?_ ?_ ?_ ?_
    · intro index
      by_cases here : index = step.id.index <;> simp [Player.updateRun, here]
    · intro index
      by_cases here : index = step.id.index <;> simp [Player.updateRun, here]
    · intro index
      by_cases here : index = step.id.index <;> simp [Player.updateRun, here]
    intro id idLive
    by_cases here : id.index = step.id.index
    · simpa [Player.updateRun, here] using Nat.succ_le_of_lt mayStill
    · simpa [Player.updateRun, here] using ledger.bounded id idLive
  have countedOpen : counted.player.isOpen step.id = true := by
    rw [Player.isOpen_iff, countedRuns, update_self]
    exact ⟨isEntered, notExited⟩
  have exits := exits_neutralize runner built live countedOpen now
  have exitLedger := ledger_neutralize built live countedOpen (.inr rfl) now countedLedger
  have reenterEq : world.reenter sequence runner step now =
      ((counted.neutralize sequence runner step.id now).mapPlayer fun player =>
        player.updateRun step.id fun run =>
          { run with exited := false, enteredAt := now }).callEnter runner step now := by
    rw [reenter, countedEq]
  rw [reenterEq] at playerEq ⊢
  generalize exitedEq : counted.neutralize sequence runner step.id now = exited at *
  have enteredStill : (exited.player.runs step.id.index).entered = true := by
    rw [exits.entered, countedRuns, update_self]
    exact isEntered
  have affordable : entryCount step.id exited.trace ≤
      (world.player.runs step.id.index).retries + 1 := by
    obtain ⟨events, traceEq, tears⟩ := exits.trace
    have before := ledger.counted step.id live
    rw [if_pos isEntered] at before
    rw [traceEq, entryCount_append, entryCount_of_tears tears, ← countedEq]
    exact before.trans_eq (Nat.add_comm _ _)
  have retriesNow : (exited.player.runs step.id.index).retries =
      (world.player.runs step.id.index).retries + 1 := by
    rw [exits.retries, countedRuns, update_self]
  have enteredLedger := @Ledger.enter ρ sequence runner start exited
    (exited.player.updateRun step.id fun run => { run with exited := false, enteredAt := now }) step
    exitLedger built member (by simp [Player.isOpen, exits.exited])
    (by rw [if_pos enteredStill]; rfl) (fun index elsewhere => update_of_ne elsewhere _ _)
    (by simpa [Player.updateRun]) (by simp [Player.updateRun])
    (by simpa [Player.updateRun, retriesNow]) (by simpa [Player.updateRun, retriesNow])
    (fun ancestor isAncestor => by
      have done := sound.closed step.id live (by rw [running]; decide) ancestor isAncestor
      have sameStatus := congrArg Player.status playerEq
      exact (congrArg (fun status => terminalStatus (status ancestor.index)) sameStatus).trans done)
    now
  refine ⟨enteredLedger, ?_, ?_, ?_⟩
  · refine sound_reopen built live sound (by rw [playerEq]) (by rw [playerEq]) ?_ ?_
    · intro index elsewhere
      rw [playerEq]
      exact update_of_ne elsewhere _ _
    · rw [running, playerEq]
      simp [Agrees, isEntered]
  · rw [playerEq]
    exact running
  · intro isFailure
    refine ⟨exited.trace, _, rfl, ?_⟩
    have answerIs : (runner.enter step now exited.runner).1 = .failure := isFailure
    simp [Event.isFailureOf, mapPlayer, answerIs]

/-- What an answer leads to: nothing, completion, failure, or a retry whose answer ends it. -/
theorem onStatus_rule (member : step ∈ sequence.steps) (now : TimePoint)
    (heard : Status → World ρ → Prop) (kept : World ρ → Prop)
    (running : ∀ {world : World ρ}, Answered sequence runner start step.id .running world →
      heard .running world → kept world)
    (succeeds : ∀ {world : World ρ}, Answered sequence runner start step.id .success world →
      heard .success world → kept (world.succeed sequence runner step.id now))
    (fails : ∀ {world : World ρ} code, Answered sequence runner start step.id .failure world →
      heard .failure world → kept (world.failStep sequence runner step.id code now))
    (answered : Answered sequence runner start step.id answer world)
    (reenters : answer = .failure → (world.player.runs step.id.index).retries < maxRetriesPerStep →
      heard (world.reenter sequence runner step now).1 (world.reenter sequence runner step now).2)
    (holds : heard answer world) : kept (world.onStatus sequence runner step.id answer now) := by
  cases answer with
  | running => exact running answered holds
  | success => exact succeeds answered holds
  | failure =>
    rw [onStatus, built.find_of_mem member]
    dsimp only
    split
    · rename_i retry
      have again := reenter_answered built member answered retry.2 now
      have heardAgain := reenters rfl retry.2
      generalize world.reenter sequence runner step now = reentered at again heardAgain ⊢
      obtain ⟨second, middle⟩ := reentered
      cases second with
      | running => exact running again heardAgain
      | success => exact succeeds again heardAgain
      | failure => exact fails _ again heardAgain
    · exact fails _ answered holds

theorem onStatus_advances (live : sequence.Live id)
    (answered : Answered sequence runner start id answer world) (now : TimePoint) :
    Advances sequence runner start world (world.onStatus sequence runner id answer now) := by
  obtain ⟨step, member, rfl⟩ := live
  refine onStatus_rule built member now (fun _ after => Player.Keeps world.player after.player ∧
    after.player.state = world.player.state) _ ?_ ?_ ?_ answered ?_ ⟨Player.Keeps.refl _, rfl⟩
  · exact fun answered same => ⟨⟨answered.ledger, answered.sound⟩, same.1, .inl same.2⟩
  · exact fun answered same => (succeed_advances built member answered now).of_before same.1 same.2
  · exact fun code answered same =>
      (failStep_spec built ⟨step, member, rfl⟩ answered code now).1.of_before same.1 same.2
  rintro rfl mayStill
  obtain ⟨_, playerEq⟩ := @reenter_player ρ sequence runner world step now
  rw [playerEq]
  exact ⟨Player.Keeps.refl _, rfl⟩

omit built in
/-- The player once a step is entered. -/
theorem enter_player (world : World ρ) {step : Step} {now : TimePoint}
    (inside : step.id.index < sequence.steps.length) :
    ((world.markEntered sequence runner step now).callEnter runner step now).2.player =
      { world.player with
        status := Function.update world.player.status step.id.index .running
        runs := Function.update world.player.runs step.id.index
          { world.player.runs step.id.index with
            entered := true
            exited := false
            enteredAt := now
            declared := runner.declaredDuration world.runner step }
        entryOrder := world.player.entryOrder ++ [step.id]
        anythingEntered := true
        firstEntry := if world.player.anythingEntered then world.player.firstEntry else now } := by
  simp only [callEnter, markEntered, mapPlayer, Player.updateRun,
    Player.setStatus, if_neg (Nat.not_le.mpr inside)]

/-- A ready step is entered. -/
theorem enter_answered (balanced : Balanced sequence runner start world)
    (member : step ∈ sequence.steps) (ready : world.player.status step.id.index = .ready)
    (now : TimePoint) :
    Answered sequence runner start step.id
        ((world.markEntered sequence runner step now).callEnter runner step now).1
        ((world.markEntered sequence runner step now).callEnter runner step now).2 ∧
      Player.Keeps world.player (world.markEntered sequence runner step now).player ∧
      (world.markEntered sequence runner step now).player.state = world.player.state := by
  have live := sequence.live_of_mem member
  have inside := built.live_lt live
  have sound := balanced.sound
  have unentered : (world.player.runs step.id.index).entered = false := by
    have agrees := sound.consistent step.id live
    rw [ready] at agrees
    exact agrees
  have playerEq := @enter_player ρ sequence runner world step now inside
  have kept : (world.markEntered sequence runner step now).runner = world.runner ∧
      (world.markEntered sequence runner step now).trace = world.trace := ⟨rfl, rfl⟩
  change (world.markEntered sequence runner step now).player = _ at playerEq
  generalize world.markEntered sequence runner step now = marked at *
  have statusEq : marked.player.status =
      Function.update world.player.status step.id.index .running := by rw [playerEq]
  have unused : entryCount step.id world.trace = 0 := by
    have counted := balanced.ledger.counted step.id live
    rw [if_neg (by simp [unentered])] at counted
    exact Nat.le_zero.mp counted
  have ancestorsDone : ∀ ancestor, sequence.Ancestor ancestor step.id →
      terminalStatus (marked.player.status ancestor.index) = true := by
    intro ancestor isAncestor
    rw [statusEq, update_of_ne (Player.ancestor_ne built live isAncestor)]
    exact sound.closed step.id live (by rw [ready]; decide) ancestor isAncestor
  have enteredLedger := @Ledger.enter ρ sequence runner start world marked.player step
    balanced.ledger built member (by simp [Player.isOpen, unentered])
    (by simp [playerEq, unentered])
    (fun index elsewhere => by simp [playerEq, elsewhere]) (by simp [playerEq])
    (by simp [playerEq]) (by rw [unused]; exact Nat.zero_le _)
    (by simpa [playerEq] using balanced.ledger.bounded step.id live) ancestorsDone now
  rw [← kept.1, ← kept.2] at enteredLedger
  have keeps : Player.Keeps world.player marked.player := by
    intro index finished
    rw [statusEq]
    apply update_of_ne
    rintro rfl
    rw [ready] at finished
    cases finished
  refine ⟨⟨enteredLedger, ?_, ?_, ?_⟩, keeps, by rw [playerEq]⟩
  · refine ⟨?_, ⟨?_, ?_⟩, ?_⟩
    · intro other otherLive
      change Agrees (marked.player.status other.index) (marked.player.runs other.index)
      by_cases same : other = step.id
      · subst other
        simp [playerEq, Agrees]
      have elsewhere : other.index ≠ step.id.index :=
        fun equal => same (built.live_eq otherLive live equal)
      rw [playerEq]
      dsimp only
      rw [update_of_ne elsewhere, update_of_ne elsewhere]
      exact sound.consistent other otherLive
    · change marked.player.frontier.Nodup
      rw [playerEq]
      exact sound.frontier.nodup
    · intro other
      change other ∈ marked.player.frontier ↔ _ ∧
        StepStatus.isActive (marked.player.status other.index) = true
      rw [statusEq, playerEq, sound.frontier.mem_iff]
      refine and_congr_right fun otherLive => ?_
      by_cases same : other = step.id
      · subst other
        rw [update_self, ready]
        exact Iff.rfl
      · rw [Player.status_update_other built live otherLive same]
    · intro other otherLive started ancestor isAncestor
      change marked.player.status other.index ≠ .pending at started
      change terminalStatus (marked.player.status ancestor.index) = true
      by_cases same : other = step.id
      · subst other
        exact ancestorsDone ancestor isAncestor
      · rw [statusEq, Player.status_update_other built live otherLive same] at started
        exact keeps.terminal (sound.closed other otherLive started ancestor isAncestor)
  · change marked.player.status step.id.index = .running
    rw [statusEq, update_self]
  · intro isFailure
    refine ⟨marked.trace, _, rfl, ?_⟩
    have answerIs : (runner.enter step now marked.runner).1 = .failure := isFailure
    simp [Event.isFailureOf, answerIs]

omit built in
theorem isLive_iff : world.isLive = true ↔
    world.player.state = .playing ∨ world.player.state = .paused := by
  simp [isLive]

omit built in
theorem going_of_isLive (isLive : world.isLive = true) : world.player.state ≠ .interrupted := by
  rcases isLive_iff.mp isLive with playing | paused
  · rw [playing]
    decide
  · rw [paused]
    decide

omit built in
theorem enterOne_idle (now : TimePoint) (idle : (world.enterOne sequence runner now id).1 = false) :
    (world.enterOne sequence runner now id).2 = world := by
  unfold enterOne at idle ⊢
  split at idle
  · rename_i notDue
    rw [if_pos notDue]
  rename_i isDue
  rw [if_neg isDue]
  split at idle
  · rfl
  · cases idle

omit built in
theorem frontier_live (balanced : Balanced sequence runner start world) :
    ∀ id ∈ world.player.frontier, sequence.Live id :=
  fun id member => ((balanced.sound.frontier.mem_iff id).mp member).1

end World

/-! ## The two passes and the loop -/

/-- What every answered tick of a running step and every answered entry of a ready one that is due
keeps, while the run is live. -/
structure TurnRule (sequence : Sequence) (runner : CommandRunner ρ) (now : TimePoint)
    (kept : World ρ → Prop) : Prop where
  live : ∀ {world : World ρ}, kept world → ∀ id ∈ world.player.frontier, sequence.Live id
  tick : ∀ {world : World ρ} {step : Step}, kept world → world.isLive = true →
    step ∈ sequence.steps → world.player.status step.id.index = .running →
    kept ((world.callTick runner step now).2.onStatus sequence runner step.id
      (world.callTick runner step now).1 now)
  enter : ∀ {world : World ρ} {step : Step}, kept world → world.isLive = true →
    step ∈ sequence.steps → world.player.status step.id.index = .ready →
    (world.player.runs step.id.index).readyAt ≤ now →
    kept (((world.markEntered sequence runner step now).callEnter runner step now).2.onStatus
      sequence runner step.id
      ((world.markEntered sequence runner step now).callEnter runner step now).1 now)

namespace TurnRule

open World

variable {now : TimePoint} {kept : World ρ → Prop} (rule : TurnRule sequence runner now kept)
  (built : sequence.Built) (holds : kept world) (isLive : world.isLive = true) {ids : List StepId}

include rule built holds isLive

theorem tickOne (live : sequence.Live id) : kept (world.tickOne sequence runner now id).2 := by
  obtain ⟨step, found, rfl, member⟩ := built.find_of_live live
  rw [World.tickOne]
  split
  · exact holds
  rename_i candidate
  rw [not_or, not_not] at candidate
  rw [found]
  dsimp only
  have answered := rule.tick holds isLive member candidate.2
  have delivered : kept
      (if (world.callTick runner step now).1 = .running then
        (false, (world.callTick runner step now).2)
      else
        (true, (world.callTick runner step now).2.onStatus sequence runner step.id
          (world.callTick runner step now).1 now)).2 := by
    split
    · rename_i isRunning
      rw [isRunning] at answered
      exact answered
    · exact answered
  split
  · split
    · exact holds
    · exact delivered
  · exact delivered

theorem enterOne (live : sequence.Live id) : kept (world.enterOne sequence runner now id).2 := by
  obtain ⟨step, found, rfl, member⟩ := built.find_of_live live
  rw [World.enterOne]
  split
  · exact holds
  rename_i candidate
  rw [not_or, not_or, not_not, Int.not_lt] at candidate
  rw [found]
  exact rule.enter holds isLive member candidate.2.1 candidate.2.2

theorem tickPass (live : ∀ id ∈ ids, sequence.Live id) (progressed : Bool) :
    kept (World.tickPass sequence runner now ids progressed world).2 := by
  induction ids generalizing world progressed with
  | nil => exact holds
  | cons id rest later =>
    have ticked := rule.tickOne built holds isLive (live id mem_cons_self)
    rw [World.tickPass]
    split
    · rename_i stillLive
      exact later ticked stillLive (fun other inRest => live other (mem_cons_of_mem _ inRest)) _
    · exact ticked

theorem enterPass (live : ∀ id ∈ ids, sequence.Live id) (progressed : Bool) :
    kept (World.enterPass sequence runner now ids progressed world).2 := by
  induction ids generalizing world progressed with
  | nil => exact holds
  | cons id rest later =>
    have restLive : ∀ other ∈ rest, sequence.Live other :=
      fun other inRest => live other (mem_cons_of_mem _ inRest)
    have entered := rule.enterOne built holds isLive (live id mem_cons_self)
    rw [World.enterPass]
    split
    · rename_i idle
      rw [enterOne_idle now idle]
      exact later holds isLive restLive _
    split
    · rename_i playing
      exact later entered (isLive_iff.mpr (.inl playing)) restLive _
    · exact entered

theorem pumpOnce : kept (world.pumpOnce sequence runner now).2 := by
  have ticked := rule.tickPass built holds isLive (rule.live holds) false
  rw [World.pumpOnce]
  split
  · rename_i playing
    exact rule.enterPass built ticked (isLive_iff.mpr (.inl playing)) (rule.live ticked) _
  · exact ticked

theorem pumpLoop (limit : Nat) : kept (world.pumpLoop sequence runner now limit) := by
  induction limit generalizing world with
  | zero => exact holds
  | succ limit later =>
    have once := rule.pumpOnce built holds isLive
    rw [World.pumpLoop]
    split
    · rename_i again
      exact later once again.2
    · exact once

end TurnRule

/-- Every turn advances the run. -/
theorem turnRule_advances (built : sequence.Built) (now : TimePoint) :
    TurnRule sequence runner now (Advances sequence runner start world) where
  live advances := World.frontier_live advances.balanced
  tick advances isLive member running := advances.trans (World.going_of_isLive isLive) <|
    (World.onStatus_advances built ⟨_, member, rfl⟩
      (World.tick_answered built advances.balanced member running now) now).of_before
        (Player.Keeps.refl _) rfl
  enter advances isLive member ready _ := by
    obtain ⟨answered, keeps, state⟩ :=
      World.enter_answered built advances.balanced member ready now
    exact advances.trans (World.going_of_isLive isLive)
      ((World.onStatus_advances built ⟨_, member, rfl⟩ answered now).of_before keeps state)

end

end Grab.Kernel
