import Grab.Sequence.Player.Ledger

/-!
# Taking steps out of a run

Exits are issued one step at a time, by the unwind, by a skip and by a jump.
`Exits` is the effect of one exit on an open step and `Sweep` the effect of a
loop over such operations: the steps outside the loop keep their status and
their record, the ledger stays balanced, and finished steps stay finished.
-/

namespace Grab.Kernel

open Grab.Sequence Grab.Lib List Function

section

variable {ρ : Type} {sequence : Sequence} {runner : CommandRunner ρ} {start : ρ}
  {due : Option StepId} {world : World ρ} {id : StepId} {middle after : World ρ} {next : StepStatus}

/-! ## One exit -/

/-- Nothing of a trace part enters or ticks, and it exits these steps. -/
structure Tears (exits : List StepId) (events : List Event) : Prop where
  exitsEq : exitsOf events = exits
  teardown : ∀ event ∈ events, event.isTeardown = true

theorem Tears.append {first second : List StepId} {left right : List Event}
    (leftTears : Tears first left) (rightTears : Tears second right) :
    Tears (first ++ second) (left ++ right) := by
  refine ⟨?_, ?_⟩
  · rw [exitsOf, filterMap_append]
    exact congrArg₂ _ leftTears.exitsEq rightTears.exitsEq
  intro event member
  rcases mem_append.mp member with inLeft | inRight
  · exact leftTears.teardown event inLeft
  · exact rightTears.teardown event inRight

theorem tears_nil : Tears [] [] := ⟨rfl, by simp⟩

/-- An open step is exited and recorded as exited; nothing else changes. -/
structure Exits (id : StepId) (before after : World ρ) : Prop where
  status : after.player.status = before.player.status
  frontier : after.player.frontier = before.player.frontier
  entryOrder : after.player.entryOrder = before.player.entryOrder
  state : after.player.state = before.player.state
  elsewhere : ∀ index, index ≠ id.index → after.player.runs index = before.player.runs index
  entered : (after.player.runs id.index).entered = (before.player.runs id.index).entered
  retries : (after.player.runs id.index).retries = (before.player.runs id.index).retries
  exited : (after.player.runs id.index).exited = true
  trace : ∃ events, after.trace = before.trace ++ events ∧ Tears [id] events

namespace Player

theorem recordExit_eq (player : Player) (outcome : NeutralizationOutcome) :
    ∃ verdict, player.recordExit outcome = { player with neutralization := verdict } := by
  unfold recordExit
  split
  · exact ⟨_, rfl⟩
  split
  · exact ⟨_, rfl⟩
  · split
    · exact ⟨_, rfl⟩
    · exact ⟨player.neutralization, rfl⟩

theorem recordNeutralization_eq (player : Player) (outcome : NeutralizationOutcome) :
    ∃ verdict, player.recordNeutralization outcome = { player with neutralization := verdict } := by
  cases outcome with
  | failed => exact ⟨_, rfl⟩
  | released | nothingHeld =>
    simp only [recordNeutralization]
    split
    · exact ⟨_, rfl⟩
    · exact ⟨player.neutralization, rfl⟩
  | notAttempted => exact ⟨player.neutralization, rfl⟩

theorem isOpen_iff {player : Player} {id : StepId} :
    player.isOpen id = true ↔
      (player.runs id.index).entered = true ∧ (player.runs id.index).exited = false := by
  simp [isOpen]

end Player

namespace World

/-! ## The two calls that release -/

/-- A step that is not open is left alone; one that is is joined if need be, exited, and the
outcome recorded. -/
theorem neutralize_cases (sequence : Sequence) (runner : CommandRunner ρ) (world : World ρ)
    (id : StepId) (now : TimePoint) :
    world.neutralize sequence runner id now = world ∨
      ∃ step state joins outcome, sequence.find id = some step ∧
        world.player.isOpen id = true ∧ (joins = [] ∨ joins = [.join step.id]) ∧
        world.neutralize sequence runner id now =
          ⟨(world.player.updateRun id fun run => { run with exited := true }).recordExit outcome,
            state, world.trace ++ joins ++ [.exit step.id now outcome]⟩ := by
  rw [neutralize]
  split
  · exact .inl rfl
  split
  · exact .inl rfl
  rename_i isOpen
  rw [not_or, Bool.not_eq_false, Bool.not_eq_true] at isOpen
  split
  · exact .inl rfl
  rename_i step found
  right
  split
  · exact ⟨step, _, [.join step.id], _, found, Player.isOpen_iff.mpr isOpen, .inr rfl, rfl⟩
  refine ⟨step, (world.callExit runner step now).2.runner, [],
    (world.callExit runner step now).1, found, Player.isOpen_iff.mpr isOpen, .inl rfl, ?_⟩
  rw [append_nil]
  rfl

theorem reapHolds_cases (sequence : Sequence) (runner : CommandRunner ρ) (world : World ρ)
    (id : StepId) :
    world.reapHolds sequence runner id = world ∨
      ∃ step state outcome, world.reapHolds sequence runner id =
        ⟨world.player.recordNeutralization outcome, state,
          world.trace ++ [.releaseHolds step outcome]⟩ := by
  rw [reapHolds]
  split
  · exact .inl rfl
  · exact .inr ⟨_, _, _, rfl⟩

/-- The player after an exit: one record is marked, and the verdict may have changed. -/
theorem neutralize_player (sequence : Sequence) (runner : CommandRunner ρ) (world : World ρ)
    (id : StepId) (now : TimePoint) :
    (world.neutralize sequence runner id now).player = world.player ∨
      ∃ verdict, (world.neutralize sequence runner id now).player =
        { world.player.updateRun id fun run => { run with exited := true } with
          neutralization := verdict } := by
  rcases world.neutralize_cases sequence runner id now with same | ⟨_, _, _, outcome, _, _, _, eq⟩
  · exact .inl (congrArg World.player same)
  · rw [eq]
    exact .inr (Player.recordExit_eq _ outcome)

variable (runner) in
/-- The exit of an open step, with its worker joined first. -/
theorem neutralize_open (built : sequence.Built) {step : Step}
    (member : step ∈ sequence.steps) (isOpen : world.player.isOpen step.id = true)
    (now : TimePoint) :
    ∃ joined : World ρ,
      (joined = world ∨ joined = world.callJoin runner step) ∧
      ∃ verdict, world.neutralize sequence runner step.id now =
        { (joined.callExit runner step now).2 with
          player :=
            { world.player.updateRun step.id fun run => { run with exited := true } with
              neutralization := verdict } } := by
  obtain ⟨entered, notExited⟩ := Player.isOpen_iff.mp isOpen
  have inside := built.index_lt member
  have expanded : world.neutralize sequence runner step.id now =
      let joined :=
        if isBlockingCommand (kindOf step.command) then world.callJoin runner step else world
      let answer := joined.callExit runner step now
      answer.2.mapPlayer fun player =>
        (player.updateRun step.id fun run =>
          { run with exited := true }).recordExit answer.1 := by
    rw [neutralize, if_neg (Nat.not_le_of_lt inside), if_neg (by simp [entered, notExited]),
      built.find_of_mem member]
  rw [expanded]
  split
  · obtain ⟨verdict, recorded⟩ := Player.recordExit_eq
      (world.player.updateRun step.id fun run => { run with exited := true })
      ((world.callJoin runner step).callExit runner step now).1
    exact ⟨_, .inr rfl, verdict, congrArg (fun player =>
      { ((world.callJoin runner step).callExit runner step now).2 with player := player })
      recorded⟩
  obtain ⟨verdict, recorded⟩ := Player.recordExit_eq
    (world.player.updateRun step.id fun run => { run with exited := true })
    (world.callExit runner step now).1
  exact ⟨_, .inl rfl, verdict, congrArg (fun player =>
    { (world.callExit runner step now).2 with player := player }) recorded⟩

theorem ledger_neutralize (built : sequence.Built) (live : sequence.Live id)
    (isOpen : world.player.isOpen id = true) (isDue : due = none ∨ due = some id)
    (now : TimePoint) (ledger : Ledger sequence runner start due world) :
    Ledger sequence runner start none (world.neutralize sequence runner id now) := by
  obtain ⟨step, member, rfl⟩ := live
  obtain ⟨joined, isJoined, verdict, exitEq⟩ := neutralize_open runner built member isOpen now
  rw [exitEq]
  rcases isJoined with rfl | rfl
  · exact ledger.exit built member isOpen isDue now rfl rfl
  · exact (ledger.join built member isOpen isDue).exit built member isOpen isDue now rfl rfl

variable (runner) in
theorem exits_neutralize (built : sequence.Built) (live : sequence.Live id)
    (isOpen : world.player.isOpen id = true) (now : TimePoint) :
    Exits id world (world.neutralize sequence runner id now) := by
  obtain ⟨step, member, rfl⟩ := live
  obtain ⟨joined, isJoined, verdict, exitEq⟩ := neutralize_open runner built member isOpen now
  rw [exitEq]
  refine ⟨rfl, rfl, rfl, rfl, ?_, ?_, ?_, ?_, ?_⟩
  · exact fun index different => update_of_ne different _ _
  · simp [Player.updateRun]
  · simp [Player.updateRun]
  · simp [Player.updateRun]
  · rcases isJoined with rfl | rfl
    · exact ⟨_, rfl, rfl, by simp [Event.isTeardown]⟩
    · exact ⟨_, append_assoc _ _ _, rfl, by simp [Event.isTeardown]⟩

/-- The exit of an open step, measured first. -/
theorem exitIfEntered_open (isOpen : world.player.isOpen id = true) (now : TimePoint) :
    world.exitIfEntered sequence runner id now =
      (world.mapPlayer fun player =>
        player.updateRun id fun run =>
          { run with callDuration := now - run.enteredAt }).neutralize sequence runner id
            now := by
  rw [exitIfEntered]
  exact if_pos (Player.isOpen_iff.mp isOpen)

theorem exitIfEntered_closed (isClosed : world.player.isOpen id = false) (now : TimePoint) :
    world.exitIfEntered sequence runner id now = world := by
  rw [exitIfEntered]
  apply if_neg
  intro isOpen
  rw [Player.isOpen_iff.mpr isOpen] at isClosed
  cases isClosed

theorem sameRuns_measure (player : Player) (id : StepId) (now : TimePoint) :
    Player.SameRuns player (player.updateRun id fun run =>
      { run with callDuration := now - run.enteredAt }) :=
  Player.sameRuns_updateRun (fun _ => rfl) (fun _ => rfl) fun _ => rfl

variable (sequence) in
theorem sameRuns_markSkipped (world : World ρ) (id : StepId) (now : TimePoint) :
    Player.SameRuns world.player (world.markSkipped sequence id now).player := by
  have timed : Player.SameRuns (world.player.setStatus sequence id .skipped)
      ((world.player.setStatus sequence id .skipped).updateRun id fun run =>
        { run with finishedAt := now }) :=
    Player.sameRuns_updateRun (fun _ => rfl) (fun _ => rfl) fun _ => rfl
  exact (Player.sameRuns_setStatus _).trans timed

theorem isOpen_of_sameRuns {before after : Player} (same : Player.SameRuns before after)
    (id : StepId) : after.isOpen id = before.isOpen id := by
  rw [Player.isOpen, Player.isOpen, same.entered, same.exited]

/-- The record of the step may be measured before the exit. -/
theorem exits_of_measured {change : StepRun → StepRun} {after : World ρ}
    (exits : Exits id (world.mapPlayer fun player => player.updateRun id change) after)
    (entered : ∀ run, (change run).entered = run.entered)
    (retries : ∀ run, (change run).retries = run.retries) : Exits id world after := by
  refine ⟨exits.status, exits.frontier, exits.entryOrder, exits.state, ?_, ?_, ?_,
    exits.exited, exits.trace⟩
  · intro index different
    exact (exits.elsewhere index different).trans (update_of_ne different _ _)
  · rw [exits.entered]
    simp [mapPlayer, Player.updateRun, entered]
  · rw [exits.retries]
    simp [mapPlayer, Player.updateRun, retries]

variable (runner) in
/-- An entered step is exited at most once more. -/
theorem exits_exitIfEntered (built : sequence.Built) (live : sequence.Live id)
    (isOpen : world.player.isOpen id = true) (now : TimePoint) :
    Exits id world (world.exitIfEntered sequence runner id now) := by
  have same := sameRuns_measure world.player id now
  rw [exitIfEntered_open isOpen]
  exact exits_of_measured (exits_neutralize runner built live
    ((isOpen_of_sameRuns same id).trans isOpen) now) (fun _ => rfl) fun _ => rfl

theorem ledger_exitIfEntered (built : sequence.Built) (live : sequence.Live id) (now : TimePoint)
    (ledger : Ledger sequence runner start none world) :
    Ledger sequence runner start none (world.exitIfEntered sequence runner id now) := by
  cases isOpen : world.player.isOpen id with
  | false =>
    rw [exitIfEntered_closed isOpen]
    exact ledger
  | true =>
    have same := sameRuns_measure world.player id now
    rw [exitIfEntered_open isOpen]
    exact ledger_neutralize built live ((isOpen_of_sameRuns same id).trans isOpen)
      (.inl rfl) now (ledger.mapPlayer same)

end World

/-! ## Loops of exits -/

/-- What a loop over `ids` may change. -/
structure Sweep (sequence : Sequence) (ids : List StepId) (before after : World ρ) : Prop where
  outside : ∀ id, sequence.Live id → id ∉ ids →
    after.player.status id.index = before.player.status id.index ∧
      after.player.isOpen id = before.player.isOpen id
  consistent : after.player.Consistent sequence
  keeps : Player.Keeps before.player after.player
  frontier : after.player.frontier = before.player.frontier
  entryOrder : after.player.entryOrder = before.player.entryOrder
  state : after.player.state = before.player.state

theorem Sweep.refl (consistent : world.player.Consistent sequence) (ids : List StepId) :
    Sweep sequence ids world world :=
  ⟨fun _ _ _ => ⟨rfl, rfl⟩, consistent, Player.Keeps.refl _, rfl, rfl, rfl⟩

theorem Sweep.cons {rest : List StepId} (first : Sweep sequence [id] world middle)
    (last : Sweep sequence rest middle after) : Sweep sequence (id :: rest) world after where
  outside other live absent := by
    rw [mem_cons, not_or] at absent
    obtain ⟨lastStatus, lastOpen⟩ := last.outside other live absent.2
    obtain ⟨firstStatus, firstOpen⟩ := first.outside other live
      fun inFirst => absent.1 (mem_singleton.mp inFirst)
    exact ⟨lastStatus.trans firstStatus, lastOpen.trans firstOpen⟩
  consistent := last.consistent
  keeps := first.keeps.trans last.keeps
  frontier := last.frontier.trans first.frontier
  entryOrder := last.entryOrder.trans first.entryOrder
  state := last.state.trans first.state

/-- A loop over distinct live steps, from what one turn does.  `pre` is asked of
the status a step has when the loop starts, which is the one it still has at its
own turn. -/
theorem sweep_foldl (turn : World ρ → StepId → World ρ)
    (pre : StepId → StepStatus → Prop) (post : StepId → StepStatus → StepStatus → Prop)
    {ids : List StepId} (live : ∀ id ∈ ids, sequence.Live id) (nodup : ids.Nodup)
    (single : ∀ (world : World ρ) (id : StepId), id ∈ ids →
      world.player.Consistent sequence → Ledger sequence runner start none world →
      pre id (world.player.status id.index) →
      Sweep sequence [id] world (turn world id) ∧
        Ledger sequence runner start none (turn world id) ∧
        post id (world.player.status id.index) ((turn world id).player.status id.index))
    (consistent : world.player.Consistent sequence)
    (ledger : Ledger sequence runner start none world)
    (ready : ∀ id ∈ ids, pre id (world.player.status id.index)) :
    Sweep sequence ids world (ids.foldl turn world) ∧
      Ledger sequence runner start none (ids.foldl turn world) ∧
      ∀ id ∈ ids, post id (world.player.status id.index)
        ((ids.foldl turn world).player.status id.index) := by
  induction ids generalizing world with
  | nil => exact ⟨Sweep.refl consistent [], ledger, by simp⟩
  | cons id rest ih =>
    rw [nodup_cons] at nodup
    obtain ⟨firstSweep, firstLedger, firstPost⟩ :=
      single world id mem_cons_self consistent ledger (ready id mem_cons_self)
    have untouched : ∀ other ∈ rest,
        (turn world id).player.status other.index = world.player.status other.index := by
      intro other inRest
      refine (firstSweep.outside other (live other (mem_cons_of_mem _ inRest)) ?_).1
      intro same
      rw [mem_singleton] at same
      exact nodup.1 (same ▸ inRest)
    obtain ⟨restSweep, restLedger, restPost⟩ := ih
      (fun other inRest => live other (mem_cons_of_mem _ inRest)) nodup.2
      (fun world other inRest => single world other (mem_cons_of_mem _ inRest))
      firstSweep.consistent firstLedger
      (fun other inRest => by
        rw [untouched other inRest]
        exact ready other (mem_cons_of_mem _ inRest))
    refine ⟨firstSweep.cons restSweep, restLedger, ?_⟩
    intro other member
    rcases mem_cons.mp member with rfl | inRest
    · rw [foldl_cons, (restSweep.outside other (live other member) nodup.1).1]
      exact firstPost
    · have postAt := restPost other inRest
      rw [untouched other inRest] at postAt
      exact postAt

variable (built : sequence.Built)

include built

variable (live : sequence.Live id)

include live

variable (consistent : world.player.Consistent sequence)

include consistent

variable (unfinished : terminalStatus (world.player.status id.index) = false)

include unfinished

/-- A turn that closes one unfinished step, or leaves it alone, and gives it another status that
fits its record. -/
theorem sweep_relabel (sameStatus : middle.player.status = world.player.status)
    (elsewhere : ∀ index, index ≠ id.index → middle.player.runs index = world.player.runs index)
    (same : Player.SameRuns middle.player after.player)
    (relabelled : after.player.status = Function.update middle.player.status id.index next)
    (frontier : after.player.frontier = world.player.frontier)
    (entryOrder : after.player.entryOrder = world.player.entryOrder)
    (state : after.player.state = world.player.state)
    (agrees : Agrees next (middle.player.runs id.index)) :
    Sweep sequence [id] world after ∧ after.player.status id.index = next := by
  rw [sameStatus] at relabelled
  refine ⟨⟨?_, ?_, ?_, frontier, entryOrder, state⟩, ?_⟩
  · intro other otherLive absent
    rw [mem_singleton] at absent
    rw [relabelled, Player.status_update_other built live otherLive absent,
      World.isOpen_of_sameRuns same, Player.isOpen, Player.isOpen,
      elsewhere _ fun equal => absent (built.live_eq otherLive live equal)]
    exact ⟨rfl, rfl⟩
  · intro other otherLive
    apply same.agrees
    rw [relabelled]
    by_cases different : other = id
    · subst other
      rw [update_self]
      exact agrees
    · rw [Player.status_update_other built live otherLive different,
        elsewhere _ fun equal => different (built.live_eq otherLive live equal)]
      exact consistent other otherLive
  · intro index finished
    rw [relabelled]
    apply update_of_ne
    rintro rfl
    rw [unfinished] at finished
    cases finished
  · rw [relabelled, update_self]

/-- Give an unfinished step another status that fits its record. -/
theorem sweep_setStatus (agrees : Agrees next (world.player.runs id.index)) :
    Sweep sequence [id] world (world.mapPlayer fun player => player.setStatus sequence id next) ∧
      (world.mapPlayer fun player =>
        player.setStatus sequence id next).player.status id.index = next :=
  have same := Player.sameRuns_setStatus next
  sweep_relabel built live consistent unfinished rfl (fun _ _ => rfl) same
    (Player.status_setStatus (built.live_lt live) next) (Player.frontier_setStatus _)
    same.entryOrder (Player.state_setStatus _) agrees

/-- Exit a step if it is open and mark it skipped. -/
theorem sweep_exit (now : TimePoint) :
    let after := (world.exitIfEntered sequence runner id now).markSkipped sequence id now
    Sweep sequence [id] world after ∧ after.player.status id.index = .skipped := by
  generalize exitEq : world.exitIfEntered sequence runner id now = exited
  intro after
  have relabelled : after.player.status = Function.update exited.player.status id.index .skipped :=
    Player.status_setStatus (built.live_lt live) _
  have same := World.sameRuns_markSkipped sequence exited id now
  cases isOpen : world.player.isOpen id with
  | false =>
    rw [World.exitIfEntered_closed isOpen] at exitEq
    subst exited
    refine sweep_relabel built live consistent unfinished rfl (fun _ _ => rfl) same relabelled
      (Player.frontier_setStatus _) same.entryOrder (Player.state_setStatus _) fun entered => ?_
    rw [Player.isOpen, entered, Bool.true_and, Bool.not_eq_false'] at isOpen
    exact isOpen
  | true =>
    have exits := World.exits_exitIfEntered runner built live isOpen now
    rw [exitEq] at exits
    exact sweep_relabel built live consistent unfinished exits.status exits.elsewhere same
      relabelled ((Player.frontier_setStatus _).trans exits.frontier)
      (same.entryOrder.trans exits.entryOrder) ((Player.state_setStatus _).trans exits.state)
      fun _ => exits.exited

omit unfinished consistent live built

theorem ledger_markSkipped (now : TimePoint) (ledger : Ledger sequence runner start due world) :
    Ledger sequence runner start due (world.markSkipped sequence id now) :=
  ledger.bookkeeping (World.sameRuns_markSkipped sequence world id now)

theorem skip_unfinished (built : sequence.Built) (live : sequence.Live id)
    (consistent : world.player.Consistent sequence)
    (ledger : Ledger sequence runner start none world)
    (unfinished : terminalStatus (world.player.status id.index) = false) (now : TimePoint) :
    let after := (world.exitIfEntered sequence runner id now).markSkipped sequence id now
    Sweep sequence [id] world after ∧ Ledger sequence runner start none after ∧
      after.player.status id.index = .skipped := by
  obtain ⟨sweep, skipped⟩ := sweep_exit built live consistent unfinished now
  exact ⟨sweep, ledger_markSkipped now (World.ledger_exitIfEntered built live now ledger), skipped⟩

end

end Grab.Kernel
