import Grab.Sequence.Player.Jump

/-!
# Unwinding and skipping

The unwind exits the open steps in reverse entry order, lifts what the exited
ones left down, and marks the rest of the frontier skipped.  A skip does the
same for the frontier alone and then walks the successors of its members.
-/

namespace Grab.Kernel

open Grab.Sequence Grab.Lib List Bool

section

variable {ρ : Type} {sequence : Sequence} {runner : CommandRunner ρ} {start : ρ} {world : World ρ}
  {player : Player} {id : StepId}

/-! ## Emptying the frontier -/

/-- Once every active step is finished, an empty frontier is sound. -/
theorem sound_of_finished {before after : Player}
    (sound : before.Sound sequence) (consistent : after.Consistent sequence)
    (keeps : Player.Keeps before after)
    (finished : ∀ id ∈ before.frontier, terminalStatus (after.status id.index) = true)
    (outside : ∀ id, sequence.Live id → id ∉ before.frontier →
      after.status id.index = before.status id.index)
    (emptyFrontier : after.frontier = []) : after.Sound sequence := by
  refine ⟨consistent, ⟨?_, ?_⟩, ?_⟩
  · rw [emptyFrontier]
    exact nodup_nil
  · intro id
    rw [emptyFrontier]
    refine ⟨fun impossible => absurd impossible not_mem_nil, ?_⟩
    rintro ⟨live, active⟩
    by_cases member : id ∈ before.frontier
    · have terminal := finished id member
      rw [terminalStatus_of_isActive active] at terminal
      cases terminal
    · rw [outside id live member] at active
      exact absurd ((sound.frontier.mem_iff id).mpr ⟨live, active⟩) member
  · intro id live started ancestor isAncestor
    apply keeps.terminal
    refine sound.closed id live ?_ ancestor isAncestor
    by_cases member : id ∈ before.frontier
    · have active := ((sound.frontier.mem_iff id).mp member).2
      intro pending
      rw [pending] at active
      cases active
    · rw [← outside id live member]
      exact started

/-- With an empty frontier nothing is open. -/
theorem closed_of_empty (sound : player.Sound sequence) (emptyFrontier : player.frontier = [])
    (live : sequence.Live id) : player.isOpen id = false := by
  have inactive : ¬StepStatus.isActive (player.status id.index) = true := by
    intro active
    have member := (sound.frontier.mem_iff id).mpr ⟨live, active⟩
    rw [emptyFrontier] at member
    exact not_mem_nil member
  rw [← not_eq_true, Player.isOpen_iff]
  rintro ⟨entered, notExited⟩
  have agrees := sound.consistent id live
  revert agrees inactive
  cases player.status id.index <;> simp [Agrees, StepStatus.isActive, entered, notExited]

/-- Being open is the same as running. -/
theorem isOpen_iff_running (consistent : player.Consistent sequence) (live : sequence.Live id) :
    player.isOpen id = true ↔ player.status id.index = .running := by
  have agrees := consistent id live
  rw [Player.isOpen_iff]
  revert agrees
  cases player.status id.index <;> simp +contextual [Agrees]

namespace World

/-! ## The unwind -/

/-- What the unwind makes of an entered step. -/
def Unwound (_ : StepId) (before after : StepStatus) : Prop :=
  after = if before = .running then .skipped else before

variable (built : sequence.Built)

include built

theorem ledger_reapHolds {step : Step} (member : step ∈ sequence.steps)
    (isClosed : world.player.isOpen step.id = false)
    (ledger : Ledger sequence runner start none world) :
    Ledger sequence runner start none (world.reapHolds sequence runner step.id) ∧
      ∃ verdict, (world.reapHolds sequence runner step.id).player =
        { world.player with neutralization := verdict } := by
  rw [reapHolds, built.find_of_mem member]
  obtain ⟨verdict, recorded⟩ := Player.recordNeutralization_eq world.player
    (world.callReleaseHolds runner step).1
  have playerEq : ((world.callReleaseHolds runner step).2.mapPlayer fun player =>
      player.recordNeutralization (world.callReleaseHolds runner step).1).player =
        { world.player with neutralization := verdict } := recorded
  refine ⟨?_, verdict, playerEq⟩
  refine (ledger.releaseHolds built member isClosed).mapPlayer ?_
  exact recorded ▸ Player.SameRuns.of_eq rfl rfl

variable (now : TimePoint)

/-- One turn of the unwind, with what it asks of the runner. -/
theorem unwindEntered_single (world : World ρ) (id : StepId) (live : sequence.Live id)
    (entered : (world.player.runs id.index).entered = true)
    (consistent : world.player.Consistent sequence)
    (ledger : Ledger sequence runner start none world) :
    Sweep sequence [id] world (unwindEntered sequence runner now world id) ∧
      Ledger sequence runner start none (unwindEntered sequence runner now world id) ∧
      Unwound id (world.player.status id.index)
        ((unwindEntered sequence runner now world id).player.status id.index) ∧
      ∃ events, (unwindEntered sequence runner now world id).trace = world.trace ++ events ∧
        Tears ([id].filter world.player.isOpen) events ∧
        ∃ event ∈ events, event.isReleaseOf id = true := by
  have inside := built.live_lt live
  rw [unwindEntered, if_neg (Nat.not_le_of_lt inside), if_neg (by simp [entered])]
  cases isOpen : world.player.isOpen id with
  | false =>
    have exited : (world.player.runs id.index).exited = true := by
      rw [Player.isOpen, entered, Bool.true_and, Bool.not_eq_false'] at isOpen
      exact isOpen
    have notRunning : world.player.status id.index ≠ .running := by
      intro running
      rw [(isOpen_iff_running consistent live).mpr running] at isOpen
      cases isOpen
    rw [if_pos exited]
    obtain ⟨step, member, rfl⟩ := live
    obtain ⟨reaped, verdict, playerEq⟩ := ledger_reapHolds built member isOpen ledger
    refine ⟨⟨?_, ?_, ?_, ?_, ?_, ?_⟩, reaped, ?_, ?_⟩
    · rw [playerEq]
      exact fun _ _ _ => ⟨rfl, rfl⟩
    · rw [playerEq]
      exact consistent
    · rw [playerEq]
      exact fun _ _ => rfl
    · rw [playerEq]
    · rw [playerEq]
    · rw [playerEq]
    · rw [Unwound, if_neg notRunning, playerEq]
    rw [reapHolds, built.find_of_mem member]
    refine ⟨_, rfl, ⟨?_, ?_⟩, _, mem_singleton_self _, ?_⟩
    · rw [filter_singleton, isOpen]
      rfl
    · simp [Event.isTeardown]
    · simp [Event.isReleaseOf]
  | true =>
    have notExited := (Player.isOpen_iff.mp isOpen).2
    have running := (isOpen_iff_running consistent live).mp isOpen
    have unfinished : terminalStatus (world.player.status id.index) = false := by
      rw [running]
      rfl
    have exits := exits_exitIfEntered runner built live isOpen now
    obtain ⟨sweep, kept, skipped⟩ := skip_unfinished built live consistent ledger unfinished now
    rw [if_neg (by simp [notExited])]
    dsimp only
    rw [← exitIfEntered_open isOpen, exits.status, unfinished, if_neg Bool.false_ne_true]
    refine ⟨sweep, kept, ?_, ?_⟩
    · rw [skipped, Unwound, if_pos running]
    obtain ⟨events, traceEq, tears⟩ := exits.trace
    refine ⟨events, traceEq, ?_, ?_⟩
    · rw [filter_singleton, isOpen]
      exact tears
    have exited : id ∈ exitsOf events := by
      rw [tears.exitsEq]
      exact mem_singleton_self id
    obtain ⟨event, member, isExit⟩ := mem_filterMap.mp exited
    refine ⟨event, member, ?_⟩
    cases event <;> simp_all [Event.isReleaseOf]

/-- The first loop of the unwind asks for exactly the exits of the open steps,
in the order of its list, and reaches every step of it. -/
theorem unwindEntered_loop {ids : List StepId} (inOrder : ids ⊆ world.player.entryOrder)
    (nodup : ids.Nodup) (consistent : world.player.Consistent sequence)
    (ledger : Ledger sequence runner start none world) :
    let unwound := ids.foldl (unwindEntered sequence runner now) world
    Sweep sequence ids world unwound ∧ Ledger sequence runner start none unwound ∧
      (∀ id ∈ ids, Unwound id (world.player.status id.index) (unwound.player.status id.index)) ∧
      ∃ events, unwound.trace = world.trace ++ events ∧
        Tears (ids.filter world.player.isOpen) events ∧
        ∀ id ∈ ids, ∃ event ∈ events, event.isReleaseOf id = true := by
  induction ids generalizing world with
  | nil =>
    exact ⟨Sweep.refl consistent [], ledger, by simp, [], by simp, tears_nil, by simp⟩
  | cons id rest ih =>
    rw [nodup_cons] at nodup
    obtain ⟨isLive, isEntered⟩ := (ledger.entered id).mp (inOrder mem_cons_self)
    have restInOrder : rest ⊆ world.player.entryOrder :=
      fun _ inRest => inOrder (mem_cons_of_mem _ inRest)
    obtain ⟨firstSweep, firstLedger, firstPost, firstEvents, firstTrace, firstTears,
      firstRelease⟩ := unwindEntered_single built now world id isLive isEntered consistent ledger
    have untouched : ∀ other ∈ rest,
        (unwindEntered sequence runner now world id).player.status other.index =
            world.player.status other.index ∧
          (unwindEntered sequence runner now world id).player.isOpen other =
            world.player.isOpen other := by
      intro other inRest
      apply firstSweep.outside other ((ledger.entered other).mp (restInOrder inRest)).1
      intro same
      rw [mem_singleton] at same
      exact nodup.1 (same ▸ inRest)
    obtain ⟨restSweep, restLedger, restPost, restEvents, restTrace, restTears, restRelease⟩ :=
      ih (firstSweep.entryOrder ▸ restInOrder) nodup.2 firstSweep.consistent firstLedger
    have restOpen : rest.filter (unwindEntered sequence runner now world id).player.isOpen =
        rest.filter world.player.isOpen :=
      filter_congr fun other inRest => (untouched other inRest).2
    refine ⟨firstSweep.cons restSweep, restLedger, ?_, firstEvents ++ restEvents, ?_, ?_, ?_⟩
    · intro other member
      rcases mem_cons.mp member with rfl | inRest
      · rw [foldl_cons, (restSweep.outside other isLive nodup.1).1]
        exact firstPost
      · have post := restPost other inRest
        rw [(untouched other inRest).1] at post
        exact post
    · rw [foldl_cons, restTrace, firstTrace, append_assoc]
    · rw [← singleton_append, filter_append, ← restOpen]
      exact firstTears.append restTears
    · intro other member
      rcases mem_cons.mp member with rfl | inRest
      · obtain ⟨event, inEvents, isRelease⟩ := firstRelease
        exact ⟨event, mem_append_left _ inEvents, isRelease⟩
      · obtain ⟨event, inEvents, isRelease⟩ := restRelease other inRest
        exact ⟨event, mem_append_right _ inEvents, isRelease⟩

theorem unwindReady_single (world : World ρ) (id : StepId) (live : sequence.Live id)
    (consistent : world.player.Consistent sequence)
    (ledger : Ledger sequence runner start none world)
    (notRunning : world.player.status id.index ≠ .running) :
    Sweep sequence [id] world (unwindReady sequence now world id) ∧
      Ledger sequence runner start none (unwindReady sequence now world id) ∧
      terminalStatus ((unwindReady sequence now world id).player.status id.index) = true := by
  rw [unwindReady]
  cases finished : terminalStatus (world.player.status id.index) with
  | true =>
    rw [if_neg (by simp)]
    exact ⟨Sweep.refl consistent _, ledger, finished⟩
  | false =>
    have isClosed : world.player.isOpen id = false := by
      rw [← not_eq_true, isOpen_iff_running consistent live]
      exact notRunning
    have spec := skip_unfinished built live consistent ledger finished now
    rw [exitIfEntered_closed isClosed] at spec
    rw [if_pos ⟨built.live_lt live, rfl⟩]
    exact ⟨spec.1, spec.2.1, congrArg terminalStatus spec.2.2⟩

omit built in
theorem unwindReady_trace (now : TimePoint) (ids : List StepId) (world : World ρ) :
    (ids.foldl (unwindReady sequence now) world).trace = world.trace := by
  induction ids generalizing world with
  | nil => rfl
  | cons id rest ih =>
    rw [foldl_cons, ih, unwindReady]
    split <;> rfl

/-- What an unwind leaves behind. -/
structure IsUnwound (sequence : Sequence) (runner : CommandRunner ρ) (start : ρ)
    (before after : World ρ) : Prop where
  balanced : Balanced sequence runner start after
  keeps : Player.Keeps before.player after.player
  state : after.player.state = before.player.state
  frontier : after.player.frontier = []
  entryOrder : after.player.entryOrder = before.player.entryOrder
  trace : ∃ events, after.trace = before.trace ++ events ∧
    Tears (before.player.entryOrder.filter before.player.isOpen).reverse events ∧
    ∀ id ∈ before.player.entryOrder, ∃ event ∈ events, event.isReleaseOf id = true

omit built in
theorem nodup_firstEntered (trace : List Event) : (firstEntered trace).Nodup := by
  induction trace using List.reverseRecOn with
  | nil => exact nodup_nil
  | append_singleton trace event ih =>
    rw [firstEntered_append]
    cases event with
    | enter id _ _ _ =>
      dsimp only
      split
      · exact ih
      rename_i absent
      exact nodup_append.mpr ⟨ih, nodup_singleton id, by
        intro member inOld single isSingle same
        rw [mem_singleton.mp isSingle] at same
        exact absent (same ▸ inOld)⟩
    | _ => exact ih

theorem unwind_spec (balanced : Balanced sequence runner start world) (now : TimePoint) :
    IsUnwound sequence runner start world (world.unwind sequence runner now) := by
  have sound := balanced.sound
  have nodup : world.player.entryOrder.reverse.Nodup := by
    rw [nodup_reverse, ← balanced.ledger.order]
    exact nodup_firstEntered _
  have inOrder : world.player.entryOrder.reverse ⊆ world.player.entryOrder :=
    fun _ member => mem_reverse.mp member
  obtain ⟨enteredSweep, enteredLedger, enteredPost, events, traceEq, tears, release⟩ :=
    unwindEntered_loop built now inOrder nodup sound.consistent balanced.ledger
  generalize exitedEq : world.player.entryOrder.reverse.foldl
    (unwindEntered sequence runner now) world = exited at *
  have exitedFrontier := enteredSweep.frontier
  have exitedStatus : ∀ id, sequence.Live id →
      Unwound id (world.player.status id.index) (exited.player.status id.index) := by
    intro id live
    by_cases member : id ∈ world.player.entryOrder
    · exact enteredPost id (mem_reverse.mpr member)
    rw [(enteredSweep.outside id live fun inside => member (inOrder inside)).1, Unwound, if_neg]
    intro running
    have isOpen := (isOpen_iff_running sound.consistent live).mpr running
    exact member ((balanced.ledger.entered id).mpr ⟨live, (Player.isOpen_iff.mp isOpen).1⟩)
  have noneRunning : ∀ id, sequence.Live id → exited.player.status id.index ≠ .running := by
    intro id live running
    have unwound := exitedStatus id live
    rw [running, Unwound] at unwound
    split at unwound
    · cases unwound
    · rename_i notRunning
      exact notRunning unwound.symm
  have frontierLive : ∀ id ∈ exited.player.frontier, sequence.Live id := by
    intro id member
    rw [exitedFrontier] at member
    exact ((sound.frontier.mem_iff id).mp member).1
  obtain ⟨readySweep, readyLedger, readyTerminal⟩ := sweep_foldl (unwindReady sequence now)
    (fun _ status => status ≠ .running) (fun _ _ after => terminalStatus after = true)
    frontierLive (by rw [exitedFrontier]; exact sound.frontier.nodup)
    (fun world id member => unwindReady_single built now world id (frontierLive id member))
    enteredSweep.consistent enteredLedger
    (fun id member => noneRunning id (frontierLive id member))
  have unwindEq : world.unwind sequence runner now =
      (exited.player.frontier.foldl (unwindReady sequence now) exited).mapPlayer
        fun player => { player with frontier := [] } := by
    rw [unwind, exitedEq]
  generalize settledEq :
    exited.player.frontier.foldl (unwindReady sequence now) exited = settled at *
  have keeps : Player.Keeps world.player settled.player := enteredSweep.keeps.trans readySweep.keeps
  rw [unwindEq]
  have emptied : Player.SameRuns settled.player { settled.player with frontier := [] } :=
    Player.SameRuns.of_eq rfl rfl
  refine ⟨⟨readyLedger.mapPlayer emptied, ?_⟩, keeps,
    readySweep.state.trans enteredSweep.state, rfl,
    readySweep.entryOrder.trans enteredSweep.entryOrder, events, ?_, ?_, ?_⟩
  · refine sound_of_finished sound readySweep.consistent keeps ?_ ?_ rfl
    · intro id member
      exact readyTerminal id (exitedFrontier ▸ member)
    · intro id live absent
      have unwound := exitedStatus id live
      rw [Unwound, if_neg] at unwound
      · exact (readySweep.outside id live (exitedFrontier ▸ absent)).1.trans unwound
      · intro running
        exact absent ((sound.frontier.mem_iff id).mpr ⟨live, by rw [running]; rfl⟩)
  · rw [← traceEq]
    exact (congrArg World.trace settledEq).symm.trans (unwindReady_trace now _ _)
  · rw [← filter_reverse]
    exact tears
  · exact fun id member => release id (mem_reverse.mpr member)

/-! ## Skipping the frontier -/

theorem skipMember_single (now : TimePoint) (world : World ρ) (id : StepId)
    (live : sequence.Live id) (consistent : world.player.Consistent sequence)
    (ledger : Ledger sequence runner start none world)
    (unfinished : terminalStatus (world.player.status id.index) = false) :
    Sweep sequence [id] world (skipMember sequence runner now world id) ∧
      Ledger sequence runner start none (skipMember sequence runner now world id) ∧
      terminalStatus ((skipMember sequence runner now world id).player.status id.index) =
        true := by
  obtain ⟨sweep, kept, skipped⟩ := skip_unfinished built live consistent ledger unfinished now
  rw [skipMember, if_neg (Nat.not_le_of_lt (built.live_lt live))]
  exact ⟨sweep, kept, congrArg terminalStatus skipped⟩

variable (balanced : Balanced sequence runner start world)

include balanced

theorem balanced_admitSuccessors (id : StepId) :
    Balanced sequence runner start (world.admitSuccessors sequence id) ∧
      Player.Bookkeeping world.player (world.admitSuccessors sequence id).player := by
  obtain ⟨sound, bookkeeping⟩ := balanced.sound.admitSuccessors built id
  exact ⟨balanced.bookkeeping sound bookkeeping.runs, bookkeeping⟩

/-- A skip on a live run, before it settles. -/
theorem skip_spec (now : TimePoint) :
    let emptied := world.mapPlayer fun player => { player with frontier := [] }
    let skipped := world.player.frontier.foldl (skipMember sequence runner now) emptied
    let admitted := world.player.frontier.foldl (admitSuccessors sequence) skipped
    Balanced sequence runner start admitted ∧
      Player.Keeps world.player admitted.player ∧
      admitted.player.state = world.player.state := by
  intro emptied skipped admitted
  have sound := balanced.sound
  have emptiedLedger : Ledger sequence runner start none emptied :=
    balanced.ledger.bookkeeping (Player.SameRuns.of_eq rfl rfl)
  have emptiedConsistent : emptied.player.Consistent sequence := sound.consistent
  have frontierLive : ∀ id ∈ world.player.frontier, sequence.Live id :=
    fun id member => ((sound.frontier.mem_iff id).mp member).1
  have unfinished : ∀ id ∈ world.player.frontier,
      terminalStatus (emptied.player.status id.index) = false :=
    fun id member => terminalStatus_of_isActive ((sound.frontier.mem_iff id).mp member).2
  obtain ⟨sweep, ledger, terminal⟩ := sweep_foldl (skipMember sequence runner now)
    (fun _ status => terminalStatus status = false)
    (fun _ _ after => terminalStatus after = true) frontierLive sound.frontier.nodup
    (fun world id member => skipMember_single built now world id (frontierLive id member))
    emptiedConsistent emptiedLedger unfinished
  have skippedBalanced : Balanced sequence runner start skipped :=
    ⟨ledger, sound_of_finished sound sweep.consistent sweep.keeps terminal
      (fun id live absent => (sweep.outside id live absent).1) sweep.frontier⟩
  have admission : ∀ (ids : List StepId) (world : World ρ),
      Balanced sequence runner start world →
      Balanced sequence runner start (ids.foldl (admitSuccessors sequence) world) ∧
        Player.Bookkeeping world.player (ids.foldl (admitSuccessors sequence) world).player := by
    intro ids
    induction ids with
    | nil => exact fun world balanced => ⟨balanced, Player.Bookkeeping.refl _⟩
    | cons id rest ih =>
      intro world balanced
      obtain ⟨firstBalanced, first⟩ := balanced_admitSuccessors built balanced id
      obtain ⟨restBalanced, later⟩ := ih _ firstBalanced
      exact ⟨restBalanced, first.trans later⟩
  obtain ⟨admittedBalanced, bookkeeping⟩ := admission world.player.frontier skipped skippedBalanced
  exact ⟨admittedBalanced, sweep.keeps.trans bookkeeping.keeps, bookkeeping.state.trans sweep.state⟩

end World

end

end Grab.Kernel
