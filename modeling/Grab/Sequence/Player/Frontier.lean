import Grab.Sequence.Player.Trace

/-!
# The run state of a player

What holds of the status table, the run records and the frontier between two
calls on a player, and how the operations that touch the player alone keep it:
the successor walk, the admission of the roots, and the retirement of a step.
-/

namespace Grab.Kernel

open Grab.Sequence Grab.Lib List Function Option

/-- A step that is ready or running. -/
def StepStatus.isActive (status : StepStatus) : Bool := status == .ready || status == .running

/-- A status and the run record it goes with. -/
def Agrees (status : StepStatus) (run : StepRun) : Prop :=
  match status with
  | .pending | .ready => run.entered = false
  | .running => run.entered = true ∧ run.exited = false
  | _ => run.entered = true → run.exited = true

variable {status : StepStatus}

theorem terminalStatus_of_isActive (active : StepStatus.isActive status = true) :
    terminalStatus status = false := by
  cases status <;> first | rfl | cases active

theorem agrees_terminal {run : StepRun} (terminal : terminalStatus status = true)
    (closed : run.entered = true → run.exited = true) : Agrees status run := by
  cases status <;> first | exact closed | cases terminal

namespace Player

/-- Entered and not exited yet. -/
def isOpen (player : Player) (id : StepId) : Bool :=
  (player.runs id.index).entered && !(player.runs id.index).exited

/-- The two representations of progress agree on every step. -/
def Consistent (sequence : Sequence) (player : Player) : Prop :=
  ∀ id, sequence.Live id → Agrees (player.status id.index) (player.runs id.index)

/-- The frontier is a duplicate-free list of the active steps. -/
structure FrontierExact (sequence : Sequence) (player : Player) : Prop where
  nodup : player.frontier.Nodup
  mem_iff : ∀ id, id ∈ player.frontier ↔
    sequence.Live id ∧ StepStatus.isActive (player.status id.index) = true

/-- A step that left `pending` has only terminal ancestors. -/
def AncestorClosed (sequence : Sequence) (player : Player) : Prop :=
  ∀ id, sequence.Live id → player.status id.index ≠ .pending →
    ∀ ancestor, sequence.Ancestor ancestor id → terminalStatus (player.status ancestor.index) = true

/-- What holds of the run state between two calls. -/
structure Sound (sequence : Sequence) (player : Player) : Prop where
  consistent : player.Consistent sequence
  frontier : player.FrontierExact sequence
  closed : player.AncestorClosed sequence

/-- Terminal statuses are final. -/
def Keeps (before after : Player) : Prop :=
  ∀ index, terminalStatus (before.status index) = true → after.status index = before.status index

variable (player : Player)

theorem Keeps.refl : Keeps player player := fun _ _ => rfl

variable {first second third : Player} {before after : Player} {index : Nat}

theorem Keeps.trans (left : Keeps first second) (right : Keeps second third) :
    Keeps first third := by
  intro index terminal
  rw [right index (by rw [left index terminal]; exact terminal), left index terminal]

theorem Keeps.terminal (keeps : Keeps before after)
    (terminal : terminalStatus (before.status index) = true) :
    terminalStatus (after.status index) = true := by
  rw [keeps index terminal]
  exact terminal

/-- The parts of the run records that decide what the runner may be asked. -/
structure SameRuns (before after : Player) : Prop where
  entryOrder : after.entryOrder = before.entryOrder
  entered : ∀ index, (after.runs index).entered = (before.runs index).entered
  exited : ∀ index, (after.runs index).exited = (before.runs index).exited
  retries : ∀ index, (after.runs index).retries = (before.runs index).retries

theorem SameRuns.refl : SameRuns player player := ⟨rfl, fun _ => rfl, fun _ => rfl, fun _ => rfl⟩

theorem SameRuns.of_eq (orderEq : after.entryOrder = before.entryOrder)
    (runsEq : after.runs = before.runs) : SameRuns before after :=
  ⟨orderEq, fun _ => by rw [runsEq], fun _ => by rw [runsEq], fun _ => by rw [runsEq]⟩

theorem SameRuns.trans (left : SameRuns first second) (right : SameRuns second third) :
    SameRuns first third :=
  ⟨right.entryOrder.trans left.entryOrder,
    fun index => (right.entered index).trans (left.entered index),
    fun index => (right.exited index).trans (left.exited index),
    fun index => (right.retries index).trans (left.retries index)⟩

/-- Bookkeeping: nothing the runner is told about changes, and nothing
finished is touched. -/
structure Bookkeeping (before after : Player) : Prop where
  runs : SameRuns before after
  keeps : Keeps before after
  state : after.state = before.state

theorem Bookkeeping.refl : Bookkeeping player player :=
  ⟨SameRuns.refl player, Keeps.refl player, rfl⟩

theorem Bookkeeping.trans (left : Bookkeeping first second) (right : Bookkeeping second third) :
    Bookkeeping first third :=
  ⟨left.runs.trans right.runs, left.keeps.trans right.keeps, right.state.trans left.state⟩

theorem SameRuns.agrees (same : SameRuns before after)
    (agrees : Agrees status (before.runs index)) : Agrees status (after.runs index) := by
  cases status <;> simpa [Agrees, same.entered, same.exited] using agrees

section

variable {sequence : Sequence} {player : Player} {id other : StepId}

/-! ## Single updates -/

theorem status_setStatus (inside : id.index < sequence.steps.length) (next : StepStatus) :
    (player.setStatus sequence id next).status = Function.update player.status id.index next := by
  rw [setStatus, if_neg (Nat.not_le_of_lt inside)]

variable (next : StepStatus) (readyAt : TimePoint)

theorem sameRuns_setStatus : SameRuns player (player.setStatus sequence id next) := by
  rw [setStatus]
  split <;> exact SameRuns.of_eq rfl rfl

@[simp]
theorem frontier_setStatus : (player.setStatus sequence id next).frontier = player.frontier := by
  rw [setStatus]
  split <;> rfl

@[simp]
theorem state_setStatus : (player.setStatus sequence id next).state = player.state := by
  rw [setStatus]
  split <;> rfl

theorem sameRuns_updateRun {change : StepRun → StepRun}
    (entered : ∀ run, (change run).entered = run.entered)
    (exited : ∀ run, (change run).exited = run.exited)
    (retries : ∀ run, (change run).retries = run.retries) :
    SameRuns player (player.updateRun id change) := by
  refine ⟨rfl, ?_, ?_, ?_⟩ <;> intro index <;>
    by_cases here : index = id.index <;>
    simp [updateRun, here, entered, exited, retries]

@[simp]
theorem status_admitToFrontier :
    (player.admitToFrontier sequence id readyAt).status = player.status := by
  unfold admitToFrontier
  split <;> rfl

@[simp]
theorem state_admitToFrontier :
    (player.admitToFrontier sequence id readyAt).state = player.state := by
  unfold admitToFrontier
  split <;> rfl

@[simp]
theorem frontier_admitToFrontier :
    (player.admitToFrontier sequence id readyAt).frontier = player.frontier ++ [id] := by
  unfold admitToFrontier
  split <;> rfl

theorem sameRuns_admitToFrontier :
    SameRuns player (player.admitToFrontier sequence id readyAt) := by
  unfold admitToFrontier
  split
  · have timed : SameRuns player (player.updateRun id fun run =>
        { run with readyAt := readyAt }) :=
      sameRuns_updateRun (fun _ => rfl) (fun _ => rfl) fun _ => rfl
    exact timed.trans (SameRuns.of_eq rfl rfl)
  · exact SameRuns.of_eq rfl rfl

end

section

variable {sequence : Sequence} (built : sequence.Built) {player : Player} {id : StepId}
  {ancestor : StepId} {step : Step}

include built

theorem status_update_other {other : StepId} (live : sequence.Live id)
    (otherLive : sequence.Live other) (different : other ≠ id) (next : StepStatus) :
    Function.update player.status id.index next other.index = player.status other.index := by
  apply update_of_ne
  exact fun same => different (built.live_eq otherLive live same)

/-- Nothing ran before a step becomes active: its ancestors are other steps. -/
theorem ancestor_ne (live : sequence.Live id) (isAncestor : sequence.Ancestor ancestor id) :
    ancestor.index ≠ id.index := by
  intro same
  have equal := built.live_eq (built.ancestor_live isAncestor) live same
  rw [equal] at isAncestor
  exact built.acyclic id isAncestor

/-- The ancestors of a step are its predecessors and their ancestors. -/
theorem terminal_ancestors (closed : player.AncestorClosed sequence)
    (member : step ∈ sequence.steps)
    (finished : ∀ predecessor ∈ step.after, terminalStatus (player.status predecessor.index) = true)
    (isAncestor : sequence.Ancestor ancestor step.id) :
    terminalStatus (player.status ancestor.index) = true := by
  obtain ⟨predecessor, path, edge⟩ := Relation.TransGen.tail'_iff.mp isAncestor
  obtain ⟨owner, ownerMem, ownerEq, inAfter⟩ := edge
  have ownerIs : owner = step := by
    have found := built.find_of_mem ownerMem
    rw [ownerEq, built.find_of_mem member] at found
    exact (some.inj found).symm
  subst owner
  have predecessorTerminal := finished predecessor inAfter
  rcases (Relation.reflTransGen_iff_eq_or_transGen.mp path) with same | strict
  · rw [← same]
    exact predecessorTerminal
  refine closed predecessor (built.afterLive step member predecessor inAfter) ?_ ancestor strict
  intro pending
  rw [pending] at predecessorTerminal
  cases predecessorTerminal

theorem bookkeeping_activate (live : sequence.Live id)
    (unfinished : terminalStatus (player.status id.index) = false) (readyAt : TimePoint) :
    Bookkeeping player
      ((player.setStatus sequence id .ready).admitToFrontier sequence id readyAt) := by
  refine ⟨(sameRuns_setStatus _).trans (sameRuns_admitToFrontier _), ?_, ?_⟩
  · intro index terminal
    rw [status_admitToFrontier, status_setStatus (built.live_lt live)]
    apply update_of_ne
    rintro rfl
    rw [unfinished] at terminal
    cases terminal
  · rw [state_admitToFrontier, state_setStatus]

/-- A pending step whose ancestors are all terminal may be put on the frontier. -/
theorem Sound.activate (sound : player.Sound sequence) (live : sequence.Live id)
    (pending : player.status id.index = .pending)
    (finished : ∀ ancestor, sequence.Ancestor ancestor id →
      terminalStatus (player.status ancestor.index) = true) (readyAt : TimePoint) :
    ((player.setStatus sequence id .ready).admitToFrontier sequence id readyAt).Sound
      sequence := by
  have inside := built.live_lt live
  have same : SameRuns player
      ((player.setStatus sequence id .ready).admitToFrontier sequence id readyAt) :=
    (sameRuns_setStatus _).trans (sameRuns_admitToFrontier _)
  have absent : id ∉ player.frontier := by
    rw [sound.frontier.mem_iff, pending]
    exact fun active => Bool.false_ne_true active.2
  refine ⟨?_, ⟨?_, ?_⟩, ?_⟩
  · intro other otherLive
    apply same.agrees
    rw [status_admitToFrontier, status_setStatus inside]
    by_cases different : other = id
    · subst other
      rw [update_self]
      have agrees := sound.consistent id live
      rw [pending] at agrees
      exact agrees
    · rw [status_update_other built live otherLive different]
      exact sound.consistent other otherLive
  · rw [frontier_admitToFrontier, frontier_setStatus]
    exact nodup_append.mpr ⟨sound.frontier.nodup, nodup_singleton id, by
      intro member inFrontier single equal
      rw [mem_singleton] at equal
      subst equal
      rintro rfl
      exact absent inFrontier⟩
  · intro other
    rw [frontier_admitToFrontier, frontier_setStatus, status_admitToFrontier,
      status_setStatus inside, mem_append, mem_singleton, sound.frontier.mem_iff]
    by_cases different : other = id
    · subst other
      rw [update_self]
      exact ⟨fun _ => ⟨live, rfl⟩, fun _ => .inr rfl⟩
    constructor
    · rintro (⟨otherLive, active⟩ | equal)
      · rw [status_update_other built live otherLive different]
        exact ⟨otherLive, active⟩
      · exact absurd equal different
    · rintro ⟨otherLive, active⟩
      rw [status_update_other built live otherLive different] at active
      exact .inl ⟨otherLive, active⟩
  · intro other otherLive started ancestor isAncestor
    rw [status_admitToFrontier, status_setStatus inside] at started ⊢
    have ancestorLive := built.ancestor_live isAncestor
    have ancestorTerminal : terminalStatus (player.status ancestor.index) = true := by
      by_cases different : other = id
      · subst other
        exact finished ancestor isAncestor
      · rw [status_update_other built live otherLive different] at started
        exact sound.closed other otherLive started ancestor isAncestor
    rw [status_update_other built live ancestorLive]
    · exact ancestorTerminal
    · rintro rfl
      rw [pending] at ancestorTerminal
      cases ancestorTerminal

/-! ## The successor walk -/

omit built in
/-- The predecessors of an eligible step have finished by the time it is eligible. -/
theorem eligibleAt_spec {after : List StepId} {base eligible : TimePoint}
    (isEligible : player.eligibleAt sequence after base = some eligible) :
    base ≤ eligible ∧ ∀ predecessor ∈ after,
      terminalStatus (player.status predecessor.index) = true ∧
        (player.runs predecessor.index).finishedAt ≤ eligible := by
  induction after generalizing base with
  | nil =>
    obtain rfl : base = eligible := some.inj isEligible
    exact ⟨Int.le_refl _, forall_mem_nil _⟩
  | cons predecessor rest ih =>
    rw [eligibleAt] at isEligible
    split at isEligible
    · rename_i terminal
      rcases ih isEligible with ⟨floor, others⟩
      refine ⟨Int.le_trans (Int.le_max_left _ _) floor, ?_⟩
      intro other member
      rcases mem_cons.mp member with rfl | inRest
      · rw [isTerminal, Bool.and_eq_true] at terminal
        exact ⟨terminal.2, Int.le_trans (Int.le_max_right _ _) floor⟩
      · exact others other inRest
    · cases isEligible

omit built in
/-- The player once a step is ready. -/
theorem admitToFrontier_setStatus (player : Player) (inside : id.index < sequence.steps.length)
    (readyAt : TimePoint) :
    (player.setStatus sequence id .ready).admitToFrontier sequence id readyAt =
      { player with
        status := Function.update player.status id.index .ready
        runs := Function.update player.runs id.index
          { player.runs id.index with readyAt := readyAt }
        frontier := player.frontier ++ [id]
        deepestFrontier := max player.deepestFrontier (player.frontier ++ [id]).length } := by
  simp only [setStatus, if_neg (Nat.not_le.mpr inside), admitToFrontier, if_pos inside, updateRun]

omit built in
/-- What the walk over the successors does with one of them. -/
theorem admitSuccessor_cases (player : Player) (successor : StepId) :
    player.admitSuccessor sequence successor = player ∨
      ∃ step ∈ sequence.steps, ∃ eligible,
        player.eligibleAt sequence step.after 0 = some eligible ∧
        player.status step.id.index = .pending ∧
        player.admitSuccessor sequence successor =
          (player.setStatus sequence step.id .ready).admitToFrontier sequence step.id
            (eligible + graceBefore step sequence.pacing) := by
  rw [Player.admitSuccessor]
  split
  · exact .inl rfl
  rename_i candidate
  rw [not_or, not_not] at candidate
  split
  · exact .inl rfl
  rename_i step found
  split
  · exact .inl rfl
  · rename_i eligible isEligible
    rcases Sequence.Built.mem_of_find found with ⟨member, rfl⟩
    exact .inr ⟨step, member, eligible, isEligible, candidate.2, rfl⟩

theorem Sound.admitSuccessor (sound : player.Sound sequence) (successor : StepId) :
    (player.admitSuccessor sequence successor).Sound sequence ∧
      Bookkeeping player (player.admitSuccessor sequence successor) := by
  rcases @admitSuccessor_cases sequence player successor with
    unchanged | ⟨step, member, eligible, isEligible, isPending, playerEq⟩
  · rw [unchanged]
    exact ⟨sound, Bookkeeping.refl player⟩
  have live := sequence.live_of_mem member
  have finished := (eligibleAt_spec isEligible).2
  rw [playerEq]
  exact ⟨sound.activate built live isPending (fun _ => terminal_ancestors built sound.closed
      member fun predecessor inAfter => (finished predecessor inAfter).1) _,
    bookkeeping_activate built live (by rw [isPending]; rfl) _⟩

theorem Sound.admitSuccessors (sound : player.Sound sequence) (id : StepId) :
    (player.admitSuccessors sequence id).Sound sequence ∧
      Bookkeeping player (player.admitSuccessors sequence id) := by
  rw [Player.admitSuccessors]
  generalize Rows.row (successorTable sequence) id.index = successors
  induction successors generalizing player with
  | nil => exact ⟨sound, Bookkeeping.refl player⟩
  | cons successor rest ih =>
    obtain ⟨firstSound, firstStep⟩ := sound.admitSuccessor built successor
    obtain ⟨restSound, restSteps⟩ := ih firstSound
    exact ⟨restSound, firstStep.trans restSteps⟩

/-! ## The roots -/

omit built in
theorem sound_of_idle (pending : ∀ index, player.status index = .pending)
    (untouched : ∀ index, (player.runs index).entered = false)
    (emptyFrontier : player.frontier = []) : player.Sound sequence := by
  refine ⟨?_, ⟨?_, ?_⟩, ?_⟩
  · intro id _
    rw [pending]
    exact untouched id.index
  · rw [emptyFrontier]
    exact nodup_nil
  · intro id
    rw [emptyFrontier, pending]
    simp [StepStatus.isActive]
  · intro id _ started
    exact absurd (pending id.index) started

omit built in
theorem no_ancestors (built : sequence.Built) (member : step ∈ sequence.steps)
    (root : step.after = []) (ancestor : StepId) : ¬sequence.Ancestor ancestor step.id := by
  intro isAncestor
  obtain ⟨predecessor, _, owner, ownerMem, ownerEq, inAfter⟩ :=
    Relation.TransGen.tail'_iff.mp isAncestor
  have found := built.find_of_mem ownerMem
  rw [ownerEq, built.find_of_mem member, some.injEq] at found
  rw [← found, root] at inAfter
  exact not_mem_nil inAfter

/-- Admitting the roots of a part of the document whose steps are all pending. -/
theorem Sound.admitRoots_of_pending {steps : List Step} (inside : steps ⊆ sequence.steps)
    (distinct : (steps.map Step.id).Nodup) (sound : player.Sound sequence)
    (pending : ∀ step ∈ steps, player.status step.id.index = .pending) :
    let enter := fun (player : Player) (step : Step) =>
      if step.after ≠ [] then player
      else (player.setStatus sequence step.id .ready).admitToFrontier sequence step.id
        player.lastNow
    (steps.foldl enter player).Sound sequence ∧ Bookkeeping player (steps.foldl enter player) := by
  intro enter
  induction steps generalizing player with
  | nil => exact ⟨sound, Bookkeeping.refl player⟩
  | cons step rest ih =>
    rw [map_cons, nodup_cons] at distinct
    have member := inside mem_cons_self
    have restInside : rest ⊆ sequence.steps := fun _ later => inside (mem_cons_of_mem _ later)
    by_cases root : step.after = []
    · have live := sequence.live_of_mem member
      have isPending := pending step mem_cons_self
      have admitted : enter player step =
          (player.setStatus sequence step.id .ready).admitToFrontier sequence step.id
            player.lastNow := if_neg (not_not.mpr root)
      have soundNext := sound.activate built live isPending
        (fun ancestor isAncestor =>
          absurd isAncestor (no_ancestors built member root ancestor)) player.lastNow
      have bookkeeping := bookkeeping_activate built live
        (by rw [isPending]; rfl : terminalStatus (player.status step.id.index) = false)
        player.lastNow
      have stillPending : ∀ later ∈ rest, ((player.setStatus sequence step.id
          .ready).admitToFrontier sequence step.id player.lastNow).status later.id.index =
            .pending := by
        intro later laterMem
        rw [status_admitToFrontier, status_setStatus (built.live_lt live),
          status_update_other built live ⟨later, restInside laterMem, rfl⟩]
        · exact pending later (mem_cons_of_mem _ laterMem)
        · intro same
          exact distinct.1 (mem_map.mpr ⟨later, laterMem, same⟩)
      rw [foldl_cons, admitted]
      obtain ⟨restSound, restSteps⟩ := ih restInside distinct.2 soundNext stillPending
      exact ⟨restSound, bookkeeping.trans restSteps⟩
    · have skipped : enter player step = player := if_pos root
      rw [foldl_cons, skipped]
      exact ih restInside distinct.2 sound
        fun later laterMem => pending later (mem_cons_of_mem _ laterMem)

/-! ## Retiring a step -/

/-- A running step that has been exited takes its final status. -/
theorem Sound.retire (sound : player.Sound sequence) (live : sequence.Live id)
    (active : StepStatus.isActive (player.status id.index) = true)
    (terminal : terminalStatus status = true)
    (statusEq : after.status = Function.update player.status id.index status)
    (frontierEq : after.frontier = player.frontier.erase id)
    (others : ∀ other, sequence.Live other → other ≠ id →
      Agrees (player.status other.index) (after.runs other.index))
    (exited : (after.runs id.index).entered = true → (after.runs id.index).exited = true) :
    after.Sound sequence ∧ Keeps player after := by
  refine ⟨⟨?_, ⟨?_, ?_⟩, ?_⟩, ?_⟩
  · intro other otherLive
    rw [statusEq]
    by_cases different : other = id
    · subst other
      rw [update_self]
      exact agrees_terminal terminal exited
    · rw [status_update_other built live otherLive different]
      exact others other otherLive different
  · rw [frontierEq]
    exact sound.frontier.nodup.erase id
  · intro other
    rw [frontierEq, sound.frontier.nodup.mem_erase_iff, sound.frontier.mem_iff, statusEq]
    by_cases different : other = id
    · subst other
      rw [update_self]
      constructor
      · exact fun impossible => absurd rfl impossible.1
      · rintro ⟨_, isActive⟩
        rw [terminalStatus_of_isActive isActive] at terminal
        cases terminal
    · constructor
      · rintro ⟨_, otherLive, otherActive⟩
        rw [status_update_other built live otherLive different]
        exact ⟨otherLive, otherActive⟩
      · rintro ⟨otherLive, otherActive⟩
        rw [status_update_other built live otherLive different] at otherActive
        exact ⟨different, otherLive, otherActive⟩
  · intro other otherLive started ancestor isAncestor
    rw [statusEq] at started ⊢
    by_cases finishing : ancestor.index = id.index
    · rw [finishing, update_self]
      exact terminal
    rw [update_of_ne finishing]
    by_cases different : other = id
    · subst other
      refine sound.closed _ live ?_ ancestor isAncestor
      intro pending
      rw [pending] at active
      cases active
    · rw [status_update_other built live otherLive different] at started
      exact sound.closed other otherLive started ancestor isAncestor
  · intro index finished
    rw [statusEq]
    apply update_of_ne
    rintro rfl
    rw [terminalStatus_of_isActive active] at finished
    cases finished

end

end Player

end Grab.Kernel
