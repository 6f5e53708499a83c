import Grab.Sequence.Player.Frontier

/-!
# What the player owes the runner

`Ledger` ties the trace to the run records: the open steps of the protocol are
the steps the player believes to be entered and not exited, the entry order is
the order of first entries, and no step is entered more often than its retry
counter allows.  The rules below say how each single request keeps it; the
operations of the player are sequences of such requests and of bookkeeping.
-/

namespace Grab.Kernel

open Grab.Sequence Grab.Lib List Function

/-! ## Entries of a growing trace -/

def Event.isEntry : Event → Bool
  | .enter .. => true
  | _ => false

theorem firstEntered_append (trace : List Event) (event : Event) :
    firstEntered (trace ++ [event]) =
      match event with
      | .enter id _ _ _ =>
        if id ∈ firstEntered trace then firstEntered trace else firstEntered trace ++ [id]
      | _ => firstEntered trace := by
  simp only [firstEntered, foldl_append, foldl_cons, foldl_nil]
  cases event <;> rfl

variable {event : Event} {trace : List Event} {id : StepId}

theorem firstEntered_quiet (quiet : event.isEntry = false) :
    firstEntered (trace ++ [event]) = firstEntered trace := by
  rw [firstEntered_append]
  cases event <;> first | rfl | cases quiet

theorem entryCount_append (id : StepId) (first second : List Event) :
    entryCount id (first ++ second) = entryCount id first + entryCount id second := by
  rw [entryCount, callsOf_append, count_append]
  rfl

theorem entryCount_quiet (quiet : event.isEntry = false) : entryCount id [event] = 0 := by
  rw [entryCount, callsOf_singleton]
  cases event with
  | enter _ _ _ _ => cases quiet
  | tick other _ _ | exit other _ _ =>
    by_cases same : other = id <;> simp [Event.callOn, same]
  | join _ | releaseHolds _ _ | jump _ _ => rfl

theorem entryCount_enter (id other : StepId) (now : TimePoint) (answer : Status)
    (statuses : Nat → StepStatus) :
    entryCount id [.enter other now answer statuses] = if other = id then 1 else 0 := by
  rw [entryCount, callsOf_singleton]
  by_cases same : other = id <;> simp [Event.callOn, same]

theorem lastEntry_quiet (quiet : event.isEntry = false) :
    lastEntry id (trace ++ [event]) = lastEntry id trace := by
  simp only [lastEntry, foldl_append, foldl_cons, foldl_nil]
  cases event <;> first | rfl | cases quiet

theorem lastEntry_enter (id other : StepId) (trace : List Event) (now : TimePoint)
    (answer : Status) (statuses : Nat → StepStatus) :
    lastEntry id (trace ++ [.enter other now answer statuses]) =
      if other = id then some now else lastEntry id trace := by
  simp only [lastEntry, foldl_append, foldl_cons, foldl_nil]

/-- An entry is made under terminal ancestors only, and no jump is refused for
the sake of the frontier. -/
def Event.Lawful (sequence : Sequence) : Event → Prop
  | .enter id _ _ statuses =>
    ∀ ancestor, sequence.Ancestor ancestor id → terminalStatus (statuses ancestor.index) = true
  | .jump _ (some (.behindFrontier _ _)) => False
  | _ => True

/-! ## The ledger -/

section

variable {ρ : Type} (sequence : Sequence) (runner : CommandRunner ρ) (start : ρ)

/-- The protocol state the player's records stand for. -/
def Matches (protocol : Protocol) (due : Option StepId) (player : Player) : Prop :=
  protocol.due = due ∧ ∀ id, protocol.isOpen id = true ↔ sequence.Live id ∧ player.isOpen id = true

structure Ledger (due : Option StepId) (world : World ρ) : Prop where
  conversation : ∃ protocol,
    Conversation sequence runner start world.trace protocol world.runner ∧
      Matches sequence protocol due world.player
  order : firstEntered world.trace = world.player.entryOrder
  entered : ∀ id, id ∈ world.player.entryOrder ↔
    sequence.Live id ∧ (world.player.runs id.index).entered = true
  counted : ∀ id, sequence.Live id → entryCount id world.trace ≤
    if (world.player.runs id.index).entered = true then
      1 + (world.player.runs id.index).retries
    else 0
  bounded : ∀ id, sequence.Live id → (world.player.runs id.index).retries ≤ maxRetriesPerStep
  lawful : ∀ event ∈ world.trace, event.Lawful sequence

end

section

variable {ρ : Type} {sequence : Sequence} {runner : CommandRunner ρ} {start : ρ}
  {due : Option StepId} {world : World ρ} {player : Player} {step : Step}

theorem Ledger.initial (state : ρ) : Ledger sequence runner state none (World.initial state) where
  conversation := ⟨Protocol.initial, Conversation.start, rfl, by
    intro id
    simp [Protocol.initial, World.initial, Player.isOpen]⟩
  order := rfl
  entered id := by simp [World.initial]
  counted id _ := Nat.zero_le _
  bounded id _ := Nat.zero_le _
  lawful event impossible := absurd impossible not_mem_nil

variable (ledger : Ledger sequence runner start due world)

include ledger

/-- A retry counter may be raised as far as the policy goes. -/
theorem Ledger.raise (orderEq : player.entryOrder = world.player.entryOrder)
    (enteredEq : ∀ index, (player.runs index).entered = (world.player.runs index).entered)
    (exitedEq : ∀ index, (player.runs index).exited = (world.player.runs index).exited)
    (raised : ∀ index, (world.player.runs index).retries ≤ (player.runs index).retries)
    (bounded : ∀ id, sequence.Live id → (player.runs id.index).retries ≤ maxRetriesPerStep) :
    Ledger sequence runner start due { world with player := player } where
  conversation := by
    obtain ⟨protocol, conversation, dueEq, openIff⟩ := ledger.conversation
    refine ⟨protocol, conversation, dueEq, ?_⟩
    intro id
    rw [openIff, Player.isOpen, Player.isOpen, enteredEq, exitedEq]
  order := ledger.order.trans orderEq.symm
  entered id := by
    rw [orderEq, ledger.entered, enteredEq]
  counted id live := by
    have before := ledger.counted id live
    have more := raised id.index
    rw [enteredEq]
    split
    · rename_i entered
      rw [if_pos entered] at before
      exact before.trans (Nat.add_le_add_left more 1)
    · rename_i unentered
      rw [if_neg unentered] at before
      exact before
  bounded := bounded
  lawful := ledger.lawful

/-- Bookkeeping does not touch the ledger. -/
theorem Ledger.bookkeeping (same : Player.SameRuns world.player player) :
    Ledger sequence runner start due { world with player := player } :=
  ledger.raise same.entryOrder same.entered same.exited
    (fun index => (same.retries index).ge)
    fun id live => (same.retries id.index).trans_le (ledger.bounded id live)

theorem Ledger.mapPlayer {change : Player → Player}
    (same : Player.SameRuns world.player (change world.player)) :
    Ledger sequence runner start due (world.mapPlayer change) :=
  ledger.bookkeeping same

/-- A request other than an entry. -/
theorem Ledger.request {event : Event} {state : ρ} {after : Option StepId}
    (quiet : event.isEntry = false) (lawful : event.Lawful sequence)
    (legal : ∀ protocol, Matches sequence protocol due world.player →
      ∃ next, protocol.next event = some next ∧ Matches sequence next after player)
    (answers : Answers sequence runner world.runner event state)
    (orderEq : player.entryOrder = world.player.entryOrder)
    (enteredEq : ∀ index, (player.runs index).entered = (world.player.runs index).entered)
    (retriesEq : ∀ index, (player.runs index).retries = (world.player.runs index).retries) :
    Ledger sequence runner start after ⟨player, state, world.trace ++ [event]⟩ where
  conversation := by
    obtain ⟨protocol, conversation, isMatch⟩ := ledger.conversation
    obtain ⟨next, isNext, nextMatch⟩ := legal protocol isMatch
    exact ⟨next, conversation.step isNext answers, nextMatch⟩
  order := by
    rw [firstEntered_quiet quiet, ledger.order, orderEq]
  entered id := by
    rw [orderEq, ledger.entered, enteredEq]
  counted id live := by
    rw [entryCount_append, entryCount_quiet quiet, enteredEq, retriesEq]
    exact ledger.counted id live
  bounded id live := by
    rw [retriesEq]
    exact ledger.bounded id live
  lawful := by
    intro other member
    rcases mem_append.mp member with old | new
    · exact ledger.lawful other old
    · rw [mem_singleton.mp new]
      exact lawful

omit ledger

/-- A tick of an open step. -/
theorem Ledger.tick (ledger : Ledger sequence runner start none world) (built : sequence.Built)
    (member : step ∈ sequence.steps) (isOpen : world.player.isOpen step.id = true) (now : TimePoint)
    :
    Ledger sequence runner start
      (Protocol.dueAfter step.id (world.callTick runner step now).1)
      (world.callTick runner step now).2 := by
  have live := sequence.live_of_mem member
  refine ledger.request rfl trivial ?_ ⟨step, built.find_of_mem member, rfl⟩ rfl
    (fun _ => rfl) fun _ => rfl
  intro protocol isMatch
  refine ⟨_, if_pos ⟨isMatch.1, (isMatch.2 step.id).mpr ⟨live, isOpen⟩⟩, rfl, isMatch.2⟩

/-- The worker of an open step is joined. -/
theorem Ledger.join (ledger : Ledger sequence runner start due world) (built : sequence.Built)
    (member : step ∈ sequence.steps) (isOpen : world.player.isOpen step.id = true)
    (isDue : due = none ∨ due = some step.id) :
    Ledger sequence runner start due (world.callJoin runner step) := by
  have live := sequence.live_of_mem member
  refine ledger.request rfl trivial ?_ ⟨step, built.find_of_mem member, rfl⟩ rfl
    (fun _ => rfl) fun _ => rfl
  intro protocol isMatch
  refine ⟨protocol, if_pos ⟨(isMatch.2 step.id).mpr ⟨live, isOpen⟩, ?_⟩, isMatch⟩
  rw [isMatch.1]
  exact isDue

/-- What was left down by a step that is not open is lifted. -/
theorem Ledger.releaseHolds (ledger : Ledger sequence runner start none world)
    (built : sequence.Built) (member : step ∈ sequence.steps)
    (isClosed : world.player.isOpen step.id = false) :
    Ledger sequence runner start none (world.callReleaseHolds runner step).2 := by
  refine ledger.request rfl trivial ?_ ⟨step, built.find_of_mem member, rfl⟩ rfl
    (fun _ => rfl) fun _ => rfl
  intro protocol isMatch
  refine ⟨protocol, if_pos ⟨isMatch.1, ?_⟩, isMatch⟩
  rw [← Bool.not_eq_true, isMatch.2 step.id, isClosed]
  simp

/-- An answered jump. -/
theorem Ledger.jump (ledger : Ledger sequence runner start none world) (target : StepId)
    {refused : Option JumpError} (lawful : (Event.jump target refused).Lawful sequence) :
    Ledger sequence runner start none
      { world with trace := world.trace ++ [.jump target refused] } := by
  refine ledger.request rfl lawful ?_ rfl rfl (fun _ => rfl) fun _ => rfl
  intro protocol isMatch
  exact ⟨protocol, if_pos isMatch.1, isMatch⟩

/-- An open step is exited, and its record says so. -/
theorem Ledger.exit (ledger : Ledger sequence runner start due world) (built : sequence.Built)
    (member : step ∈ sequence.steps) (isOpen : world.player.isOpen step.id = true)
    (isDue : due = none ∨ due = some step.id) (now : TimePoint)
    (orderEq : player.entryOrder = world.player.entryOrder)
    (runsEq : player.runs = Function.update world.player.runs step.id.index
      { world.player.runs step.id.index with exited := true }) :
    Ledger sequence runner start none
      { (world.callExit runner step now).2 with player := player } := by
  have live := sequence.live_of_mem member
  refine ledger.request rfl trivial ?_ ⟨step, built.find_of_mem member, rfl⟩ orderEq ?_ ?_
  · intro protocol isMatch
    have mayExit : protocol.due = none ∨ protocol.due = some step.id := by
      rw [isMatch.1]
      exact isDue
    refine ⟨_, if_pos ⟨(isMatch.2 step.id).mpr ⟨live, isOpen⟩, mayExit⟩, rfl, ?_⟩
    intro id
    dsimp only
    by_cases same : id = step.id
    · subst id
      simp [Player.isOpen, runsEq]
    rw [update_of_ne same, isMatch.2]
    refine and_congr_right fun idLive => ?_
    have elsewhere : id.index ≠ step.id.index := fun equal => same (built.live_eq idLive live equal)
    rw [Player.isOpen, Player.isOpen, runsEq, update_of_ne elsewhere]
  · intro index
    rw [runsEq, update_apply]
    split
    · rename_i here
      rw [here]
    · rfl
  · intro index
    rw [runsEq, update_apply]
    split
    · rename_i here
      rw [here]
    · rfl

/-- A step that is not open is entered.  `after` is the record the entry leaves
and `world.player` the one it was made from. -/
theorem Ledger.enter (ledger : Ledger sequence runner start none world) (built : sequence.Built)
    (member : step ∈ sequence.steps) (isClosed : world.player.isOpen step.id = false)
    (orderEq : player.entryOrder =
      if (world.player.runs step.id.index).entered = true then world.player.entryOrder
      else world.player.entryOrder ++ [step.id])
    (others : ∀ index, index ≠ step.id.index → player.runs index = world.player.runs index)
    (isEntered : (player.runs step.id.index).entered = true)
    (isNotExited : (player.runs step.id.index).exited = false)
    (affordable : entryCount step.id world.trace ≤ (player.runs step.id.index).retries)
    (bounded : (player.runs step.id.index).retries ≤ maxRetriesPerStep)
    (finished : ∀ ancestor, sequence.Ancestor ancestor step.id →
      terminalStatus (player.status ancestor.index) = true) (now : TimePoint) :
    Ledger sequence runner start
      (Protocol.dueAfter step.id (runner.enter step now world.runner).1)
      ⟨player, (runner.enter step now world.runner).2,
        world.trace ++ [.enter step.id now (runner.enter step now world.runner).1
          player.status]⟩ := by
  have live := sequence.live_of_mem member
  have elsewhere : ∀ {id}, sequence.Live id → id ≠ step.id → id.index ≠ step.id.index :=
    fun idLive different equal => different (built.live_eq idLive live equal)
  refine ⟨?_, ?_, ?_, ?_, ?_, ?_⟩
  · obtain ⟨protocol, conversation, isMatch⟩ := ledger.conversation
    have closed : protocol.isOpen step.id = false := by
      rw [← Bool.not_eq_true, isMatch.2 step.id, isClosed]
      simp
    refine ⟨_, conversation.step (if_pos ⟨isMatch.1, closed⟩)
      ⟨step, built.find_of_mem member, rfl⟩, rfl, ?_⟩
    intro id
    by_cases same : id = step.id
    · subst id
      simp [Player.isOpen, isEntered, isNotExited, live]
    dsimp only
    rw [update_of_ne same, isMatch.2]
    refine and_congr_right fun idLive => ?_
    simp only [Player.isOpen, others _ (elsewhere idLive same)]
  · simp only [firstEntered_append, ledger.order, orderEq]
    by_cases before : (world.player.runs step.id.index).entered = true
    · rw [if_pos before, if_pos ((ledger.entered step.id).mpr ⟨live, before⟩)]
    · rw [if_neg before, if_neg]
      exact fun inOrder => before ((ledger.entered step.id).mp inOrder).2
  · intro id
    have inOrder : id ∈ player.entryOrder ↔ id ∈ world.player.entryOrder ∨ id = step.id := by
      rw [orderEq]
      split
      · rename_i before
        constructor
        · exact .inl
        · rintro (old | rfl)
          · exact old
          · exact (ledger.entered step.id).mpr ⟨live, before⟩
      · rw [mem_append, mem_singleton]
    simp only [inOrder]
    by_cases same : id = step.id
    · subst id
      exact ⟨fun _ => ⟨live, isEntered⟩, fun _ => .inr rfl⟩
    rw [ledger.entered]
    constructor
    · rintro (⟨idLive, idEntered⟩ | equal)
      · rw [others _ (elsewhere idLive same)]
        exact ⟨idLive, idEntered⟩
      · exact absurd equal same
    · rintro ⟨idLive, idEntered⟩
      rw [others _ (elsewhere idLive same)] at idEntered
      exact .inl ⟨idLive, idEntered⟩
  · intro id idLive
    dsimp only
    rw [entryCount_append, entryCount_enter]
    by_cases same : id = step.id
    · subst id
      rw [if_pos rfl, if_pos isEntered]
      omega
    · rw [if_neg (Ne.symm same), others _ (elsewhere idLive same)]
      exact ledger.counted id idLive
  · intro id idLive
    by_cases same : id = step.id
    · subst id
      exact bounded
    · rw [others _ (elsewhere idLive same)]
      exact ledger.bounded id idLive
  · intro event inTrace
    rcases mem_append.mp inTrace with old | new
    · exact ledger.lawful event old
    · rw [mem_singleton.mp new]
      exact finished

end

end Grab.Kernel
