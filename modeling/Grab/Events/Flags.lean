import Grab.Events.Queue

/-!
# What a subscriber is told about its losses

A subscription counts what it loses and raises two flags.  Along every run of the bus the first
flag says whether anything was counted.  The second is raised by the marker of a gap only, so a
queue without a cell loses what must not be dropped and asks for no resynchronisation.
-/

namespace Grab.Events

open Grab.Lib List

/-! ## The flags after one event -/

namespace SubscriptionState

variable {subscription : SubscriptionState} {event : Event}

theorem enqueue_of_no_cells (empty : subscription.buffer.cells = []) :
    subscription.enqueue event = (subscription.markOverflow, false) :=
  if_pos empty

@[simp]
theorem markGap_overflowCount (subscription : SubscriptionState) :
    subscription.markGap.overflowCount = subscription.overflowCount + 1 := by
  unfold markGap
  dsimp only
  split_ifs <;> rfl

@[simp]
theorem markGap_lagging (subscription : SubscriptionState) :
    subscription.markGap.lagging = true := by
  unfold markGap
  dsimp only
  split_ifs <;> rfl

@[simp]
theorem markGap_needsResync (subscription : SubscriptionState) :
    subscription.markGap.needsResync = true := by
  unfold markGap
  dsimp only
  split_ifs <;> rfl

/-- A motion that is coalesced may be dropped. -/
theorem not_mustNotDrop_of_coalesces (motion : subscription.coalesces event = true) :
    ¬MustNotDrop subscription.overflowPolicy event := by
  simp only [coalesces, Bool.and_eq_true, beq_iff_eq] at motion
  rintro (policy | kind)
  · rw [motion.1.1.1] at policy
    cases policy
  · rw [motion.1.1.2] at kind
    cases kind

theorem enqueue_lagging (told : subscription.lagging = true ↔ 0 < subscription.overflowCount) :
    (subscription.enqueue event).1.lagging = true ↔
      0 < (subscription.enqueue event).1.overflowCount := by
  unfold enqueue
  split_ifs
  case pos => simp [markOverflow]
  case pos => exact told
  case pos => exact told
  case pos => simp
  case neg => simp [markOverflow]

/-- The second flag is raised for an event that must not be dropped and finds every cell taken,
if there is a cell. -/
theorem enqueue_needsResync (subscription : SubscriptionState) (event : Event) :
    (subscription.enqueue event).1.needsResync = true ↔
      subscription.needsResync = true ∨
        subscription.buffer.cells ≠ [] ∧ MustNotDrop subscription.overflowPolicy event ∧
          ¬subscription.buffer.size < subscription.buffer.cells.length := by
  unfold enqueue
  split_ifs with empty room motion kept
  · simp [markOverflow, empty]
  · simp [room]
  · have droppable := not_mustNotDrop_of_coalesces motion
    simp [droppable]
  · have mustNot : MustNotDrop subscription.overflowPolicy event := kept
    simp [empty, mustNot, room]
  · have droppable : ¬MustNotDrop subscription.overflowPolicy event := kept
    simp [markOverflow, droppable]

/-- An event that must not be dropped gets into the queue when there is room, and only then. -/
theorem mem_queue_enqueue (fresh : .event event ∉ subscription.queue)
    (mustNot : MustNotDrop subscription.overflowPolicy event) :
    .event event ∈ (subscription.enqueue event).1.queue ↔
      subscription.buffer.size < subscription.buffer.cells.length := by
  by_cases empty : subscription.buffer.cells = []
  · rw [enqueue_of_no_cells empty, empty]
    have same : subscription.markOverflow.queue = subscription.queue := rfl
    simpa [same] using fresh
  by_cases room : subscription.buffer.size < subscription.buffer.cells.length
  · have pushed : (subscription.enqueue event).1.queue = subscription.queue ++ [.event event] := by
      unfold enqueue
      rw [if_neg empty, dif_pos room]
      exact RingBuffer.contents_push room
    rw [pushed]
    simp [room]
  have capacity := length_pos_iff.mpr empty
  have outside : .event event ∉ (subscription.enqueue event).1.queue := by
    cases offered_enqueue capacity event with
    | pushed queue =>
      have bound : (subscription.enqueue event).1.queue.length ≤
          subscription.buffer.cells.length := by
        rw [SubscriptionState.queue, RingBuffer.length_contents,
          ← subscription.enqueue_capacity event]
        exact (subscription.enqueue event).1.buffer.fits
      rw [queue, length_append, SubscriptionState.queue, RingBuffer.length_contents] at bound
      exact absurd bound room
    | coalesced front last policy lastMotion motion newest queue =>
      rcases mustNot with never | never
      · rw [policy] at never
        cases never
      · rw [motion] at never
        cases never
    | marked front last marker kept newest queue =>
      rw [newest] at fresh
      rw [queue]
      simp_all
    | markedBefore front marker kept newest queue =>
      rw [queue]
      exact fresh
    | dropped droppable counted queue => exact absurd mustNot droppable
  simp [outside, room]

end SubscriptionState

/-! ## Every run -/

/-- The event offered did not get into the queue. -/
def Offer.Refused (offer : Offer) : Prop := .event offer.event ∉ offer.after.queue

namespace Observed

/-- An event that had to be kept and was not. -/
def Wronged (observed : Observed) : Prop :=
  ∃ offer ∈ observed.offers, MustNotDrop observed.state.overflowPolicy offer.event ∧ offer.Refused

/-- The flags tell exactly what was lost. -/
structure FlagsExact (observed : Observed) : Prop where
  lagging : observed.state.lagging = true ↔ 0 < observed.state.overflowCount
  needsResync : observed.state.needsResync = true ↔ observed.Wronged

/-- The flags along a run: the second one stays down in a queue without a cell, which refuses
everything. -/
structure Flagged (observed : Observed) : Prop where
  lagging : observed.state.lagging = true ↔ 0 < observed.state.overflowCount
  needsResync : observed.state.needsResync = true ↔
    observed.state.buffer.cells ≠ [] ∧ observed.Wronged
  refuses : observed.state.buffer.cells = [] → ∀ offer ∈ observed.offers, offer.Refused

theorem cells_offer (observed : Observed) (event : Event) :
    (observed.offer event).state.buffer.cells = [] ↔ observed.state.buffer.cells = [] := by
  rw [← length_eq_zero_iff, ← length_eq_zero_iff, observed.capacity_offer]

theorem queue_of_no_cells {state : SubscriptionState} (empty : state.buffer.cells = []) :
    state.queue = [] := by
  have fits := state.buffer.fits
  rw [empty, length_nil, Nat.le_zero] at fits
  rw [← length_eq_zero_iff, SubscriptionState.queue, RingBuffer.length_contents, fits]

variable {observed : Observed}

theorem Flagged.offer {next : Nat} {event : Event} (flagged : observed.Flagged)
    (kept : ReplayKept (next, observed)) (number : event.sequence = next) :
    (observed.offer event).Flagged := by
  have fresh : .event event ∉ observed.state.queue := by
    intro member
    by_cases empty : observed.state.buffer.cells = []
    · rw [queue_of_no_cells empty] at member
      cases member
    have inStream : event ∈ eventsOf observed.stream := by
      apply mem_eventsOf.mpr
      exact mem_append_right _ member
    have older := (kept (length_pos_iff.mpr empty)).older inStream
    exact absurd number (Nat.ne_of_lt older)
  have policy : (observed.offer event).state.overflowPolicy = observed.state.overflowPolicy :=
    observed.state.enqueue_policy event
  have wronged : (observed.offer event).Wronged ↔ observed.Wronged ∨
      MustNotDrop observed.state.overflowPolicy event ∧
        ¬observed.state.buffer.size < observed.state.buffer.cells.length := by
    have last : MustNotDrop observed.state.overflowPolicy event ∧
        Offer.Refused ⟨observed.state, event, (observed.state.enqueue event).1⟩ ↔
        MustNotDrop observed.state.overflowPolicy event ∧
          ¬observed.state.buffer.size < observed.state.buffer.cells.length := by
      apply and_congr_right
      intro mustNot
      exact not_congr (SubscriptionState.mem_queue_enqueue fresh mustNot)
    rw [← last, Wronged, policy]
    simp only [mem_offers_offer, or_and_right, exists_or, exists_eq_left]
    rfl
  constructor
  case lagging => exact SubscriptionState.enqueue_lagging flagged.lagging
  case needsResync =>
    rw [Ne, cells_offer, wronged]
    have raised := observed.state.enqueue_needsResync event
    rw [flagged.needsResync] at raised
    exact raised.trans and_or_left.symm
  case refuses =>
    rw [cells_offer]
    intro empty
    apply forall_offers_offer (flagged.refuses empty)
    intro member
    rw [SubscriptionState.enqueue_of_no_cells empty] at member
    exact fresh member

theorem Flagged.pop (flagged : observed.Flagged) : observed.pop.Flagged := by
  rcases observed.state.tryPopItem_stream with ⟨_, policy, capacity, _⟩
  have samePolicy : observed.pop.state.overflowPolicy = observed.state.overflowPolicy := policy
  have cells : observed.pop.state.buffer.cells = [] ↔ observed.state.buffer.cells = [] := by
    rw [← length_eq_zero_iff, ← length_eq_zero_iff, observed.capacity_pop]
  have flags : observed.pop.state.lagging = observed.state.lagging ∧
      observed.pop.state.overflowCount = observed.state.overflowCount ∧
      observed.pop.state.needsResync = observed.state.needsResync := by
    unfold Observed.pop SubscriptionState.tryPopItem
    dsimp only
    split
    · exact ⟨rfl, rfl, rfl⟩
    split
    · exact ⟨rfl, rfl, rfl⟩
    · rename_i item _
      cases item <;> exact ⟨rfl, rfl, rfl⟩
  rcases flags with ⟨lagging, count, resync⟩
  constructor
  case lagging =>
    rw [lagging, count]
    exact flagged.lagging
  case needsResync =>
    rw [resync, Ne, cells, Wronged, samePolicy]
    exact flagged.needsResync
  case refuses =>
    rw [cells]
    exact flagged.refuses

end Observed

theorem flagged_promise :
    Promise fun next observed => ReplayKept (next, observed) ∧ observed.Flagged where
  create scope options next := by
    constructor
    · exact replayKept_promise.create scope options next
    constructor
    case lagging => simp [SubscriptionState.create]
    case needsResync => simp [SubscriptionState.create, Observed.Wronged]
    case refuses =>
      intro _ offer member
      cases member
  mono kept grows := ⟨replayKept_promise.mono kept.1 grows, kept.2⟩
  offer kept number := ⟨replayKept_promise.offer kept.1 number, kept.2.offer kept.1 number⟩
  pop kept := ⟨replayKept_promise.pop kept.1, kept.2.pop⟩

/-- In every run of the bus the flags of a subscription are exact as long as it can hold an item
or was never offered an event that must not be dropped, and no longer. -/
theorem flags_exact_iff (actions : List Action) {id : SubscriptionId} {observed : Observed}
    (subscribed : (id, observed) ∈ (World.run actions).subscriptions) :
    observed.FlagsExact ↔ 0 < observed.state.buffer.cells.length ∨
      ∀ offer ∈ observed.offers, ¬MustNotDrop observed.state.overflowPolicy offer.event := by
  have flagged := (flagged_promise.run actions (id, observed) subscribed).2
  rw [length_pos_iff]
  constructor
  · intro told
    by_cases empty : observed.state.buffer.cells = []
    · apply Or.inr
      intro offer member mustNot
      have resync := told.needsResync.mpr ⟨offer, member, mustNot,
        flagged.refuses empty offer member⟩
      exact (flagged.needsResync.mp resync).1 empty
    · exact Or.inl empty
  · intro condition
    constructor
    case lagging => exact flagged.lagging
    case needsResync =>
      rw [flagged.needsResync]
      constructor
      · exact And.right
      rintro ⟨offer, member, mustNot, refused⟩
      rcases condition with cells | droppable
      · exact ⟨cells, offer, member, mustNot, refused⟩
      · exact absurd mustNot (droppable offer member)

/-- A queue without a cell that is offered a key. -/
def cellessRun : List Action :=
  [ .subscribe (fun _ => none) { kinds := [.keyDown] } { capacity := 0 },
    .publish { kind := .keyDown, category := .input } ]

/-- The key is counted as lost and no resynchronisation is asked for. -/
theorem celless_not_exact :
    ∃ observed, (1, observed) ∈ (World.run cellessRun).subscriptions ∧
      observed.state.overflowCount = 1 ∧ observed.state.needsResync = false ∧
      observed.Wronged ∧ ¬observed.FlagsExact := by
  have subscribed : ∃ observed, (World.run cellessRun).subscriptions = [(1, observed)] ∧
      observed.state.overflowCount = 1 ∧ observed.state.needsResync = false ∧
      observed.state.overflowPolicy = .coalesce ∧
      observed.offers.map (fun offer => (offer.event.kind, offer.after.queue)) = [(.keyDown, [])] :=
    ⟨_, rfl, rfl, rfl, rfl, rfl⟩
  rcases subscribed with ⟨observed, only, count, down, policy, offers⟩
  rcases map_eq_singleton_iff.mp offers with ⟨offer, single, same⟩
  have wronged : observed.Wronged := by
    refine ⟨offer, by rw [single]; exact mem_singleton_self _, .inr ?_, ?_⟩
    · rw [(Prod.mk.inj same).1]
      rfl
    · rw [Offer.Refused, (Prod.mk.inj same).2]
      exact not_mem_nil
  refine ⟨observed, by rw [only]; exact mem_singleton_self _, count, down, wronged, ?_⟩
  intro told
  have up := told.needsResync.mpr wronged
  rw [down] at up
  cases up

/-- With one cell the flags are exact. -/
theorem flags_exact_iff_crowded :
    ∃ observed, (1, observed) ∈ (World.run crowdedRun).subscriptions ∧
      observed.state.needsResync = true ∧ observed.FlagsExact := by
  have subscribed : ∃ observed, (World.run crowdedRun).subscriptions = [(1, observed)] ∧
      observed.state.needsResync = true ∧ observed.state.buffer.cells.length = 1 :=
    ⟨_, rfl, by decide +kernel, by decide +kernel⟩
  rcases subscribed with ⟨observed, only, resync, capacity⟩
  have member : (1, observed) ∈ (World.run crowdedRun).subscriptions := by
    rw [only]
    exact mem_singleton_self _
  exact ⟨observed, member, resync,
    (flags_exact_iff crowdedRun member).mpr (.inl (by rw [capacity]; exact Nat.one_pos))⟩

end Grab.Events
