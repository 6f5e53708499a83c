import Grab.Events.Bus

/-!
# What a subscriber can miss

A subscription is observed together with the items it has handed out and the events it was
offered.  Along every run of the bus the stream of an observed subscription, what was popped
followed by what is queued, is in the order of publication, and an event that must not be
dropped is in it or behind a gap marker in its place.
-/

namespace Grab.Events

open Grab.Lib List

/-! ## One event offered to a queue -/

/-- The events a queue must report when it cannot keep them. -/
def MustNotDrop (policy : QueueOverflowPolicy) (event : Event) : Prop :=
  policy = .neverDrop ∨ coalescingClassOf event.kind = .neverDrop

namespace SubscriptionState

/-- Items from the oldest to the newest. -/
def queue (subscription : SubscriptionState) : List SubscriptionEvent :=
  subscription.buffer.contents

/-- What an event does to a queue with room for at least one item. -/
inductive Offered (before : SubscriptionState) (event : Event) (after : SubscriptionState) : Prop
  | pushed (queue : after.queue = before.queue ++ [.event event])
  | coalesced (front : List SubscriptionEvent) (last : Event)
      (policy : before.overflowPolicy = .coalesce)
      (lastMotion : last.kind = .mouseMove) (motion : event.kind = .mouseMove)
      (newest : before.queue = front ++ [.event last])
      (queue : after.queue = front ++ [.event event])
  | marked (front : List SubscriptionEvent) (last : Event) (marker : QueueGapMarker)
      (kept : MustNotDrop before.overflowPolicy event)
      (newest : before.queue = front ++ [.event last])
      (queue : after.queue = front ++ [.gap marker])
  | markedBefore (front : List SubscriptionEvent) (marker : QueueGapMarker)
      (kept : MustNotDrop before.overflowPolicy event)
      (newest : before.queue = front ++ [.gap marker])
      (queue : after.queue = before.queue)
  | dropped (droppable : ¬MustNotDrop before.overflowPolicy event)
      (counted : after.overflowCount = before.overflowCount + 1)
      (queue : after.queue = before.queue)

variable (subscription : SubscriptionState) (event : Event)

theorem enqueue_capacity :
    (subscription.enqueue event).1.buffer.cells.length = subscription.buffer.cells.length := by
  unfold enqueue
  split
  · rfl
  split
  · exact length_set
  split
  · exact length_set
  split
  · unfold markGap
    dsimp only
    split
    · rfl
    · split
      · rfl
      · exact length_set
  · rfl

theorem enqueue_policy :
    (subscription.enqueue event).1.overflowPolicy = subscription.overflowPolicy := by
  unfold enqueue markGap
  dsimp only
  split_ifs <;> rfl

theorem enqueue_scope : (subscription.enqueue event).1.scope = subscription.scope := by
  unfold enqueue markGap
  dsimp only
  split_ifs <;> rfl

/-- The newest item, split off. -/
theorem queue_eq_concat {subscription : SubscriptionState} {item : SubscriptionEvent}
    (nonEmpty : 0 < subscription.buffer.size) (newest : subscription.buffer.back? = some item) :
    subscription.queue = subscription.queue.dropLast ++ [item] := by
  rw [RingBuffer.back?_eq nonEmpty] at newest
  have last := getLast?_eq_some_iff.mp newest
  rcases last with ⟨front, same⟩
  rw [queue, same, dropLast_concat]

theorem offered_enqueue {subscription : SubscriptionState}
    (capacity : 0 < subscription.buffer.cells.length) (event : Event) :
    Offered subscription event (subscription.enqueue event).1 := by
  have cells : subscription.buffer.cells ≠ [] := ne_nil_of_length_pos capacity
  unfold enqueue
  rw [if_neg cells]
  by_cases room : subscription.buffer.size < subscription.buffer.cells.length
  · rw [dif_pos room]
    exact .pushed (RingBuffer.contents_push room)
  rw [dif_neg room]
  have nonEmpty : 0 < subscription.buffer.size := by omega
  have exists_newest : ∃ item, subscription.buffer.back? = some item :=
    ⟨_, getElem?_eq_getElem (RingBuffer.index_lt capacity _)⟩
  rcases exists_newest with ⟨newest, newestEq⟩
  have split := queue_eq_concat nonEmpty newestEq
  by_cases motion : subscription.coalesces event = true
  · rw [if_pos motion]
    simp only [coalesces, newestEq, Bool.and_eq_true, beq_iff_eq] at motion
    cases newest with
    | gap marker => cases motion.2
    | event last =>
      have lastMotion : last.kind = .mouseMove := by simpa [isMotion] using motion.2
      exact .coalesced _ last motion.1.1.1 lastMotion motion.1.2 split
        (RingBuffer.contents_setBack nonEmpty)
  rw [if_neg motion]
  by_cases kept : subscription.overflowPolicy = .neverDrop ∨
      coalescingClassOf event.kind = .neverDrop
  · rw [if_pos kept]
    unfold markGap
    rw [if_neg (show ¬subscription.markOverflow.buffer.cells = [] from cells)]
    have sameBack : subscription.markOverflow.buffer.back? = some newest := newestEq
    cases newest with
    | gap marker =>
      rw [sameBack, if_pos (show isGap (some (.gap marker)) = true from rfl)]
      exact .markedBefore _ marker kept split rfl
    | event last =>
      rw [sameBack, if_neg (show ¬isGap (some (.event last)) = true from Bool.false_ne_true)]
      exact .marked _ last _ kept split (RingBuffer.contents_setBack nonEmpty)
  · rw [if_neg kept]
    exact .dropped kept rfl rfl

end SubscriptionState

/-! ## The stream of a subscription -/

/-- One event offered to a subscription: the state before and after it. -/
structure Offer where
  before : SubscriptionState
  event : Event
  after : SubscriptionState

/-- A subscription with what it has handed out and been offered. -/
structure Observed where
  state : SubscriptionState
  popped : List SubscriptionEvent := []
  offers : List Offer := []

/-- The events among items. -/
def eventsOf (items : List SubscriptionEvent) : List Event :=
  items.filterMap fun item =>
    match item with
    | .event event => some event
    | .gap _ => none

namespace Observed

def offer (observed : Observed) (event : Event) : Observed :=
  let after := (observed.state.enqueue event).1
  { observed with
    state := after
    offers := observed.offers ++ [⟨observed.state, event, after⟩] }

def pop (observed : Observed) : Observed :=
  let (after, item) := observed.state.tryPopItem
  { observed with state := after, popped := observed.popped ++ item.toList }

/-- What was popped followed by what is queued. -/
def stream (observed : Observed) : List SubscriptionEvent := observed.popped ++ observed.state.queue

end Observed

@[simp]
theorem eventsOf_append (first second : List SubscriptionEvent) :
    eventsOf (first ++ second) = eventsOf first ++ eventsOf second :=
  filterMap_append

@[simp]
theorem eventsOf_event (event : Event) : eventsOf [.event event] = [event] := rfl

@[simp]
theorem eventsOf_gap (marker : QueueGapMarker) : eventsOf [.gap marker] = [] := rfl

variable {items : List SubscriptionEvent} {observed : Observed} {event : Event} {next : Nat}

theorem mem_eventsOf : event ∈ eventsOf items ↔ .event event ∈ items := by
  rw [eventsOf, mem_filterMap]
  constructor
  · rintro ⟨item, member, found⟩
    cases item with
    | event other =>
      cases found
      exact member
    | gap marker => cases found
  · intro member
    exact ⟨_, member, rfl⟩

/-- A gap marker behind everything older than an event and before everything newer. -/
def Covered (event : Event) (items : List SubscriptionEvent) : Prop :=
  ∃ before marker after, items = before ++ .gap marker :: after ∧
    (∀ other ∈ eventsOf before, other.sequence < event.sequence) ∧
    ∀ other ∈ eventsOf after, event.sequence < other.sequence

/-- Why an event that may be dropped is in neither the queue nor the hands of the
subscriber. -/
inductive Lost (event : Event) (offer : Offer) : Prop
  | counted (offered : offer.event = event)
      (counted : offer.after.overflowCount = offer.before.overflowCount + 1)
  | marked (front : List SubscriptionEvent) (marker : QueueGapMarker)
      (newest : offer.before.queue = front ++ [.event event])
      (replaced : offer.after.queue = front ++ [.gap marker])
  | coalesced (front : List SubscriptionEvent)
      (motion : event.kind = .mouseMove) (laterMotion : offer.event.kind = .mouseMove)
      (later : event.sequence < offer.event.sequence)
      (newest : offer.before.queue = front ++ [.event event])
      (replaced : offer.after.queue = front ++ [.event offer.event])

/-- The promise of the queue about everything it was offered. -/
structure Observed.Faithful (observed : Observed) : Prop where
  ordered : (eventsOf observed.stream).Pairwise fun first second =>
    first.sequence < second.sequence
  covered : ∀ offer ∈ observed.offers, MustNotDrop observed.state.overflowPolicy offer.event →
    offer.event ∈ eventsOf observed.stream ∨ Covered offer.event observed.stream
  explained : ∀ offer ∈ observed.offers,
    ¬MustNotDrop observed.state.overflowPolicy offer.event →
    offer.event ∈ eventsOf observed.stream ∨ ∃ loss ∈ observed.offers, Lost offer.event loss

/-! ## One step -/

section

variable {front : List SubscriptionEvent} {last : Event}

/-- An event already covered stays covered when newer items follow. -/
theorem Covered.append (covered : Covered event items) {added : List SubscriptionEvent}
    (newer : ∀ other ∈ eventsOf added, event.sequence < other.sequence) :
    Covered event (items ++ added) := by
  rcases covered with ⟨before, marker, after, rfl, older, later⟩
  refine ⟨before, marker, after ++ added, by rw [append_assoc, cons_append], older, ?_⟩
  intro other member
  rw [eventsOf_append, mem_append] at member
  rcases member with inAfter | inAdded
  · exact later other inAfter
  · exact newer other inAdded

/-- The marker of a covered event is not the event queued last. -/
theorem Covered.dropLast (covered : Covered event (front ++ [.event last])) :
    Covered event front := by
  rcases covered with ⟨before, marker, after, same, older, later⟩
  rcases eq_nil_or_concat after with rfl | ⟨shorter, final, rfl⟩
  · rw [append_singleton_inj] at same
    cases same.2
  rw [concat_eq_append] at same later
  rw [← cons_append, ← append_assoc, append_singleton_inj] at same
  refine ⟨before, marker, shorter, same.1, older, ?_⟩
  intro other member
  apply later
  rw [eventsOf_append, mem_append]
  exact .inl member

/-- A marker at the end covers what is newer than everything before it. -/
theorem covered_concat {marker : QueueGapMarker}
    (older : ∀ other ∈ eventsOf front, other.sequence < event.sequence) :
    Covered event (front ++ [.gap marker]) := by
  refine ⟨front, marker, [], rfl, older, ?_⟩
  intro other member
  cases member

end

/-- What holds of an observed subscription while the bus is at sequence number `next`. -/
structure Observed.Kept (observed : Observed) (next : Nat) : Prop where
  capacity : 0 < observed.state.buffer.cells.length
  faithful : observed.Faithful
  fresh : ∀ offer ∈ observed.offers, offer.event.sequence < next
  known : ∀ event ∈ eventsOf observed.stream, ∃ offer ∈ observed.offers, offer.event = event

theorem Observed.Kept.mono {next later : Nat} (kept : observed.Kept next) (grows : next ≤ later) :
    observed.Kept later where
  capacity := kept.capacity
  faithful := kept.faithful
  fresh offer member := Nat.lt_of_lt_of_le (kept.fresh offer member) grows
  known := kept.known

theorem Observed.Kept.older (kept : observed.Kept next)
    (member : event ∈ eventsOf observed.stream) : event.sequence < next := by
  rcases kept.known event member with ⟨offer, offered, rfl⟩
  exact kept.fresh offer offered

theorem SubscriptionState.tryPopItem_stream (subscription : SubscriptionState) :
    subscription.tryPopItem.2.toList ++ subscription.tryPopItem.1.queue = subscription.queue ∧
      subscription.tryPopItem.1.overflowPolicy = subscription.overflowPolicy ∧
      subscription.tryPopItem.1.buffer.cells.length = subscription.buffer.cells.length ∧
      subscription.tryPopItem.1.scope = subscription.scope := by
  unfold tryPopItem
  by_cases empty : subscription.buffer.size = 0
  · rw [if_pos empty]
    exact ⟨rfl, rfl, rfl, rfl⟩
  rw [if_neg empty]
  have nonEmpty : 0 < subscription.buffer.size := by omega
  have front := RingBuffer.cells_head nonEmpty
  cases contents : subscription.buffer.contents with
  | nil =>
    have length := RingBuffer.length_contents subscription.buffer
    rw [contents, length_nil] at length
    omega
  | cons item rest =>
    rw [contents, head?_cons] at front
    rw [front]
    have popped : (subscription.buffer.pop (.event {})).contents =
        subscription.buffer.contents.tail := RingBuffer.contents_pop nonEmpty
    rw [contents, tail_cons] at popped
    cases item with
    | event event | gap marker =>
      refine ⟨?_, rfl, length_set, rfl⟩
      change [_] ++ (subscription.buffer.pop _).contents = subscription.buffer.contents
      rw [popped, contents]
      rfl

theorem Observed.stream_pop (observed : Observed) : observed.pop.stream = observed.stream := by
  have moved := observed.state.tryPopItem_stream.1
  unfold Observed.stream Observed.pop
  rw [append_assoc, moved]

theorem Observed.Kept.pop (kept : observed.Kept next) : observed.pop.Kept next := by
  rcases observed.state.tryPopItem_stream with ⟨_, policy, capacity, _⟩
  have stream := observed.stream_pop
  have samePolicy : observed.pop.state.overflowPolicy = observed.state.overflowPolicy := policy
  constructor
  case capacity => exact Nat.lt_of_lt_of_eq kept.capacity capacity.symm
  case faithful =>
    constructor
    case ordered => rw [stream]; exact kept.faithful.ordered
    case covered => rw [stream, samePolicy]; exact kept.faithful.covered
    case explained => rw [stream, samePolicy]; exact kept.faithful.explained
  case fresh => exact kept.fresh
  case known => rw [stream]; exact kept.known

section

/-- Offers are only added to. -/
theorem Observed.mem_offers_offer {offer : Offer} :
    offer ∈ (observed.offer event).offers ↔ offer ∈ observed.offers ∨
      offer = ⟨observed.state, event, (observed.state.enqueue event).1⟩ := by
  rw [Observed.offer, mem_append, mem_singleton]

/-- A promise about every offer follows from the old ones and the new one. -/
theorem Observed.forall_offers_offer {holds : Offer → Prop}
    (old : ∀ offer ∈ observed.offers, holds offer)
    (new : holds ⟨observed.state, event, (observed.state.enqueue event).1⟩) :
    ∀ offer ∈ (observed.offer event).offers, holds offer := by
  intro offer member
  rcases Observed.mem_offers_offer.mp member with known | rfl
  · exact old offer known
  · exact new

/-- What has to be shown of an offer: the new stream accounts for everything the old one
accounted for and for the new event. -/
theorem Observed.Kept.offer_of (kept : observed.Kept next) (number : event.sequence = next)
    (ordered : (eventsOf (observed.offer event).stream).Pairwise fun first second =>
      first.sequence < second.sequence) (subset : ∀ other ∈ eventsOf (observed.offer event).stream,
      other ∈ eventsOf observed.stream ∨ other = event)
    (present : ∀ other ∈ eventsOf observed.stream,
      other ∈ eventsOf (observed.offer event).stream ∨
        (MustNotDrop observed.state.overflowPolicy other →
          Covered other (observed.offer event).stream) ∧
        Lost other ⟨observed.state, event, (observed.state.enqueue event).1⟩)
    (covered : ∀ other, other.sequence < next → Covered other observed.stream →
      Covered other (observed.offer event).stream)
    (self : event ∈ eventsOf (observed.offer event).stream ∨
      (MustNotDrop observed.state.overflowPolicy event →
        Covered event (observed.offer event).stream) ∧
      (¬MustNotDrop observed.state.overflowPolicy event →
        Lost event ⟨observed.state, event, (observed.state.enqueue event).1⟩)) :
    (observed.offer event).Kept (next + 1) := by
  have policy : (observed.offer event).state.overflowPolicy = observed.state.overflowPolicy :=
    observed.state.enqueue_policy event
  have newOffer : (⟨observed.state, event, (observed.state.enqueue event).1⟩ : Offer) ∈
      (observed.offer event).offers := Observed.mem_offers_offer.mpr (.inr rfl)
  constructor
  case capacity =>
    exact Nat.lt_of_lt_of_eq kept.capacity (observed.state.enqueue_capacity event).symm
  case faithful =>
    constructor
    case ordered => exact ordered
    case covered =>
      rw [policy]
      apply Observed.forall_offers_offer
      · intro offer member mustNot
        rcases kept.faithful.covered offer member mustNot with inStream | behind
        · rcases present _ inStream with stays | ⟨marked, _⟩
          · exact .inl stays
          · exact .inr (marked mustNot)
        · exact .inr (covered _ (kept.fresh offer member) behind)
      intro mustNot
      rcases self with stays | ⟨marked, _⟩
      · exact .inl stays
      · exact .inr (marked mustNot)
    case explained =>
      rw [policy]
      apply Observed.forall_offers_offer
      · intro offer member may
        rcases kept.faithful.explained offer member may with inStream | ⟨loss, known, lost⟩
        · rcases present _ inStream with stays | ⟨_, lost⟩
          · exact .inl stays
          · exact .inr ⟨_, newOffer, lost⟩
        · exact .inr ⟨loss, Observed.mem_offers_offer.mpr (.inl known), lost⟩
      intro may
      rcases self with stays | ⟨_, lost⟩
      · exact .inl stays
      · exact .inr ⟨_, newOffer, lost may⟩
  case fresh =>
    apply Observed.forall_offers_offer
    · intro offer member
      exact Nat.lt_succ_of_lt (kept.fresh offer member)
    · change event.sequence < next + 1
      omega
  case known =>
    intro other member
    rcases subset other member with old | rfl
    · rcases kept.known other old with ⟨offer, known, same⟩
      exact ⟨offer, Observed.mem_offers_offer.mpr (.inl known), same⟩
    · exact ⟨_, newOffer, rfl⟩

/-- Appending a newer event keeps the order. -/
theorem ordered_concat
    (ordered : (eventsOf items).Pairwise fun first second => first.sequence < second.sequence)
    (older : ∀ other ∈ eventsOf items, other.sequence < event.sequence) :
    (eventsOf (items ++ [.event event])).Pairwise fun first second =>
      first.sequence < second.sequence := by
  rw [eventsOf_append, eventsOf_event, pairwise_append]
  refine ⟨ordered, pairwise_singleton _ _, ?_⟩
  intro first inItems second inNew
  rw [mem_singleton.mp inNew]
  exact older first inItems

theorem mem_eventsOf_concat {other : Event} :
    other ∈ eventsOf (items ++ [.event event]) ↔ other ∈ eventsOf items ∨ other = event := by
  rw [eventsOf_append, eventsOf_event, mem_append, mem_singleton]

theorem ordered_of_concat {item : SubscriptionEvent}
    (ordered : (eventsOf (items ++ [item])).Pairwise fun first second =>
      first.sequence < second.sequence) :
    (eventsOf items).Pairwise fun first second => first.sequence < second.sequence := by
  rw [eventsOf_append, pairwise_append] at ordered
  exact ordered.1

theorem older_of_concat (ordered : (eventsOf (items ++ [.event event])).Pairwise fun first second =>
      first.sequence < second.sequence) :
    ∀ other ∈ eventsOf items, other.sequence < event.sequence := by
  rw [eventsOf_append, eventsOf_event, pairwise_append] at ordered
  intro other member
  exact ordered.2.2 other member event (mem_singleton_self event)

/-- An offer that leaves the queue alone. -/
theorem Observed.Kept.offer_of_same (kept : observed.Kept next) (number : event.sequence = next)
    (stream : (observed.offer event).stream = observed.stream)
    (self : (MustNotDrop observed.state.overflowPolicy event →
        Covered event (observed.offer event).stream) ∧
      (¬MustNotDrop observed.state.overflowPolicy event →
        Lost event ⟨observed.state, event, (observed.state.enqueue event).1⟩)) :
    (observed.offer event).Kept (next + 1) := by
  apply kept.offer_of number
  · rw [stream]
    exact kept.faithful.ordered
  · intro other member
    rw [stream] at member
    exact .inl member
  · intro other member
    rw [stream]
    exact .inl member
  · intro other _ behind
    rw [stream]
    exact behind
  · exact .inr self

theorem Observed.Kept.offer (kept : observed.Kept next) (number : event.sequence = next) :
    (observed.offer event).Kept (next + 1) := by
  have streamAfter : (observed.offer event).stream =
      observed.popped ++ (observed.state.enqueue event).1.queue := rfl
  have ordered := kept.faithful.ordered
  have older : ∀ other ∈ eventsOf observed.stream, other.sequence < event.sequence := by
    intro other member
    rw [number]
    exact kept.older member
  cases SubscriptionState.offered_enqueue kept.capacity event with
  | pushed queue =>
    have stream : (observed.offer event).stream = observed.stream ++ [.event event] := by
      rw [streamAfter, queue, ← append_assoc]
      rfl
    apply kept.offer_of number
    · rw [stream]
      exact ordered_concat ordered older
    · intro other member
      rw [stream] at member
      exact mem_eventsOf_concat.mp member
    · intro other member
      rw [stream]
      exact .inl (mem_eventsOf_concat.mpr (.inl member))
    · intro other earlier behind
      rw [stream]
      apply behind.append
      intro added member
      rw [mem_singleton.mp member, number]
      exact earlier
    · rw [stream]
      exact .inl (mem_eventsOf_concat.mpr (.inr rfl))
  | coalesced front last policy lastMotion motion newest queue =>
    have streamBefore : observed.stream = (observed.popped ++ front) ++ [.event last] := by
      rw [Observed.stream, newest, append_assoc]
    have stream : (observed.offer event).stream = (observed.popped ++ front) ++ [.event event] := by
      rw [streamAfter, queue, append_assoc]
    rw [streamBefore] at ordered older
    have droppable : ¬MustNotDrop observed.state.overflowPolicy last := by
      rw [policy]
      rintro (never | never)
      · cases never
      · rw [lastMotion] at never
        revert never
        decide
    apply kept.offer_of number
    · rw [stream]
      apply ordered_concat (ordered_of_concat ordered)
      intro other member
      exact older other (mem_eventsOf_concat.mpr (.inl member))
    · intro other member
      rw [stream] at member
      rw [streamBefore]
      rcases mem_eventsOf_concat.mp member with inFront | same
      · exact .inl (mem_eventsOf_concat.mpr (.inl inFront))
      · exact .inr same
    · intro other member
      rw [streamBefore] at member
      rw [stream]
      rcases mem_eventsOf_concat.mp member with inFront | rfl
      · exact .inl (mem_eventsOf_concat.mpr (.inl inFront))
      · exact .inr ⟨fun mustNot => absurd mustNot droppable,
          .coalesced front lastMotion motion (older other member) newest queue⟩
    · intro other earlier behind
      rw [streamBefore] at behind
      rw [stream]
      apply behind.dropLast.append
      intro added member
      rw [mem_singleton.mp member, number]
      exact earlier
    · rw [stream]
      exact .inl (mem_eventsOf_concat.mpr (.inr rfl))
  | marked front last marker mustNot newest queue =>
    have streamBefore : observed.stream = (observed.popped ++ front) ++ [.event last] := by
      rw [Observed.stream, newest, append_assoc]
    have stream : (observed.offer event).stream = (observed.popped ++ front) ++ [.gap marker] := by
      rw [streamAfter, queue, append_assoc]
    have events : eventsOf (observed.offer event).stream = eventsOf (observed.popped ++ front) := by
      rw [stream, eventsOf_append, eventsOf_gap, append_nil]
    rw [streamBefore] at ordered older
    apply kept.offer_of number
    · rw [events]
      exact ordered_of_concat ordered
    · intro other member
      rw [events] at member
      rw [streamBefore]
      exact .inl (mem_eventsOf_concat.mpr (.inl member))
    · intro other member
      rw [streamBefore] at member
      rw [events, stream]
      rcases mem_eventsOf_concat.mp member with inFront | rfl
      · exact .inl inFront
      · exact .inr ⟨fun _ => covered_concat (older_of_concat ordered),
          .marked front marker newest queue⟩
    · intro other earlier behind
      rw [streamBefore] at behind
      rw [stream]
      apply behind.dropLast.append
      intro added member
      cases member
    · rw [stream]
      refine .inr ⟨fun _ => covered_concat ?_, fun may => absurd mustNot may⟩
      intro other member
      exact older other (mem_eventsOf_concat.mpr (.inl member))
  | markedBefore front marker mustNot newest queue =>
    have stream : (observed.offer event).stream = observed.stream := by
      rw [streamAfter, queue]
      rfl
    have streamBefore : observed.stream = (observed.popped ++ front) ++ [.gap marker] := by
      rw [Observed.stream, newest, append_assoc]
    apply kept.offer_of_same number stream
    refine ⟨fun _ => ?_, fun may => absurd mustNot may⟩
    rw [stream, streamBefore]
    apply covered_concat
    intro other member
    apply older
    rw [streamBefore, eventsOf_append, mem_append]
    exact .inl member
  | dropped droppable counted queue =>
    have stream : (observed.offer event).stream = observed.stream := by
      rw [streamAfter, queue]
      rfl
    apply kept.offer_of_same number stream
    exact ⟨fun mustNot => absurd mustNot droppable, fun _ => .counted rfl counted⟩

end

/-! ## Runs of the bus -/

/-- The bus with every subscription observed. -/
structure World where
  subscriptions : List (SubscriptionId × Observed) := []
  subscriptionRefcounts : EventKind → Nat := fun _ => 0
  nextSequence : Nat := 1
  nextSubscriptionId : SubscriptionId := 1

inductive Action where
  | subscribe (providers : EventKind → Option (List Event)) (scope : SubscriptionScope)
      (options : QueueOptions)
  | unsubscribe (id : SubscriptionId)
  | publish (event : Event)
  | pop (id : SubscriptionId)

namespace World

/-- The bus without the observations. -/
def bus (world : World) : EventBusState where
  subscriptions := world.subscriptions.map fun entry => (entry.1, entry.2.state)
  subscriptionRefcounts := world.subscriptionRefcounts
  nextSequence := world.nextSequence
  nextSubscriptionId := world.nextSubscriptionId

def replayEvent (kind : EventKind) (state : Nat × Observed) (event : Event) : Nat × Observed :=
  if event.kind ≠ kind ∨ state.2.state.matches event = false then state
  else (state.1 + 1, state.2.offer { event with sequence := state.1 })

def replayKind (providers : EventKind → Option (List Event)) (state : Nat × Observed)
    (kind : EventKind) : Nat × Observed :=
  if replayPolicyOf kind ≠ .currentSet then state
  else
    match providers kind with
    | none => state
    | some events => events.foldl (replayEvent kind) state

def subscribe (world : World) (providers : EventKind → Option (List Event))
    (scope : SubscriptionScope) (options : QueueOptions) : World :=
  let normalized := { scope with kinds := normalizedKinds scope }
  let replayed := normalized.kinds.foldl (replayKind providers)
    (world.nextSequence, { state := SubscriptionState.create normalized options })
  { subscriptions := world.subscriptions ++ [(world.nextSubscriptionId, replayed.2)]
    subscriptionRefcounts := (world.bus.add providers scope options).1.subscriptionRefcounts
    nextSequence := replayed.1
    nextSubscriptionId := world.nextSubscriptionId + 1 }

def unsubscribe (world : World) (id : SubscriptionId) : World :=
  { world with
    subscriptions := world.subscriptions.eraseP fun entry => entry.1 == id
    subscriptionRefcounts := (world.bus.remove id).1.subscriptionRefcounts }

def offer (event : Event) (entry : SubscriptionId × Observed) : SubscriptionId × Observed :=
  if entry.2.state.matches event then (entry.1, entry.2.offer event) else entry

def publish (world : World) (event : Event) : World :=
  let event := { event with sequence := world.nextSequence }
  { world with
    subscriptions := world.subscriptions.map (offer event)
    nextSequence := world.nextSequence + 1 }

def pop (world : World) (id : SubscriptionId) : World :=
  { world with
    subscriptions := world.subscriptions.map fun entry =>
      if entry.1 = id then (entry.1, entry.2.pop) else entry }

def step (world : World) : Action → World
  | .subscribe providers scope options => world.subscribe providers scope options
  | .unsubscribe id => world.unsubscribe id
  | .publish event => world.publish event
  | .pop id => world.pop id

def run (actions : List Action) : World := actions.foldl step {}

end World

/-! ## Observation does not change the bus -/

/-! ## Every run -/

/-- What every step of the bus keeps of an observed subscription and the next sequence number. -/
structure Promise (holds : Nat → Observed → Prop) : Prop where
  create : ∀ (scope : SubscriptionScope) (options : QueueOptions) (next : Nat),
    holds next { state := SubscriptionState.create scope options }
  mono : ∀ {observed : Observed} {next later : Nat}, holds next observed → next ≤ later →
    holds later observed
  offer : ∀ {observed : Observed} {next : Nat} {event : Event}, holds next observed →
    event.sequence = next → holds (next + 1) (observed.offer event)
  pop : ∀ {observed : Observed} {next : Nat}, holds next observed → holds next observed.pop

namespace Promise

variable {holds : Nat → Observed → Prop}

theorem replayEvent (promise : Promise holds) {kind : EventKind} {state : Nat × Observed}
    (event : Event) (kept : holds state.1 state.2) :
    holds (World.replayEvent kind state event).1 (World.replayEvent kind state event).2 ∧
      state.1 ≤ (World.replayEvent kind state event).1 := by
  unfold World.replayEvent
  split
  · exact ⟨kept, Nat.le_refl _⟩
  · exact ⟨promise.offer kept rfl, Nat.le_succ _⟩

theorem foldl {α : Type} {round : Nat × Observed → α → Nat × Observed}
    (keeps : ∀ state item, holds state.1 state.2 →
      holds (round state item).1 (round state item).2 ∧ state.1 ≤ (round state item).1)
    (items : List α) (state : Nat × Observed) (kept : holds state.1 state.2) :
    holds (items.foldl round state).1 (items.foldl round state).2 ∧
      state.1 ≤ (items.foldl round state).1 := by
  induction items generalizing state with
  | nil => exact ⟨kept, Nat.le_refl _⟩
  | cons item rest later =>
    rcases keeps state item kept with ⟨after, grows⟩
    rcases later (round state item) after with ⟨final, grown⟩
    exact ⟨final, Nat.le_trans grows grown⟩

theorem replayKind (promise : Promise holds) (providers : EventKind → Option (List Event))
    (state : Nat × Observed) (kind : EventKind) (kept : holds state.1 state.2) :
    holds (World.replayKind providers state kind).1 (World.replayKind providers state kind).2 ∧
      state.1 ≤ (World.replayKind providers state kind).1 := by
  unfold World.replayKind
  split
  · exact ⟨kept, Nat.le_refl _⟩
  · cases providers kind with
    | none => exact ⟨kept, Nat.le_refl _⟩
    | some events => exact foldl (fun _ event => promise.replayEvent event) events state kept

section

variable {world : World} (promise : Promise holds)

include promise

variable (kept : ∀ entry ∈ world.subscriptions, holds world.nextSequence entry.2)

include kept

theorem subscribe (providers : EventKind → Option (List Event)) (scope : SubscriptionScope)
    (options : QueueOptions) :
    ∀ entry ∈ (world.subscribe providers scope options).subscriptions,
      holds (world.subscribe providers scope options).nextSequence entry.2 := by
  rcases foldl (promise.replayKind providers) (normalizedKinds scope)
    (world.nextSequence,
      { state := SubscriptionState.create { scope with kinds := normalizedKinds scope } options })
    (promise.create _ _ _) with ⟨replayed, grows⟩
  intro entry member
  rcases mem_append.mp member with old | new
  · exact promise.mono (kept entry old) grows
  · rw [mem_singleton.mp new]
    exact replayed

theorem publish (event : Event) :
    ∀ entry ∈ (world.publish event).subscriptions,
      holds (world.publish event).nextSequence entry.2 := by
  intro entry member
  rcases mem_map.mp member with ⟨before, inWorld, rfl⟩
  unfold World.offer
  split
  · exact promise.offer (kept before inWorld) rfl
  · exact promise.mono (kept before inWorld) (Nat.le_succ _)

theorem pops (id : SubscriptionId) :
    ∀ entry ∈ (world.pop id).subscriptions, holds (world.pop id).nextSequence entry.2 := by
  intro entry member
  rcases mem_map.mp member with ⟨before, inWorld, rfl⟩
  split
  · exact promise.pop (kept before inWorld)
  · exact kept before inWorld

end

theorem run (promise : Promise holds) (actions : List Action) :
    ∀ entry ∈ (World.run actions).subscriptions,
      holds (World.run actions).nextSequence entry.2 := by
  unfold World.run
  have start : ∀ entry ∈ ({} : World).subscriptions, holds ({} : World).nextSequence entry.2 := by
    intro entry member
    cases member
  generalize ({} : World) = world at start ⊢
  induction actions generalizing world with
  | nil => exact start
  | cons action rest later =>
    apply later
    cases action with
    | subscribe providers scope options => exact promise.subscribe start providers scope options
    | unsubscribe id => exact fun entry member => start entry (mem_of_mem_eraseP member)
    | publish event => exact promise.publish start event
    | pop id => exact promise.pops start id

end Promise

/-! ## Nothing is lost unseen -/

/-- Every observed subscription that can hold an item is kept. -/
def World.Kept (world : World) : Prop :=
  ∀ entry ∈ world.subscriptions, 0 < entry.2.state.buffer.cells.length →
    entry.2.Kept world.nextSequence

theorem Observed.capacity_offer (observed : Observed) (event : Event) :
    (observed.offer event).state.buffer.cells.length =
      observed.state.buffer.cells.length :=
  observed.state.enqueue_capacity event

theorem Observed.capacity_pop (observed : Observed) :
    observed.pop.state.buffer.cells.length = observed.state.buffer.cells.length :=
  observed.state.tryPopItem_stream.2.2.1

/-- A subscription under replay is kept at the number the replay has reached. -/
def ReplayKept (state : Nat × Observed) : Prop :=
  0 < state.2.state.buffer.cells.length → state.2.Kept state.1

theorem kept_create {scope : SubscriptionScope} {options : QueueOptions} (next : Nat)
    (capacity : 0 < (SubscriptionState.create scope options).buffer.cells.length) :
    Observed.Kept { state := SubscriptionState.create scope options } next := by
  have stream : Observed.stream { state := SubscriptionState.create scope options } = [] :=
    RingBuffer.contents_blank options.capacity (.event {})
  constructor
  case capacity => exact capacity
  case faithful =>
    constructor
    case ordered =>
      rw [stream]
      exact List.Pairwise.nil
    case covered =>
      intro offer member
      cases member
    case explained =>
      intro offer member
      cases member
  case fresh =>
    intro offer member
    cases member
  case known =>
    rw [stream]
    intro event member
    cases member

theorem replayKept_promise : Promise fun next observed => ReplayKept (next, observed) where
  create _ _ next := kept_create next
  mono kept grows capacity := (kept capacity).mono grows
  offer {observed next event} kept number capacity := by
    have before : 0 < observed.state.buffer.cells.length :=
      Nat.lt_of_lt_of_eq capacity (observed.capacity_offer event)
    exact (kept before).offer number
  pop {observed next} kept capacity := by
    have before : 0 < observed.state.buffer.cells.length :=
      Nat.lt_of_lt_of_eq capacity observed.capacity_pop
    exact (kept before).pop

theorem World.kept_run (actions : List Action) : (World.run actions).Kept :=
  replayKept_promise.run actions

/-- In every run of the bus, a subscription that can hold an item hands out events in the order
of publication, covers by a marker what must not be dropped, and loses another event only by
counting it, marking a gap in its place or keeping a later motion instead. -/
theorem subscription_faithful (actions : List Action) {id : SubscriptionId}
    {observed : Observed} (subscribed : (id, observed) ∈ (World.run actions).subscriptions)
    (capacity : 0 < observed.state.buffer.cells.length) : observed.Faithful :=
  (World.kept_run actions (id, observed) subscribed capacity).faithful

/-- A full queue of one key event: the second key replaces it by a marker, the third is behind
the same marker, and the marker is what the subscriber gets. -/
def crowdedRun : List Action :=
  [ .subscribe (fun _ => none) { kinds := [.keyDown] } { capacity := 1 },
    .publish { kind := .keyDown, category := .input },
    .publish { kind := .keyDown, category := .input },
    .publish { kind := .keyDown, category := .input },
    .pop 1 ]

theorem subscription_faithful_crowded :
    ∃ observed, (1, observed) ∈ (World.run crowdedRun).subscriptions ∧
      observed.popped = [.gap {}] ∧ observed.offers.length = 3 ∧ observed.Faithful := by
  have subscribed : ∃ observed, (World.run crowdedRun).subscriptions = [(1, observed)] ∧
      observed.popped = [.gap {}] ∧ observed.offers.length = 3 ∧
      observed.state.buffer.cells.length = 1 :=
    ⟨_, rfl, by decide +kernel, by decide +kernel, by decide +kernel⟩
  rcases subscribed with ⟨observed, only, popped, offers, capacity⟩
  have member : (1, observed) ∈ (World.run crowdedRun).subscriptions := by
    rw [only]
    exact mem_singleton_self _
  exact ⟨observed, member, popped, offers, subscription_faithful crowdedRun member (by omega)⟩

end Grab.Events
