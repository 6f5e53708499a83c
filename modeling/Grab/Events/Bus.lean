import Grab.Lib.RingBuffer
import Grab.Sequence.Types

/-!
# The event bus

`kernel/events/event_bus.cpp`: the bounded queue of one subscription and the bus that numbers
events, fans them out and counts the subscriptions of each kind.  A function here is what the
source does under one lock.

Payload, origin and the other fields of an event that no queue reads are left out.
-/

namespace Grab.Events

open Grab.Lib

/-! ## Events and their descriptors -/

inductive EventKind where
  | unspecified
  | keyDown | keyUp | keyCombo | mouseClick | mouseMove | idleStart | idleEnd
  | mouseButtonDown | mouseButtonUp
  | windowFocusChanged | windowTitleChanged | windowCreated | windowClosed
  | a11yButtonClicked | a11yMenuOpened | a11yMenuClosed | a11yFocusChanged
  | a11yTextChanged | a11yStateChanged
  | appTabChanged | appContextUpdate
  | stateSnapshot
  | nodeAdded | nodeRemoved | nodeChanged | relationAdded | relationRemoved
  | activeChildChanged
  deriving DecidableEq, Repr

inductive EventCategory where
  | unspecified | input | window | accessibility | integration | state
  deriving DecidableEq, Repr

inductive ReplayPolicy where
  | none | currentSet
  deriving DecidableEq, Repr

inductive CoalescingClass where
  | coalesce | neverDrop
  deriving DecidableEq, Repr

structure EventDescriptor where
  kind : EventKind
  replayPolicy : ReplayPolicy := .none
  coalescingClass : CoalescingClass := .coalesce
  deriving DecidableEq, Repr

def eventDescriptors : List EventDescriptor :=
  [ { kind := .unspecified },
    { kind := .keyDown, coalescingClass := .neverDrop },
    { kind := .keyUp, coalescingClass := .neverDrop },
    { kind := .keyCombo, coalescingClass := .neverDrop },
    { kind := .mouseClick, coalescingClass := .neverDrop },
    { kind := .mouseMove, coalescingClass := .coalesce },
    { kind := .idleStart, coalescingClass := .neverDrop },
    { kind := .idleEnd, coalescingClass := .neverDrop },
    { kind := .mouseButtonDown, coalescingClass := .neverDrop },
    { kind := .mouseButtonUp, coalescingClass := .neverDrop },
    { kind := .windowFocusChanged },
    { kind := .windowTitleChanged },
    { kind := .windowCreated, replayPolicy := .currentSet, coalescingClass := .neverDrop },
    { kind := .windowClosed, coalescingClass := .neverDrop },
    { kind := .a11yButtonClicked, coalescingClass := .neverDrop },
    { kind := .a11yMenuOpened, coalescingClass := .neverDrop },
    { kind := .a11yMenuClosed, coalescingClass := .neverDrop },
    { kind := .a11yFocusChanged },
    { kind := .a11yTextChanged },
    { kind := .a11yStateChanged },
    { kind := .appTabChanged },
    { kind := .appContextUpdate },
    { kind := .stateSnapshot, replayPolicy := .currentSet },
    { kind := .nodeAdded, coalescingClass := .neverDrop },
    { kind := .nodeRemoved, coalescingClass := .neverDrop },
    { kind := .nodeChanged, coalescingClass := .coalesce },
    { kind := .relationAdded, coalescingClass := .neverDrop },
    { kind := .relationRemoved, coalescingClass := .neverDrop },
    { kind := .activeChildChanged, coalescingClass := .neverDrop } ]

def replayPolicyOf (kind : EventKind) : ReplayPolicy :=
  match eventDescriptors.find? (fun row => row.kind == kind) with
  | some row => row.replayPolicy
  | none => .none

def coalescingClassOf (kind : EventKind) : CoalescingClass :=
  match eventDescriptors.find? (fun row => row.kind == kind) with
  | some row => row.coalescingClass
  | none => .coalesce

structure Event where
  kind : EventKind := .unspecified
  category : EventCategory := .unspecified
  sequence : Nat := 0
  deriving DecidableEq, Repr

structure EventFilter where
  kinds : List EventKind := []
  categories : List EventCategory := []
  deriving DecidableEq, Repr

def EventFilter.matches (filter : EventFilter) (event : Event) : Bool :=
  (filter.kinds.isEmpty || filter.kinds.contains event.kind) &&
    (filter.categories.isEmpty || filter.categories.contains event.category)

structure SubscriptionScope where
  kinds : List EventKind := []
  filter : EventFilter := {}
  deriving DecidableEq, Repr

inductive QueueOverflowPolicy where
  | coalesce | neverDrop
  deriving DecidableEq, Repr

structure QueueOptions where
  capacity : Nat := 1024
  overflow : QueueOverflowPolicy := .coalesce
  deriving DecidableEq, Repr

structure QueueGapMarker where
  code : ErrorCode := .queueGap
  lastDeliveredSequence : Nat := 0
  deriving DecidableEq, Repr

inductive SubscriptionEvent where
  | event (event : Event)
  | gap (marker : QueueGapMarker)
  deriving DecidableEq, Repr

/-! ## One subscription -/

structure SubscriptionState where
  scope : SubscriptionScope
  buffer : RingBuffer SubscriptionEvent
  overflowPolicy : QueueOverflowPolicy
  /-- Whether a notification is installed. -/
  notify : Bool := false
  overflowCount : Nat := 0
  lagging : Bool := false
  needsResync : Bool := false
  lastDeliveredSequence : Nat := 0

def SubscriptionState.matches (subscription : SubscriptionState) (event : Event) : Bool :=
  (subscription.scope.kinds.isEmpty || subscription.scope.kinds.contains event.kind) &&
    subscription.scope.filter.matches event

namespace SubscriptionState

def create (scope : SubscriptionScope) (options : QueueOptions) : SubscriptionState where
  scope := scope
  buffer := RingBuffer.blank options.capacity (.event {})
  overflowPolicy := options.overflow

def markOverflow (subscription : SubscriptionState) : SubscriptionState :=
  { subscription with lagging := true, overflowCount := subscription.overflowCount + 1 }

def isGap : Option SubscriptionEvent → Bool
  | some (.gap _) => true
  | _ => false

def isMotion : Option SubscriptionEvent → Bool
  | some (.event event) => event.kind == .mouseMove
  | _ => false

/-- Count the loss and leave a marker in the place of the newest item. -/
def markGap (subscription : SubscriptionState) : SubscriptionState :=
  let marked := { subscription.markOverflow with needsResync := true }
  if marked.buffer.cells = [] then marked
  else if isGap marked.buffer.back? then marked
  else
    let marker : QueueGapMarker := { lastDeliveredSequence := marked.lastDeliveredSequence }
    { marked with buffer := marked.buffer.setBack (.gap marker) }

/-- A motion that may take the place of the motion queued last. -/
def coalesces (subscription : SubscriptionState) (event : Event) : Bool :=
  subscription.overflowPolicy == .coalesce && coalescingClassOf event.kind == .coalesce &&
    event.kind == .mouseMove && isMotion subscription.buffer.back?

/-- The queue after an event, and whether to notify. -/
def enqueue (subscription : SubscriptionState) (event : Event) : SubscriptionState × Bool :=
  if subscription.buffer.cells = [] then
    (subscription.markOverflow, false)
  else if room : subscription.buffer.size < subscription.buffer.cells.length then
    ({ subscription with buffer := subscription.buffer.push (.event event) room },
      subscription.notify)
  else if subscription.coalesces event then
    ({ subscription with buffer := subscription.buffer.setBack (.event event) },
      subscription.notify)
  else if subscription.overflowPolicy = .neverDrop ∨
      coalescingClassOf event.kind = .neverDrop then
    (subscription.markGap, subscription.notify)
  else
    (subscription.markOverflow, false)

def deliver (subscription : SubscriptionState) : SubscriptionEvent → SubscriptionState
  | .event event => { subscription with lastDeliveredSequence := event.sequence }
  | .gap _ => subscription

def tryPopItem (subscription : SubscriptionState) : SubscriptionState × Option SubscriptionEvent :=
  if subscription.buffer.size = 0 then
    (subscription, none)
  else
    match subscription.buffer.cells[subscription.buffer.head]? with
    | none => (subscription, none)
    | some item =>
      (deliver { subscription with buffer := subscription.buffer.pop (.event {}) } item, some item)

end SubscriptionState

/-! ## The bus -/

abbrev SubscriptionId := Nat

structure EventBusState where
  subscriptions : List (SubscriptionId × SubscriptionState) := []
  /-- Zero where the source has no entry. -/
  subscriptionRefcounts : EventKind → Nat := fun _ => 0
  nextSequence : Nat := 1
  /-- Identifiers handed out, in order. -/
  nextSubscriptionId : SubscriptionId := 1

/-- The kinds a scope names, each once; all of them when it names none. -/
def normalizedKinds (scope : SubscriptionScope) : List EventKind :=
  if scope.kinds = [] then eventDescriptors.map EventDescriptor.kind
  else scope.kinds.foldl
    (fun unique kind => if unique.contains kind then unique else unique ++ [kind]) []

namespace EventBusState

/-- Replay one event of a snapshot to a subscription that is being added. -/
def replayEvent (kind : EventKind) (state : Nat × SubscriptionState) (event : Event) :
    Nat × SubscriptionState :=
  if event.kind ≠ kind ∨ state.2.matches event = false then state
  else (state.1 + 1, (state.2.enqueue { event with sequence := state.1 }).1)

/-- Replay the current set of one kind; a provider is asked when there is one. -/
def replayKind (providers : EventKind → Option (List Event)) (state : Nat × SubscriptionState)
    (kind : EventKind) : Nat × SubscriptionState :=
  if replayPolicyOf kind ≠ .currentSet then state
  else
    match providers kind with
    | none => state
    | some events => events.foldl (replayEvent kind) state

/-- Count one more subscription of a kind and note the first. -/
def retain (state : (EventKind → Nat) × List (EventKind × Bool)) (kind : EventKind) :
    (EventKind → Nat) × List (EventKind × Bool) :=
  (Function.update state.1 kind (state.1 kind + 1),
    if state.1 kind = 0 then state.2 ++ [(kind, true)] else state.2)

/-- Count one subscription of a kind less and note the last. -/
def release (state : (EventKind → Nat) × List (EventKind × Bool)) (kind : EventKind) :
    (EventKind → Nat) × List (EventKind × Bool) :=
  if state.1 kind = 0 then state
  else
    (Function.update state.1 kind (state.1 kind - 1),
      if state.1 kind = 1 then state.2 ++ [(kind, false)] else state.2)

/-- The locked part of `add`, with the transitions it reports afterwards. -/
def add (bus : EventBusState) (providers : EventKind → Option (List Event))
    (scope : SubscriptionScope) (options : QueueOptions) :
    EventBusState × List (EventKind × Bool) :=
  let scope := { scope with kinds := normalizedKinds scope }
  let (nextSequence, subscription) :=
    scope.kinds.foldl (replayKind providers)
      (bus.nextSequence, SubscriptionState.create scope options)
  let (refcounts, transitions) := scope.kinds.foldl retain (bus.subscriptionRefcounts, [])
  ({ subscriptions := bus.subscriptions ++ [(bus.nextSubscriptionId, subscription)]
     subscriptionRefcounts := refcounts
     nextSequence := nextSequence
     nextSubscriptionId := bus.nextSubscriptionId + 1 }, transitions)

/-- The locked part of `remove`, with the transitions it reports afterwards. -/
def remove (bus : EventBusState) (id : SubscriptionId) : EventBusState × List (EventKind × Bool) :=
  match bus.subscriptions.lookup id with
  | none => (bus, [])
  | some subscription =>
    let (refcounts, transitions) :=
      subscription.scope.kinds.foldl release (bus.subscriptionRefcounts, [])
    ({ bus with
        subscriptions := bus.subscriptions.eraseP fun entry => entry.1 == id
        subscriptionRefcounts := refcounts }, transitions)

def offer (event : Event) (entry : SubscriptionId × SubscriptionState) :
    SubscriptionId × SubscriptionState :=
  if entry.2.matches event then (entry.1, (entry.2.enqueue event).1) else entry

def publish (bus : EventBusState) (event : Event) : EventBusState :=
  let event := { event with sequence := bus.nextSequence }
  { bus with
    subscriptions := bus.subscriptions.map (offer event)
    nextSequence := bus.nextSequence + 1 }

end EventBusState

end Grab.Events
