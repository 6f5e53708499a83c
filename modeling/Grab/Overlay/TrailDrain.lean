import Grab.Events.Queue

/-!
# The drain of the cursor trail

`CursorTrailObserver` and `SessionTrailBridge` of `kernel/presentation/cursor_trail.hpp`.  A step
is one atomic action of a publisher or of the reactor: a publisher queues an event, tries to take
the flag `scheduled_` and posts a drain; a drain pops, consumes, gives the flag back, looks once
more and flushes.  Publishers differ only in how far they have come, so they are counted.

The animator and the overlay are given: a machine that answers an item with changes of the scene,
and one that takes shapes.  `stop` is left out, and every post succeeds.
-/

namespace Grab.Overlay.Trail

open Grab.Lib List Option Bool
open Grab.Events

/-! ## The bridge -/

/-- A change of the private scene, as the sink tells them apart. -/
inductive SceneChange (Shape : Type) where
  | upsert (shape : Shape)
  | other

/-- What stands around the bridge. -/
structure Surroundings (Shape Animator Overlay : Type) where
  /-- What the animator does with an item at a time. -/
  animate : Int → Animator → SubscriptionEvent → Animator × List (SceneChange Shape)
  /-- `Overlay::add_many`, and whether it succeeded. -/
  addMany : Overlay → List Shape → Overlay × Bool

structure SessionTrailBridge (Shape Animator Overlay : Type) where
  animator : Animator
  overlay : Overlay
  pendingShapes : List Shape := []
  /-- Whether an error is remembered. -/
  error : Bool := false
  /-- Every shape the animator made, and every shape given to the overlay. -/
  made : List Shape := []
  given : List Shape := []

namespace SessionTrailBridge

variable {Shape Animator Overlay : Type} (surroundings : Surroundings Shape Animator Overlay)

def flushPending (bridge : SessionTrailBridge Shape Animator Overlay) :
    SessionTrailBridge Shape Animator Overlay :=
  if bridge.pendingShapes.isEmpty then bridge
  else
    let (overlay, added) := surroundings.addMany bridge.overlay bridge.pendingShapes
    { bridge with
      overlay
      pendingShapes := []
      error := bridge.error || !added
      given := bridge.given ++ bridge.pendingShapes }

def forward (bridge : SessionTrailBridge Shape Animator Overlay) :
    SceneChange Shape → SessionTrailBridge Shape Animator Overlay
  | .upsert shape =>
    { bridge with
      pendingShapes := bridge.pendingShapes ++ [shape]
      made := bridge.made ++ [shape] }
  | .other => bridge.flushPending surroundings

def consume (bridge : SessionTrailBridge Shape Animator Overlay) (now : Int)
    (item : SubscriptionEvent) : SessionTrailBridge Shape Animator Overlay :=
  let (animator, changes) := surroundings.animate now bridge.animator item
  changes.foldl (forward surroundings) { bridge with animator }

/-- No shape is lost on the way. -/
def Kept (bridge : SessionTrailBridge Shape Animator Overlay) : Prop :=
  bridge.given ++ bridge.pendingShapes = bridge.made

variable {surroundings} {bridge : SessionTrailBridge Shape Animator Overlay}

theorem kept_flushPending (kept : bridge.Kept) : (bridge.flushPending surroundings).Kept := by
  unfold flushPending
  split
  · exact kept
  · exact (append_nil _).trans kept

theorem flushPending_pendingShapes : (bridge.flushPending surroundings).pendingShapes = [] := by
  unfold flushPending
  split
  · rename_i empty
    exact List.isEmpty_iff.mp empty
  · rfl

theorem kept_forward (kept : bridge.Kept) (change : SceneChange Shape) :
    (bridge.forward surroundings change).Kept := by
  cases change with
  | upsert shape =>
    change bridge.given ++ (bridge.pendingShapes ++ [shape]) = bridge.made ++ [shape]
    rw [← append_assoc, kept]
  | other => exact kept_flushPending kept

theorem kept_consume (kept : bridge.Kept) (now : Int) (item : SubscriptionEvent) :
    (bridge.consume surroundings now item).Kept := by
  have changed : ∀ (changes : List (SceneChange Shape))
      (bridge : SessionTrailBridge Shape Animator Overlay), bridge.Kept →
      (changes.foldl (forward surroundings) bridge).Kept := by
    intro changes
    induction changes with
    | nil => exact fun _ kept => kept
    | cons change rest later => exact fun _ kept => later _ (kept_forward kept change)
  exact changed _ { bridge with animator := _ } kept

end SessionTrailBridge

/-! ## The observer -/

/-- What the reactor does next. -/
inductive Drain where
  | idle
  | popping
  | consuming (item : SubscriptionEvent)
  | releasing
  | rechecking
  | retaking (raced : SubscriptionEvent)
  | consumingRaced (raced : SubscriptionEvent) (retaken : Bool)
  | flushing
  deriving DecidableEq

structure CursorTrailObserver (Shape Animator Overlay : Type) where
  subscription : SubscriptionState
  bridge : SessionTrailBridge Shape Animator Overlay
  scheduled : Bool := false
  /-- Publishers that queued an event and have not called back yet. -/
  notifying : Nat := 0
  /-- Publishers that took the flag and have not posted yet. -/
  posting : Nat := 0
  /-- Drains that wait on the reactor. -/
  posted : Nat := 0
  drain : Drain := .idle
  /-- The items the queue took, in its order, and the items consumed. -/
  taken : List SubscriptionEvent := []
  consumed : List SubscriptionEvent := []
  /-- Whether an event was published after `install`. -/
  published : Bool := false

inductive Action where
  | install
  | enqueue (event : Event)
  | schedule
  | post
  | start
  | pop
  | consume (now : Int)
  | release
  | recheck
  | retake
  | flush
  deriving DecidableEq

namespace CursorTrailObserver

variable {Shape Animator Overlay : Type} (surroundings : Surroundings Shape Animator Overlay)

/-- `start_cursor_trail` before `install`. -/
def create (animator : Animator) (overlay : Overlay) :
    CursorTrailObserver Shape Animator Overlay where
  subscription := SubscriptionState.create { kinds := [.mouseMove] } {}
  bridge := { animator, overlay }

/-- The items a queue took: a full one takes a motion in the place of the newest. -/
def take (observer : CursorTrailObserver Shape Animator Overlay) (event : Event) :
    List SubscriptionEvent :=
  if observer.subscription.buffer.size < observer.subscription.buffer.cells.length then
    observer.taken ++ [.event event]
  else observer.taken.dropLast ++ [.event event]

/-- The locked part of a publication.  The callback is the one installed at that moment. -/
def enqueue (observer : CursorTrailObserver Shape Animator Overlay) (event : Event) :
    CursorTrailObserver Shape Animator Overlay :=
  if observer.subscription.matches event then
    let (subscription, notify) := observer.subscription.enqueue event
    { observer with
      subscription
      notifying := if notify then observer.notifying + 1 else observer.notifying
      taken := observer.take event
      published := observer.published || observer.subscription.notify }
  else observer

/-- The compare-exchange of `schedule`. -/
def schedule (observer : CursorTrailObserver Shape Animator Overlay) :
    CursorTrailObserver Shape Animator Overlay :=
  if observer.notifying = 0 then observer
  else if observer.scheduled then { observer with notifying := observer.notifying - 1 }
  else
    { observer with
      notifying := observer.notifying - 1
      scheduled := true
      posting := observer.posting + 1 }

/-- The post at the end of `schedule`. -/
def post (observer : CursorTrailObserver Shape Animator Overlay) :
    CursorTrailObserver Shape Animator Overlay :=
  if observer.posting = 0 then observer
  else { observer with posting := observer.posting - 1, posted := observer.posted + 1 }

/-- The reactor starts a drain that was posted. -/
def start (observer : CursorTrailObserver Shape Animator Overlay) :
    CursorTrailObserver Shape Animator Overlay :=
  if observer.posted = 0 then observer
  else { observer with posted := observer.posted - 1, drain := .popping }

def pop (observer : CursorTrailObserver Shape Animator Overlay)
    (found : SubscriptionEvent → Drain) (empty : Drain) :
    CursorTrailObserver Shape Animator Overlay :=
  let (subscription, item) := observer.subscription.tryPopItem
  { observer with subscription, drain := item.elim empty found }

def consume (observer : CursorTrailObserver Shape Animator Overlay) (now : Int)
    (item : SubscriptionEvent) (next : Drain) : CursorTrailObserver Shape Animator Overlay :=
  { observer with
    bridge := observer.bridge.consume surroundings now item
    consumed := observer.consumed ++ [item]
    drain := next }

/-- The compare-exchange of a drain that found an item after it gave the flag back. -/
def retake (observer : CursorTrailObserver Shape Animator Overlay) (raced : SubscriptionEvent) :
    CursorTrailObserver Shape Animator Overlay :=
  { observer with
    scheduled := true
    drain := .consumingRaced raced (!observer.scheduled) }

/-- One atomic action; an action that is not due changes nothing. -/
def step (observer : CursorTrailObserver Shape Animator Overlay) (action : Action) :
    CursorTrailObserver Shape Animator Overlay :=
  match action, observer.drain with
  | .install, _ => { observer with subscription := { observer.subscription with notify := true } }
  | .enqueue event, _ => observer.enqueue event
  | .schedule, _ => observer.schedule
  | .post, _ => observer.post
  | .start, .idle => observer.start
  | .pop, .popping => observer.pop .consuming .releasing
  | .consume now, .consuming item => observer.consume surroundings now item .popping
  | .release, .releasing => { observer with scheduled := false, drain := .rechecking }
  | .recheck, .rechecking => observer.pop .retaking .flushing
  | .retake, .retaking raced => observer.retake raced
  | .consume now, .consumingRaced raced retaken =>
    observer.consume surroundings now raced (if retaken then .popping else .flushing)
  | .flush, .flushing =>
    { observer with bridge := observer.bridge.flushPending surroundings, drain := .idle }
  | _, _ => observer

def run (observer : CursorTrailObserver Shape Animator Overlay) (actions : List Action) :
    CursorTrailObserver Shape Animator Overlay :=
  actions.foldl (step surroundings) observer

/-! ## What every action keeps -/

/-- The item a drain has in hand. -/
def inHand : Drain → List SubscriptionEvent
  | .consuming item | .retaking item | .consumingRaced item _ => [item]
  | _ => []

/-- Drains that hold the flag. -/
def holds : Drain → Nat
  | .popping | .consuming _ | .releasing | .consumingRaced _ true => 1
  | _ => 0

/-- Places at which a drain is going to find what is queued without the flag. -/
def looksAgain : Drain → Prop
  | .rechecking | .retaking _ => True
  | _ => False

structure Sound (observer : CursorTrailObserver Shape Animator Overlay) : Prop where
  scope : observer.subscription.scope.kinds = [.mouseMove]
  policy : observer.subscription.overflowPolicy = .coalesce
  capacity : 0 < observer.subscription.buffer.cells.length
  motions : ∀ item ∈ observer.subscription.queue, SubscriptionState.isMotion (some item) = true
  /-- Items are consumed in the order of the queue, each once. -/
  order : observer.consumed ++ inHand observer.drain ++ observer.subscription.queue = observer.taken
  /-- The flag is up while one publisher or one drain has it. -/
  flag : observer.posting + observer.posted + holds observer.drain = observer.scheduled.toNat
  installed : observer.published = true → observer.subscription.notify = true
  /-- Somebody is going to look at what is queued. -/
  awake : observer.published = true → observer.subscription.queue ≠ [] →
    observer.scheduled = true ∨ 0 < observer.notifying ∨ looksAgain observer.drain
  kept : observer.bridge.Kept
  flushed : observer.drain = .idle → observer.bridge.pendingShapes = []

variable {surroundings} {observer : CursorTrailObserver Shape Animator Overlay}
  {subscription : SubscriptionState} {event : Event}

/-- The queue takes every motion: a full one in the place of the newest. -/
theorem enqueue_motion (policy : subscription.overflowPolicy = .coalesce)
    (capacity : 0 < subscription.buffer.cells.length)
    (motions : ∀ item ∈ subscription.queue, SubscriptionState.isMotion (some item) = true)
    (motion : event.kind = .mouseMove) : (subscription.enqueue event).2 = subscription.notify ∧
      (subscription.enqueue event).1.queue =
        if subscription.buffer.size < subscription.buffer.cells.length then
          subscription.queue ++ [.event event]
        else subscription.queue.dropLast ++ [.event event] := by
  have cells : subscription.buffer.cells ≠ [] := ne_nil_of_length_pos capacity
  unfold SubscriptionState.enqueue
  rw [if_neg cells]
  by_cases room : subscription.buffer.size < subscription.buffer.cells.length
  · rw [dif_pos room, if_pos room]
    exact ⟨rfl, RingBuffer.contents_push room⟩
  rw [dif_neg room, if_neg room]
  have nonEmpty : 0 < subscription.buffer.size := by omega
  have newest := RingBuffer.back?_eq nonEmpty
  have someItem : subscription.buffer.contents ≠ [] := by
    apply ne_nil_of_length_pos
    rw [RingBuffer.length_contents]
    exact nonEmpty
  have coalesces : subscription.coalesces event = true := by
    unfold SubscriptionState.coalesces
    rw [policy, motion, newest, getLast?_eq_some_getLast someItem, motions _ (getLast_mem someItem)]
    rfl
  rw [if_pos coalesces]
  exact ⟨rfl, RingBuffer.contents_setBack nonEmpty⟩

theorem enqueue_notify (subscription : SubscriptionState) (event : Event) :
    (subscription.enqueue event).1.notify = subscription.notify := by
  unfold SubscriptionState.enqueue SubscriptionState.markGap
  dsimp only
  split_ifs <;> rfl

theorem tryPopItem_notify (subscription : SubscriptionState) :
    subscription.tryPopItem.1.notify = subscription.notify := by
  unfold SubscriptionState.tryPopItem
  split
  · rfl
  split
  · rfl
  · unfold SubscriptionState.deliver
    split <;> rfl

theorem tryPopItem_none (none_ : subscription.tryPopItem.2 = none) :
    subscription.tryPopItem.1.queue = [] := by
  unfold SubscriptionState.tryPopItem at none_
  split at none_
  · rename_i empty
    unfold SubscriptionState.tryPopItem
    rw [if_pos empty]
    apply eq_nil_of_length_eq_zero
    exact (RingBuffer.length_contents _).trans empty
  rename_i nonEmpty
  have front := RingBuffer.cells_head (Nat.pos_of_ne_zero nonEmpty)
  split at none_
  · rename_i missing
    rw [missing, eq_comm, head?_eq_none_iff] at front
    have length := RingBuffer.length_contents subscription.buffer
    rw [front, length_nil] at length
    omega
  · cases none_

theorem kind_of_matches (scope : subscription.scope.kinds = [.mouseMove])
    (isMatch : subscription.matches event = true) : event.kind = .mouseMove := by
  unfold SubscriptionState.matches at isMatch
  rw [scope, and_eq_true] at isMatch
  simpa using isMatch.1

namespace Sound

variable (sound : observer.Sound)

include sound

theorem enqueue (event : Event) : (observer.enqueue event).Sound := by
  unfold CursorTrailObserver.enqueue
  split
  case isFalse => exact sound
  case isTrue isMatch =>
    have motion := kind_of_matches sound.scope isMatch
    have ⟨notify, queue⟩ := enqueue_motion sound.policy sound.capacity sound.motions motion
    dsimp only
    rw [notify]
    constructor
    case scope =>
      exact (congrArg _ (SubscriptionState.enqueue_scope _ event)).trans sound.scope
    case policy => exact (SubscriptionState.enqueue_policy _ event).trans sound.policy
    case capacity =>
      dsimp only
      rw [SubscriptionState.enqueue_capacity]
      exact sound.capacity
    case motions =>
      dsimp only
      rw [queue]
      have isMotion : SubscriptionState.isMotion (some (.event event)) = true := by
        change (event.kind == .mouseMove) = true
        rw [motion]
        rfl
      intro item member
      split at member
      · rcases mem_append.mp member with old | new
        · exact sound.motions item old
        · rw [mem_singleton.mp new]
          exact isMotion
      rcases mem_append.mp member with old | new
      · exact sound.motions item (mem_of_mem_dropLast old)
      · rw [mem_singleton.mp new]
        exact isMotion
    case order =>
      dsimp only
      rw [queue]
      unfold take
      split
      · rw [← append_assoc, sound.order]
      -- The newest item that was taken is the newest of the queue.
      rename_i full
      have someItem : observer.subscription.queue ≠ [] := by
        apply ne_nil_of_length_pos
        have length := RingBuffer.length_contents observer.subscription.buffer
        have capacity := sound.capacity
        change 0 < observer.subscription.buffer.contents.length
        omega
      rw [← sound.order, dropLast_append_of_ne_nil someItem]
      simp only [append_assoc]
    case flag => exact sound.flag
    case installed =>
      intro published
      dsimp only at published ⊢
      rw [enqueue_notify]
      rw [or_eq_true] at published
      exact published.elim sound.installed id
    case awake =>
      intro published _
      dsimp only at published ⊢
      have installed : observer.subscription.notify = true := by
        rw [or_eq_true] at published
        exact published.elim sound.installed id
      rw [if_pos installed]
      exact .inr (.inl (Nat.succ_pos _))
    case kept => exact sound.kept
    case flushed => exact sound.flushed

/-- A pop moves the front of the queue into the hand of the drain. -/
theorem pop {found : SubscriptionEvent → Drain} {empty : Drain}
    (emptyHanded : inHand observer.drain = []) (takes : ∀ item, inHand (found item) = [item])
    (takesNone : inHand empty = []) (busy : ∀ item, found item ≠ .idle)
    (stillBusy : empty ≠ .idle) (sameHold : ∀ item, holds (found item) = holds observer.drain)
    (emptyHold : holds empty = holds observer.drain)
    (awake : ∀ item, observer.scheduled = true ∨ looksAgain (found item)) :
    (observer.pop found empty).Sound := by
  have ⟨stream, policy, capacity, scope⟩ := observer.subscription.tryPopItem_stream
  unfold CursorTrailObserver.pop
  dsimp only
  constructor
  case scope =>
    dsimp only
    rw [scope]
    exact sound.scope
  case policy =>
    dsimp only
    rw [policy]
    exact sound.policy
  case capacity =>
    dsimp only
    rw [capacity]
    exact sound.capacity
  case motions =>
    intro item member
    apply sound.motions item
    rw [← stream]
    exact mem_append_right _ member
  case order =>
    have order := sound.order
    rw [emptyHanded, append_nil, ← stream] at order
    dsimp only
    rw [append_assoc, ← order]
    cases observer.subscription.tryPopItem.2 with
    | none => rw [elim_none, takesNone, toList_none]
    | some item => rw [elim_some, takes, toList_some]
  case flag =>
    dsimp only
    rw [← sound.flag]
    cases observer.subscription.tryPopItem.2 with
    | none => rw [elim_none, emptyHold]
    | some item => rw [elim_some, sameHold]
  case installed =>
    intro published
    dsimp only
    rw [tryPopItem_notify]
    exact sound.installed published
  case awake =>
    intro published nonempty
    dsimp only at nonempty ⊢
    cases popped : observer.subscription.tryPopItem.2 with
    | none =>
      exact absurd (tryPopItem_none popped) nonempty
    | some item =>
      rw [elim_some]
      exact (awake item).imp_right .inr
  case kept => exact sound.kept
  case flushed =>
    intro isIdle
    dsimp only at isIdle
    cases popped : observer.subscription.tryPopItem.2 with
    | none =>
      rw [popped, elim_none] at isIdle
      exact absurd isIdle stillBusy
    | some item =>
      rw [popped, elim_some] at isIdle
      exact absurd isIdle (busy item)

/-- An item in hand is consumed. -/
theorem consume (now : Int) {item : SubscriptionEvent} {next : Drain}
    (hasItem : inHand observer.drain = [item]) (emptyHanded : inHand next = [])
    (busy : next ≠ .idle) (sameHold : holds next = holds observer.drain)
    (looked : ¬looksAgain observer.drain) :
    (observer.consume surroundings now item next).Sound := by
  refine { sound with
    order := ?order, flag := ?flag, awake := ?awake, kept := ?kept, flushed := ?flushed }
  case order =>
    change observer.consumed ++ [item] ++ inHand next ++ observer.subscription.queue =
      observer.taken
    rw [emptyHanded, append_nil, ← hasItem]
    exact sound.order
  case flag =>
    change observer.posting + observer.posted + holds next = observer.scheduled.toNat
    rw [sameHold]
    exact sound.flag
  case awake =>
    intro published nonempty
    rcases sound.awake published nonempty with isScheduled | notifying | looks
    · exact .inl isScheduled
    · exact .inr (.inl notifying)
    · exact absurd looks looked
  case kept => exact SessionTrailBridge.kept_consume sound.kept now item
  case flushed => exact fun isIdle => absurd isIdle busy

theorem install : { observer with
      subscription := { observer.subscription with notify := true } :
        CursorTrailObserver _ _ _ }.Sound :=
  { sound with installed := fun _ => rfl }

theorem schedule : observer.schedule.Sound := by
  have flag := sound.flag
  unfold CursorTrailObserver.schedule
  split
  · exact sound
  split
  · rename_i isScheduled
    exact { sound with awake := fun _ _ => .inl isScheduled }
  rename_i free
  rw [not_eq_true] at free
  rw [free] at flag
  refine { sound with flag := ?_, awake := fun _ _ => .inl rfl }
  change observer.posting + 1 + observer.posted + holds observer.drain = 1
  change observer.posting + observer.posted + holds observer.drain = 0 at flag
  omega

theorem post : observer.post.Sound := by
  have flag := sound.flag
  unfold CursorTrailObserver.post
  split
  · exact sound
  · refine { sound with flag := ?_ }
    dsimp only
    omega

theorem start (isIdle : observer.drain = .idle) : observer.start.Sound := by
  have flag := sound.flag
  have order := sound.order
  rw [isIdle] at flag order
  unfold CursorTrailObserver.start
  split
  · exact sound
  rename_i waiting
  have isScheduled : observer.scheduled = true := by
    cases scheduled : observer.scheduled with
    | true => rfl
    | false =>
      rw [scheduled] at flag
      change observer.posting + observer.posted + 0 = 0 at flag
      omega
  refine { sound with
    order := order
    flag := ?_
    awake := fun _ _ => .inl isScheduled
    flushed := nofun }
  change observer.posting + (observer.posted - 1) + 1 = observer.scheduled.toNat
  rw [← flag]
  change _ = observer.posting + observer.posted + 0
  omega

/-- A drain that holds the flag keeps it up. -/
theorem scheduled_of_holds (isHeld : holds observer.drain = 1) : observer.scheduled = true := by
  have flag := sound.flag
  rw [isHeld] at flag
  cases scheduled : observer.scheduled with
  | true => rfl
  | false =>
    rw [scheduled] at flag
    cases flag

theorem retake {raced : SubscriptionEvent} (isRetaking : observer.drain = .retaking raced) :
    (observer.retake raced).Sound := by
  have flag := sound.flag
  have order := sound.order
  rw [isRetaking] at flag order
  refine { sound with
    order := order
    flag := ?_
    awake := fun _ _ => .inl rfl
    flushed := nofun }
  change observer.posting + observer.posted +
    holds (.consumingRaced raced (!observer.scheduled)) = 1
  cases scheduled : observer.scheduled with
  | true =>
    rw [scheduled] at flag
    exact flag
  | false =>
    rw [scheduled] at flag
    change observer.posting + observer.posted + 0 = 0 at flag
    change observer.posting + observer.posted + 1 = 1
    omega

theorem step (action : Action) : (observer.step surroundings action).Sound := by
  unfold CursorTrailObserver.step
  split
  · exact sound.install
  · exact sound.enqueue _
  · exact sound.schedule
  · exact sound.post
  · rename_i isIdle
    exact sound.start isIdle
  · -- `pop`: the inner loop of the drain
    rename_i isPopping
    have isHeld : holds observer.drain = 1 := by rw [isPopping]; rfl
    refine sound.pop ?_ (fun _ => rfl) rfl (fun _ => nofun) nofun (fun _ => ?_) ?_ fun _ => ?_
    · rw [isPopping]
      rfl
    · rw [isPopping]
      rfl
    · rw [isPopping]
      rfl
    · exact .inl (sound.scheduled_of_holds isHeld)
  · rename_i now item isConsuming
    refine sound.consume now ?_ rfl nofun ?_ ?_
    · rw [isConsuming]
      rfl
    · rw [isConsuming]
      rfl
    · rw [isConsuming]
      exact id
  · -- `release`: the queue is looked at once more
    rename_i isReleasing
    have flag := sound.flag
    have order := sound.order
    have isHeld : holds observer.drain = 1 := by rw [isReleasing]; rfl
    rw [isHeld, sound.scheduled_of_holds isHeld] at flag
    rw [isReleasing] at order
    refine { sound with
      order := order
      flag := ?_
      awake := fun _ _ => .inr (.inr trivial)
      flushed := nofun }
    change observer.posting + observer.posted + 0 = 0
    change observer.posting + observer.posted + 1 = 1 at flag
    omega
  · rename_i isRechecking
    refine sound.pop ?_ (fun _ => rfl) rfl (fun _ => nofun) nofun (fun _ => ?_) ?_ fun _ => ?_
    · rw [isRechecking]
      rfl
    · rw [isRechecking]
      rfl
    · rw [isRechecking]
      rfl
    · exact .inr trivial
  · rename_i raced isRetaking
    exact sound.retake isRetaking
  · rename_i now raced retaken isRaced
    refine sound.consume now (by rw [isRaced]; rfl) ?_ ?_ ?_ (by rw [isRaced]; exact id)
    · cases retaken <;> rfl
    · cases retaken <;> nofun
    · rw [isRaced]
      cases retaken <;> rfl
  · -- `flush`: the end of a drain
    rename_i isFlushing
    have flag := sound.flag
    have order := sound.order
    have awake := sound.awake
    rw [isFlushing] at flag order awake
    exact
      { sound with
        order := order
        flag := flag
        awake := awake
        kept := SessionTrailBridge.kept_flushPending sound.kept
        flushed := fun _ => SessionTrailBridge.flushPending_pendingShapes }
  · exact sound

theorem run (actions : List Action) : (observer.run surroundings actions).Sound := by
  induction actions generalizing observer with
  | nil => exact sound
  | cons action rest later => exact later (sound.step action)

omit sound

theorem create (animator : Animator) (overlay : Overlay) :
    (create animator overlay : CursorTrailObserver Shape Animator Overlay).Sound := by
  constructor
  case scope => rfl
  case policy => rfl
  case capacity =>
    change 0 < (List.replicate 1024 (SubscriptionEvent.event {})).length
    rw [length_replicate]
    exact Nat.succ_pos _
  case motions =>
    intro item member
    cases member
  case order => rfl
  case flag => rfl
  case installed => exact nofun
  case awake => exact nofun
  case kept => rfl
  case flushed => exact fun _ => rfl

end Sound

/-- No publication is in progress and no drain runs or waits. -/
structure Quiet (observer : CursorTrailObserver Shape Animator Overlay) : Prop where
  notifying : observer.notifying = 0
  posting : observer.posting = 0
  posted : observer.posted = 0
  drain : observer.drain = .idle

/-- Nothing is left to do. -/
structure Drained (observer : CursorTrailObserver Shape Animator Overlay) : Prop where
  queue : observer.subscription.queue = []
  scheduled : observer.scheduled = false
  consumed : observer.consumed = observer.taken
  flushed : observer.bridge.given = observer.bridge.made

/-- However publishers and reactor interleave, items are consumed in the order of the queue and each
once; and when nobody is at work after a publication, nothing is left to do. -/
theorem drain_loses_nothing (surroundings : Surroundings Shape Animator Overlay)
    (animator : Animator) (overlay : Overlay) (actions : List Action) :
    let observer := (create animator overlay).run surroundings actions
    observer.consumed ++ inHand observer.drain ++ observer.subscription.queue = observer.taken ∧
      (observer.Quiet → observer.published = true → observer.Drained) := by
  intro observer
  have sound : observer.Sound := (Sound.create animator overlay).run actions
  refine ⟨sound.order, fun quiet published => ?_⟩
  have released : observer.scheduled = false := by
    have flag := sound.flag
    rw [quiet.posting, quiet.posted, quiet.drain] at flag
    cases scheduled : observer.scheduled with
    | false => rfl
    | true =>
      rw [scheduled] at flag
      cases flag
  have empty : observer.subscription.queue = [] := by
    by_contra nonempty
    rcases sound.awake published nonempty with isScheduled | notifying | looks
    · rw [released] at isScheduled
      cases isScheduled
    · have none_ := quiet.notifying
      omega
    · rw [quiet.drain] at looks
      exact looks
  constructor
  case queue => exact empty
  case scheduled => exact released
  case consumed =>
    have order := sound.order
    rw [quiet.drain, empty] at order
    simpa [inHand] using order
  case flushed =>
    have kept := sound.kept
    unfold SessionTrailBridge.Kept at kept
    rw [sound.flushed quiet.drain, append_nil] at kept
    exact kept

/-- An animator that makes one shape of every item. -/
def oneShape : Surroundings Nat Nat (List Nat) where
  animate := fun _ animator _ => (animator + 1, [.upsert animator])
  addMany := fun overlay shapes => (overlay ++ shapes, true)

/-- A second motion comes between the last pop and the release of the flag. -/
def racedActions : List Action :=
  [.install, .enqueue { kind := .mouseMove, sequence := 1 }, .schedule, .post, .start, .pop,
    .consume 0, .pop, .enqueue { kind := .mouseMove, sequence := 2 }, .schedule, .release, .recheck,
    .retake, .consume 5, .pop, .release, .recheck, .flush]

theorem drain_loses_nothing_raced :
    ((create 0 []).run oneShape racedActions).Drained ∧
      ((create 0 []).run oneShape racedActions).consumed =
        [.event { kind := .mouseMove, sequence := 1 },
          .event { kind := .mouseMove, sequence := 2 }] :=
  ⟨(drain_loses_nothing oneShape 0 [] racedActions).2
    ⟨by decide +kernel, by decide +kernel, by decide +kernel, by decide +kernel⟩
    (by decide +kernel), by decide +kernel⟩

end CursorTrailObserver

end Grab.Overlay.Trail
