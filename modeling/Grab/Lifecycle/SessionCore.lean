import Grab.Query.SnapshotNav
import Grab.Query.Resolve
import Grab.Events.Bus
import Grab.Tree.Store
import Grab.Lib.Transitions

/-!
# The session core

A session binds runtimes: each binding keeps the store its tree source is drained
into and translates the store's events for the bus.  Locators are resolved over
the trees of all bindings, and a match is described from the binding its ref
addresses.

A runtime is a number, since the session only compares the addresses of runtimes.
What its tree source answers is an input.
-/

namespace Grab

namespace Relation

def activeChild : RelationId := ⟨5⟩

end Relation

namespace PropertyId

def title : PropertyId := ⟨3⟩

def bounds : PropertyId := ⟨6⟩

def url : PropertyId := ⟨7⟩

end PropertyId

end Grab

namespace Grab.Kernel.Lifecycle

open Grab.Lib Grab.Spi Grab.Kernel.Query Grab.Events

/-! ## Graph events -/

structure GraphChange where
  node : UInt64
  related : UInt64
  relation : UInt32
  previousActive : UInt64
  deriving DecidableEq

structure EventSubject where
  runtime : RuntimeId
  tree : UInt32
  epoch : TreeEpoch
  node : UInt64
  revision : UInt64
  deriving DecidableEq

/-- A bus event about the graph; its category is always that of windows. -/
structure GraphEvent where
  kind : EventKind
  payload : GraphChange
  subject : EventSubject
  beforeRevision : UInt64
  afterRevision : UInt64
  deriving DecidableEq

def eventKind : TreeEventKind → EventKind
  | .nodeAdded => .nodeAdded
  | .nodeRemoved => .nodeRemoved
  | .nodeChanged => .nodeChanged
  | .relationAdded => .relationAdded
  | .relationRemoved => .relationRemoved

/-! ## Bindings -/

structure RuntimeBinding where
  /-- The runtime whose source is bound, once an attach has succeeded. -/
  runtime : Option Nat := none
  assignedRuntime : RuntimeId := ⟨0⟩
  store : TreeStore := {}
  sinkBatchRevision : UInt64 := 0
  sinkPreviousRevision : UInt64 := 0
  pendingActive : List (UInt64 × UInt64) := []
  currentActive : List (UInt64 × UInt64) := []

namespace RuntimeBinding

def makeEvent (binding : RuntimeBinding) (event : TreeEvent) (kind : EventKind)
    (previousActive : UInt64) : GraphEvent where
  kind := kind
  payload := ⟨event.node.value, event.related.value, event.relation.value, previousActive⟩
  subject := ⟨binding.assignedRuntime, event.tree, event.epoch, event.node.value, event.revision⟩
  beforeRevision := binding.sinkPreviousRevision
  afterRevision := event.revision

/-- A batch is recognised by the revision of the store. -/
def noteBatch (binding : RuntimeBinding) : RuntimeBinding :=
  let batchRevision := revisionOf binding.store.current
  if batchRevision ≠ binding.sinkBatchRevision then
    { binding with
      sinkPreviousRevision := binding.sinkBatchRevision
      sinkBatchRevision := batchRevision
      pendingActive := [] }
  else binding

/-- The child a parent had: the one this batch took away, or else the present one. -/
def previousActive (binding : RuntimeBinding) (parent : UInt64) : UInt64 :=
  match Assoc.find binding.pendingActive parent with
  | some pending => pending
  | none => (Assoc.find binding.currentActive parent).getD 0

/-- The sink of a binding's store. -/
def publishTreeEvent (binding : RuntimeBinding) (event : TreeEvent) :
    RuntimeBinding × List GraphEvent :=
  let noted := binding.noteBatch
  let plain := noted.makeEvent event (eventKind event.kind) 0
  let parent := event.node.value
  match event.kind with
  | .nodeRemoved =>
    ({ noted with currentActive := Assoc.eraseAll noted.currentActive parent }, [plain])
  | .relationRemoved =>
    if event.relation ≠ Relation.activeChild then (noted, [plain])
    else
      ({ noted with
          pendingActive := Assoc.put parent event.related.value noted.pendingActive
          currentActive :=
            if Assoc.find noted.currentActive parent = some event.related.value then
              Assoc.erase noted.currentActive parent
            else noted.currentActive },
        [plain])
  | .relationAdded =>
    if event.relation ≠ Relation.activeChild then (noted, [plain])
    else
      ({ noted with
          pendingActive := Assoc.erase noted.pendingActive parent
          currentActive := Assoc.put parent event.related.value noted.currentActive },
        [plain, noted.makeEvent event .activeChildChanged (noted.previousActive parent)])
  | .nodeAdded => (noted, [plain])
  | .nodeChanged => (noted, [plain])

def publishAll (binding : RuntimeBinding) : List TreeEvent → RuntimeBinding × List GraphEvent
  | [] => (binding, [])
  | event :: rest =>
    let after := binding.publishTreeEvent event
    let last := after.1.publishAll rest
    (last.1, after.2 ++ last.2)

/-- One turn of `drain_publications` with the sink run on its events. -/
def publishTurn (binding : RuntimeBinding) : RuntimeBinding × Option (List GraphEvent) :=
  let turn := binding.store.drainStep
  let taken := { binding with store := turn.1 }
  match turn.2 with
  | none => (taken, none)
  | some events => ((taken.publishAll events).1, some (taken.publishAll events).2)

/-- Turns until the queue is empty, at most as many as given. -/
def drainPublications (binding : RuntimeBinding) : Nat → RuntimeBinding × List GraphEvent
  | 0 => (binding, [])
  | turns + 1 =>
    let turn := binding.publishTurn
    match turn.2 with
    | none => (turn.1, [])
    | some published =>
      let last := turn.1.drainPublications turns
      (last.1, published ++ last.2)

/-- `TreeStore::apply` on the store of a binding.  The queue has one update more
than before, so one turn more than its length empties it. -/
def apply (binding : RuntimeBinding) (update : UiUpdate) :
    RuntimeBinding × List GraphEvent × Except Rejection AppliedDelta :=
  let turn := binding.store.stage update
  let staged := { binding with store := turn.1 }
  match turn.2 with
  | .error refusal => (staged, [], .error refusal)
  | .ok applied =>
    if binding.store.publishing then (staged, [], .ok applied)
    else
      let drained := staged.drainPublications (turn.1.pendingUpdates.length + 1)
      (drained.1, drained.2, .ok applied)

end RuntimeBinding

/-! ## Draining sources -/

/-- What `next_update` answers until it has no more: the updates, then the error it
fails with, if it does. -/
structure Drained where
  updates : List UiUpdate := []
  failure : Option Error := none

def Rejection.toError (refusal : Rejection) : Error := ⟨refusal.code, refusal.message⟩

/-- Apply updates until one is refused; the answer is the number applied. -/
def drainSource (binding : RuntimeBinding) (failure : Option Error) (applied : Nat) :
    List UiUpdate → RuntimeBinding × List GraphEvent × Except Error Nat
  | [] =>
    match failure with
    | some error => (binding, [], .error error)
    | none => (binding, [], .ok applied)
  | update :: rest =>
    match binding.apply update with
    | (after, published, .error refusal) => (after, published, .error (Rejection.toError refusal))
    | (after, published, .ok _) =>
      let last := drainSource after failure (applied + 1) rest
      (last.1, published ++ last.2.1, last.2.2)

/-! ## The session -/

/-- The constructor makes the first binding, so there always is one. -/
structure SessionCore where
  front : RuntimeBinding := {}
  others : List RuntimeBinding := []
  nextRuntimeId : UInt32 := 1
  /-- What the bus was given, in order. -/
  published : List GraphEvent := []

namespace SessionCore

def bindings (session : SessionCore) : List RuntimeBinding := session.front :: session.others

/-- What a runtime's tree source answers to an attach. -/
structure TreeSource where
  drained : Drained
  snapshot : Except Error UiSnapshot

/-- Fill the store of a new binding: drain the source, and take a snapshot when it had
no updates. -/
def prime (binding : RuntimeBinding) (source : TreeSource) :
    RuntimeBinding × List GraphEvent × Except Error Unit :=
  match drainSource binding source.drained.failure 0 source.drained.updates with
  | (after, published, .error error) => (after, published, .error error)
  | (after, published, .ok (_ + 1)) => (after, published, .ok ())
  | (after, published, .ok 0) =>
    match source.snapshot with
    | .error error => (after, published, .error error)
    | .ok snapshot =>
      match after.apply ⟨0, .snapshot snapshot⟩ with
      | (last, more, .error refusal) =>
        (last, published ++ more, .error (Rejection.toError refusal))
      | (last, more, .ok _) => (last, published ++ more, .ok ())

/-- Bind a runtime.  A new binding whose source fails is dropped again; the first
binding is kept as far as it got.  An id is allocated whether or not it is used. -/
def attach (session : SessionCore) (runtime : Nat) (source : Option TreeSource)
    (assigned : Option RuntimeId) : SessionCore × Except Error Unit :=
  if session.bindings.any fun existing => existing.runtime == some runtime then
    (session, .ok ())
  else
    match source with
    | none => (session, .error ⟨.capabilityUnavailable, "runtime has no tree source"⟩)
    | some source =>
      let fresh := session.front.runtime.isSome
      let binding : RuntimeBinding := if fresh then {} else session.front
      let primed :=
        prime { binding with assignedRuntime := assigned.getD ⟨session.nextRuntimeId⟩ } source
      let allocated : SessionCore :=
        { session with
          nextRuntimeId := session.nextRuntimeId + 1
          published := session.published ++ primed.2.1 }
      match primed.2.2 with
      | .error error =>
        (if fresh then allocated else { allocated with front := primed.1 }, .error error)
      | .ok () =>
        let bound := { primed.1 with runtime := some runtime }
        (if fresh then { allocated with others := session.others ++ [bound] }
          else { allocated with front := bound }, .ok ())

/-- Go through the bindings in order until one fails. -/
def eachBinding (step : RuntimeBinding → RuntimeBinding × List GraphEvent × Except Error Unit) :
    List RuntimeBinding → List RuntimeBinding × List GraphEvent × Except Error Unit
  | [] => ([], [], .ok ())
  | binding :: rest =>
    match step binding with
    | (after, published, .error error) => (after :: rest, published, .error error)
    | (after, published, .ok ()) =>
      let last := eachBinding step rest
      (after :: last.1, published ++ last.2.1, last.2.2)

/-- Put back the bindings a loop went through. -/
def withBindings (session : SessionCore) (bindings : List RuntimeBinding)
    (published : List GraphEvent) : SessionCore :=
  match bindings with
  | [] => { session with published := session.published ++ published }
  | front :: others =>
    { session with front := front, others := others, published := session.published ++ published }

def pumpBinding (drains : Nat → Drained) (binding : RuntimeBinding) :
    RuntimeBinding × List GraphEvent × Except Error Unit :=
  match binding.runtime with
  | none => (binding, [], .ok ())
  | some runtime =>
    let drained := drainSource binding (drains runtime).failure 0 (drains runtime).updates
    (drained.1, drained.2.1, drained.2.2.map fun _ => ())

def pumpOnce (session : SessionCore) (drains : Nat → Drained) : SessionCore × Except Error Unit :=
  let done := eachBinding (pumpBinding drains) session.bindings
  (session.withBindings done.1 done.2.1, done.2.2)

/-- A source that has no snapshot to give is skipped. -/
def resyncBinding (snapshots : Nat → Except Error UiSnapshot) (binding : RuntimeBinding) :
    RuntimeBinding × List GraphEvent × Except Error Unit :=
  match binding.runtime with
  | none => (binding, [], .ok ())
  | some runtime =>
    match snapshots runtime with
    | .error _ => (binding, [], .ok ())
    | .ok snapshot =>
      match binding.apply ⟨0, .snapshot snapshot⟩ with
      | (after, published, .error refusal) =>
        (after, published, .error (Rejection.toError refusal))
      | (after, published, .ok _) => (after, published, .ok ())

def resync (session : SessionCore) (checked : Except Error Unit)
    (snapshots : Nat → Except Error UiSnapshot) : SessionCore × Except Error Unit :=
  match checked with
  | .error error => (session, .error error)
  | .ok () =>
    let done := eachBinding (resyncBinding snapshots) session.bindings
    let after := session.withBindings done.1 done.2.1
    match done.2.2 with
    | .error error => (after, .error error)
    | .ok () =>
      if session.bindings.any fun binding =>
          binding.runtime.any fun runtime => (snapshots runtime).isOk then
        (after, .ok ())
      else
        (after, .error ⟨.capabilityUnavailable, "no bound source could resync"⟩)

/-! ## Runs -/

inductive Action where
  | attach (runtime : Nat) (source : Option TreeSource) (assigned : Option RuntimeId)
  | pump (drains : Nat → Drained)
  | resync (checked : Except Error Unit) (snapshots : Nat → Except Error UiSnapshot)

def act (session : SessionCore) : Action → SessionCore
  | .attach runtime source assigned => (session.attach runtime source assigned).1
  | .pump drains => (session.pumpOnce drains).1
  | .resync checked snapshots => (session.resync checked snapshots).1

/-- The session after some actions. -/
def after (actions : List Action) : SessionCore := actions.foldl act {}

end SessionCore

end Grab.Kernel.Lifecycle
