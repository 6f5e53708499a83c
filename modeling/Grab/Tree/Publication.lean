import Grab.Tree.Store

/-!
# Publication order

Any number of callers run `apply` on one store.  A call takes the mutex once to
stage its update; the call that finds nobody publishing then takes it again and
again to publish the queue, and runs the sink between two turns without holding
it, so that other callers, and the sink itself, may call `apply` meanwhile.  The
steps below are the turns of the mutex and the runs of the sink, in any
interleaving.

The record of accepted updates is not part of the program: it is what the sink's
log and the published generations are compared with.
-/

namespace Grab.Kernel

open Grab.Lib Grab.Spi List

abbrev CallId := Nat

/-- Where a call of `apply` stands. -/
inductive CallPhase where
  /-- Before the mutex is taken. -/
  | called (update : UiUpdate)
  /-- Publishing: the events still to be handed to the sink, and whether the sink
  is running. -/
  | draining (inHand : List TreeEvent) (inSink : Bool)
  | returning
  deriving DecidableEq

structure ApplyCall where
  phase : CallPhase
  /-- The call whose sink made this one, when a sink did. -/
  parent : Option CallId
  deriving DecidableEq

/-- An update that was accepted, with the generation it produced. -/
structure Accepted where
  applied : AppliedDelta
  generation : Generation

def PreparedUpdate.accepted (prepared : PreparedUpdate) : Accepted :=
  ⟨prepared.applied, prepared.generation⟩

structure System where
  store : TreeStore := {}
  calls : CallId → Option ApplyCall := fun _ => none
  /-- The events the sink has received, in order. -/
  received : List TreeEvent := []
  /-- The updates accepted so far, in order. -/
  accepted : List Accepted := []

namespace System

def setCall (system : System) (id : CallId) (call : Option ApplyCall) : System :=
  { system with calls := Function.update system.calls id call }

/-- What a turn of `apply` adds to the record. -/
def admitted (turn : TreeStore × Except Rejection AppliedDelta) : List Accepted :=
  match turn.2, turn.1.stagedGeneration with
  | .ok applied, some generation => [⟨applied, generation⟩]
  | _, _ => []

/-- The phase after the locked part of `apply`: publish if nobody else does. -/
def phaseAfter (store : TreeStore) (outcome : Except Rejection AppliedDelta) : CallPhase :=
  match outcome with
  | .error _ => .returning
  | .ok _ => if store.publishing then .returning else .draining [] false

def lock (system : System) (id : CallId) (update : UiUpdate) (parent : Option CallId) :
    System :=
  let turn := system.store.stage update
  { setCall system id (some ⟨phaseAfter system.store turn.2, parent⟩) with
    store := turn.1
    accepted := system.accepted ++ admitted turn }

def drain (system : System) (id : CallId) (parent : Option CallId) : System :=
  let turn := system.store.drainStep
  { setCall system id (some ⟨match turn.2 with
      | none => .returning
      | some events => .draining events false, parent⟩) with
    store := turn.1 }

def deliver (system : System) (id : CallId) (event : TreeEvent) (rest : List TreeEvent)
    (parent : Option CallId) : System :=
  { setCall system id (some ⟨.draining rest true, parent⟩) with
    received := system.received ++ [event] }

inductive Step : System → System → Prop
  /-- A caller, or the running sink of another call, calls `apply`. -/
  | start {system : System} {id : CallId} {update : UiUpdate} {parent : Option CallId}
      (fresh : system.calls id = none)
      (inSink : ∀ caller, parent = some caller → ∃ rest outer,
        system.calls caller = some ⟨.draining rest true, outer⟩) :
      Step system (setCall system id (some ⟨.called update, parent⟩))
  | lock {system : System} {id : CallId} {update : UiUpdate} {parent : Option CallId}
      (waits : system.calls id = some ⟨.called update, parent⟩) :
      Step system (lock system id update parent)
  | drain {system : System} {id : CallId} {parent : Option CallId}
      (between : system.calls id = some ⟨.draining [] false, parent⟩) :
      Step system (drain system id parent)
  | deliver {system : System} {id : CallId} {event : TreeEvent} {rest : List TreeEvent}
      {parent : Option CallId}
      (next : system.calls id = some ⟨.draining (event :: rest) false, parent⟩) :
      Step system (deliver system id event rest parent)
  /-- The sink returns, or throws, once the calls it made have returned. -/
  | sinkReturns {system : System} {id : CallId} {rest : List TreeEvent}
      {parent : Option CallId}
      (inSink : system.calls id = some ⟨.draining rest true, parent⟩)
      (childless : ∀ other call, system.calls other = some call → call.parent ≠ some id) :
      Step system (setCall system id (some ⟨.draining rest false, parent⟩))
  | return {system : System} {id : CallId} {parent : Option CallId}
      (done : system.calls id = some ⟨.returning, parent⟩) :
      Step system (setCall system id none)

inductive Reachable : System → Prop
  | start : Reachable {}
  | step {system next : System} : Reachable system → Step system next → Reachable next

/-- Is a call publishing? -/
def Drains (system : System) (id : CallId) : Prop :=
  ∃ rest inSink parent, system.calls id = some ⟨.draining rest inSink, parent⟩

def Quiet (system : System) : Prop := ∀ id, system.calls id = none

/-- The batches of updates, one after the other. -/
def batches (updates : List Accepted) : List TreeEvent :=
  updates.flatMap fun update => update.applied.events

/-! ## The invariant -/

/-- The queue and the two published generations are the record. -/
def Published (store : TreeStore) (accepted : List Accepted) : Prop :=
  ∃ published, accepted = published ++ store.pendingUpdates.map PreparedUpdate.accepted ∧
    store.current = published.getLast?.map Accepted.generation ∧
    store.previous = published.dropLast.getLast?.map Accepted.generation

/-- While `publishing` is set exactly one call publishes, and what the sink has, the
call has in hand and the queue holds is the record; otherwise the sink has it all. -/
structure Consistent (system : System) : Prop where
  published : Published system.store system.accepted
  idle : system.store.publishing = false →
    (∀ id, ¬Drains system id) ∧ system.store.pendingUpdates = [] ∧
      system.received = batches system.accepted
  busy : system.store.publishing = true →
    ∃ id rest inSink parent, system.calls id = some ⟨.draining rest inSink, parent⟩ ∧
      (∀ other, Drains system other → other = id) ∧
      system.received ++ (rest ++
        batches (system.store.pendingUpdates.map PreparedUpdate.accepted)) = batches system.accepted

section

variable {system : System} {id : CallId} {parent : Option CallId} (call : Option ApplyCall)

@[simp]
theorem setCall_store : (setCall system id call).store = system.store := rfl

@[simp]
theorem setCall_received : (setCall system id call).received = system.received := rfl

@[simp]
theorem setCall_accepted : (setCall system id call).accepted = system.accepted := rfl

theorem setCall_same : (setCall system id call).calls id = call := by
  simp [setCall]

theorem setCall_other {other : CallId} (apart : other ≠ id) (call : Option ApplyCall) :
    (setCall system id call).calls other = system.calls other := by
  simp [setCall, apart]

variable {rest : List TreeEvent} {call : Option ApplyCall}

/-- A call that publishes is the one the invariant names. -/
theorem Consistent.drainer (consistent : Consistent system) {inSink : Bool}
    (drains : system.calls id = some ⟨.draining rest inSink, parent⟩) :
    system.store.publishing = true ∧
      (∀ other, Drains system other → other = id) ∧
      system.received ++ (rest ++
        batches (system.store.pendingUpdates.map PreparedUpdate.accepted)) =
          batches system.accepted := by
  cases publishing : system.store.publishing with
  | false => exact absurd ⟨rest, inSink, parent, drains⟩ ((consistent.idle publishing).1 id)
  | true =>
    rcases consistent.busy publishing with ⟨owner, rest', inSink', parent', call, only, flow⟩
    obtain rfl := only id ⟨rest, inSink, parent, drains⟩
    rw [drains] at call
    cases call
    exact ⟨rfl, only, flow⟩

/-- A call that neither was nor becomes a drainer may change its phase. -/
theorem Consistent.setCall (consistent : Consistent system) (notDraining : ¬Drains system id)
    (notBecoming : ∀ rest inSink outer, call ≠ some ⟨.draining rest inSink, outer⟩) :
    Consistent (System.setCall system id call) := by
  have same : ∀ other, Drains (System.setCall system id call) other ↔ Drains system other := by
    intro other
    by_cases here : other = id
    · subst here
      constructor
      · rintro ⟨rest, inSink, outer, drains⟩
        rw [setCall_same] at drains
        exact absurd drains (notBecoming rest inSink outer)
      · exact fun drains => absurd drains notDraining
    · rw [Drains, setCall_other here]
      exact Iff.rfl
  constructor
  case published => exact consistent.published
  case idle =>
    intro publishing
    rcases consistent.idle publishing with ⟨nobody, empty, received⟩
    exact ⟨fun other drains => nobody other ((same other).mp drains), empty, received⟩
  case busy =>
    intro publishing
    rcases consistent.busy publishing with ⟨owner, rest, inSink, outer, drains, only, flow⟩
    refine ⟨owner, rest, inSink, outer, ?_, ?_, flow⟩
    · rw [setCall_other]
      · exact drains
      · rintro rfl
        exact notDraining ⟨rest, inSink, outer, drains⟩
    · exact fun other drains => only other ((same other).mp drains)

/-- After its step the call `id` is the only drainer. -/
theorem only_drainer {calls : CallId → Option ApplyCall} {next : System}
    (nextCalls : next.calls = Function.update calls id call) (only : ∀ other, (∃ rest inSink parent,
      calls other = some ⟨.draining rest inSink, parent⟩) → other = id) :
    ∀ other, Drains next other → other = id := by
  rintro other ⟨rest, inSink, parent, drains⟩
  by_contra apart
  rw [nextCalls, Function.update_of_ne apart] at drains
  exact apart (only other ⟨rest, inSink, parent, drains⟩)

/-! ## The steps -/

theorem admitted_enqueue (store : TreeStore) (prepared : PreparedUpdate) (full : Bool) :
    admitted (store.enqueue prepared full, .ok prepared.applied) = [prepared.accepted] := by
  simp [admitted, PreparedUpdate.accepted]

theorem batches_append (first second : List Accepted) :
    batches (first ++ second) = batches first ++ batches second :=
  flatMap_append

section

variable (consistent : Consistent system)

include consistent

theorem Consistent.lock {update : UiUpdate}
    (waits : system.calls id = some ⟨.called update, parent⟩) :
    Consistent (System.lock system id update parent) := by
  have notDraining : ¬Drains system id := by
    rintro ⟨rest, inSink, outer, drains⟩
    rw [waits] at drains
    cases drains
  rcases TreeStore.stage_cases system.store update with
    ⟨refusal, sequence, waiting, refused⟩ | ⟨prepared, full, _, queued⟩
  · have returns : Consistent (System.setCall system id (some ⟨.returning, parent⟩)) :=
      consistent.setCall notDraining (by simp)
    unfold System.lock
    rw [refused]
    dsimp only [admitted]
    rw [append_nil]
    exact ⟨returns.published, returns.idle, returns.busy⟩
  · rcases consistent.published with ⟨published, record, current, previous⟩
    unfold System.lock
    rw [queued]
    simp only [admitted_enqueue]
    have pending : (system.store.enqueue prepared full).pendingUpdates =
        system.store.pendingUpdates ++ [prepared] := rfl
    constructor
    case published =>
      refine ⟨published, ?_, current, previous⟩
      rw [record, pending, map_append, append_assoc]
      rfl
    case idle => exact nofun
    case busy =>
      intro _
      cases publishing : system.store.publishing with
      | false =>
        rcases consistent.idle publishing with ⟨nobody, empty, received⟩
        refine ⟨id, [], false, parent, ?_, ?_, ?_⟩
        · simp only [phaseAfter, publishing]
          exact setCall_same _
        · apply only_drainer rfl
          exact fun other drains => absurd drains (nobody other)
        · rw [pending, empty, nil_append, batches_append, ← received]
          rfl
      | true =>
        rcases consistent.busy publishing with
          ⟨owner, rest, inSink, outer, drains, only, flow⟩
        have apart : owner ≠ id := by
          rintro rfl
          exact notDraining ⟨rest, inSink, outer, drains⟩
        refine ⟨owner, rest, inSink, outer, ?_, ?_, ?_⟩
        · exact (setCall_other apart _).trans drains
        · rintro other ⟨rest', inSink', outer', drains'⟩
          by_cases here : other = id
          · subst here
            simp only [phaseAfter, publishing] at drains'
            have impossible := (setCall_same _).symm.trans drains'
            cases impossible
          · exact only other ⟨rest', inSink', outer', (setCall_other here _).symm.trans drains'⟩
        · rw [pending, map_append, batches_append, batches_append, ← flow]
          simp [PreparedUpdate.accepted, batches]

theorem Consistent.drain (between : system.calls id = some ⟨.draining [] false, parent⟩) :
    Consistent (System.drain system id parent) := by
  rcases consistent.drainer between with ⟨publishing, only, flow⟩
  rcases consistent.published with ⟨published, record, current, previous⟩
  rw [nil_append] at flow
  unfold System.drain TreeStore.drainStep
  cases queue : system.store.pendingUpdates with
  | nil =>
    rw [queue] at flow record
    constructor
    case published => exact ⟨published, by simpa using record, current, previous⟩
    case idle =>
      intro _
      refine ⟨?_, rfl, ?_⟩
      · rintro other ⟨rest, inSink, outer, drains⟩
        obtain rfl : other = id := only_drainer rfl only other ⟨rest, inSink, outer, drains⟩
        have impossible := (setCall_same _).symm.trans drains
        cases impossible
      · simpa [batches] using flow
    case busy => exact nofun
  | cons prepared rest =>
    rw [queue] at flow record
    constructor
    case published =>
      refine ⟨published ++ [prepared.accepted], ?_, ?_, ?_⟩
      · simpa using record
      · simp [PreparedUpdate.accepted]
      · simpa using current
    case idle =>
      intro notPublishing
      have impossible : system.store.publishing = false := notPublishing
      rw [publishing] at impossible
      cases impossible
    case busy =>
      intro _
      refine ⟨id, prepared.applied.events, false, parent, setCall_same _, only_drainer rfl only, ?_⟩
      simpa [batches, PreparedUpdate.accepted] using flow

theorem Consistent.deliver {event : TreeEvent}
    (next : system.calls id = some ⟨.draining (event :: rest) false, parent⟩) :
    Consistent (System.deliver system id event rest parent) := by
  rcases consistent.drainer next with ⟨publishing, only, flow⟩
  constructor
  case published => exact consistent.published
  case idle =>
    intro notPublishing
    have impossible : system.store.publishing = false := notPublishing
    rw [publishing] at impossible
    cases impossible
  case busy =>
    intro _
    refine ⟨id, rest, true, parent, setCall_same _, only_drainer rfl only, ?_⟩
    simpa [System.deliver] using flow

theorem Consistent.sinkReturns (inSink : system.calls id = some ⟨.draining rest true, parent⟩) :
    Consistent (System.setCall system id (some ⟨.draining rest false, parent⟩)) := by
  rcases consistent.drainer inSink with ⟨publishing, only, flow⟩
  constructor
  case published => exact consistent.published
  case idle =>
    intro notPublishing
    have impossible : system.store.publishing = false := notPublishing
    rw [publishing] at impossible
    cases impossible
  case busy =>
    intro _
    exact ⟨id, rest, false, parent, setCall_same _, only_drainer rfl only, flow⟩

theorem Consistent.step {next : System} (step : Step system next) : Consistent next := by
  cases step with
  | start fresh _ | «return» fresh =>
    apply consistent.setCall
    · rintro ⟨rest, inSink, outer, drains⟩
      rw [fresh] at drains
      cases drains
    · simp
  | lock waits => exact consistent.lock waits
  | drain between => exact consistent.drain between
  | deliver next => exact consistent.deliver next
  | sinkReturns inSink _ => exact consistent.sinkReturns inSink

end

theorem Reachable.consistent (reachable : Reachable system) : Consistent system := by
  induction reachable with
  | start =>
    constructor
    case published => exact ⟨[], rfl, rfl, rfl⟩
    case idle =>
      intro _
      refine ⟨?_, rfl, rfl⟩
      rintro id ⟨rest, inSink, parent, drains⟩
      cases drains
    case busy => exact nofun
  | step _ step ih => exact ih.step step

end

section

variable {system : System} {accepted : List Accepted}

/-! ## What a replay of the events builds -/

/-- The batches of the first updates, replayed, build the last of these. -/
structure Replays (accepted : List Accepted) : Prop where
  valid : ∀ update ∈ accepted, update.generation.Valid
  replays : ∀ earlier, earlier <+: accepted →
    Edit.replay (editsOf (batches earlier)) ∅ =
      itemsOf (earlier.getLast?.map Accepted.generation)

theorem Replays.concat {prepared : PreparedUpdate} (known : Replays accepted)
    (sound : prepared.Sound (accepted.getLast?.map Accepted.generation)) :
    Replays (accepted ++ [prepared.accepted]) := by
  constructor
  case valid =>
    intro update member
    rcases mem_append.mp member with old | new
    · exact known.valid update old
    · rw [mem_singleton.mp new]
      exact sound.valid
  case replays =>
    intro earlier isPrefix
    rcases prefix_concat_iff.mp isPrefix with rfl | shorter
    · have exactBatch := TreeStore.exactBatch_of_sound (by
        intro generation isLast
        rcases Option.map_eq_some_iff.mp isLast with ⟨last, newest, rfl⟩
        exact known.valid last (mem_of_getLast? newest)) sound
      rw [batches_append, editsOf, filterMap_append, Edit.replay, foldl_append]
      change Edit.replay _ (Edit.replay (editsOf (batches accepted)) ∅) = _
      rw [known.replays accepted prefix_rfl, getLast?_concat, batches, flatMap_singleton]
      exact exactBatch.replay
    · exact known.replays earlier shorter

theorem Published.staged {store : TreeStore} (published : Published store accepted) :
    store.stagedGeneration = accepted.getLast?.map Accepted.generation := by
  rcases published with ⟨published, rfl, current, _⟩
  rw [TreeStore.stagedGeneration, getLast?_append, getLast?_map]
  cases store.pendingUpdates.getLast? with
  | none => exact current
  | some newest => rfl

theorem Reachable.replays (reachable : Reachable system) : Replays system.accepted := by
  induction reachable with
  | start => exact ⟨nofun, fun earlier isPrefix => by rw [prefix_nil.mp isPrefix]; rfl⟩
  | @step system _ earlier step known =>
    cases step with
    | @lock _ update =>
      unfold lock
      rcases TreeStore.stage_cases system.store update with
        ⟨_, _, _, refused⟩ | ⟨prepared, full, sound, queued⟩
      · rw [refused]
        dsimp only [admitted]
        rwa [append_nil]
      · rw [queued]
        dsimp only
        rw [admitted_enqueue]
        rw [earlier.consistent.published.staged] at sound
        exact known.concat sound
    | start | drain | deliver | sinkReturns | «return» => exact known

end

/-! ## One call publishes one node -/

def oneNode : UiUpdate where
  sourceSequence := 1
  payload := .snapshot ⟨⟨⟨1⟩, 1, ⟨1⟩, 1, true⟩, [TreeStore.plainNode 1], [], []⟩

def oneNodeAdded : TreeEvent := ⟨.nodeAdded, ⟨1⟩, 1, ⟨1⟩, 1, ⟨1⟩, ⟨0⟩, ⟨0⟩⟩

/-- The call has staged its update. -/
def oneNodeStaged : System := lock (setCall {} 0 (some ⟨.called oneNode, none⟩)) 0 oneNode none

/-- The call has published its update and runs the sink. -/
def inSinkOfOneNode : System := deliver (drain oneNodeStaged 0 none) 0 oneNodeAdded [] none

/-- The call has returned. -/
def oneNodePublished : System :=
  setCall (drain (setCall inSinkOfOneNode 0 (some ⟨.draining [] false, none⟩)) 0 none) 0 none

theorem reachable_inSinkOfOneNode : Reachable inSinkOfOneNode := by
  have called : Reachable (setCall {} 0 (some ⟨.called oneNode, none⟩)) :=
    .step .start (.start rfl (by simp))
  have staged : Reachable oneNodeStaged := .step called (.lock (setCall_same _))
  have drained : Reachable (drain oneNodeStaged 0 none) := .step staged (.drain (by decide +kernel))
  exact .step drained (.deliver (by decide +kernel))

theorem reachable_oneNodePublished : Reachable oneNodePublished := by
  have childless : ∀ other call, inSinkOfOneNode.calls other = some call →
      call.parent ≠ some 0 := by
    intro other call isCall
    by_cases first : other = 0
    · subst first
      have parentNone : inSinkOfOneNode.calls 0 = some ⟨.draining [] true, none⟩ := by
        decide +kernel
      rw [parentNone] at isCall
      cases isCall
      simp
    · simp [inSinkOfOneNode, oneNodeStaged, deliver, drain, lock, setCall, first] at isCall
  have returned : Reachable (setCall inSinkOfOneNode 0 (some ⟨.draining [] false, none⟩)) :=
    .step reachable_inSinkOfOneNode (.sinkReturns (by decide +kernel) childless)
  have drained : Reachable (drain (setCall inSinkOfOneNode 0
      (some ⟨.draining [] false, none⟩)) 0 none) := .step returned (.drain (setCall_same _))
  have done : (drain (setCall inSinkOfOneNode 0 (some ⟨.draining [] false, none⟩)) 0
      none).calls 0 = some ⟨.returning, none⟩ := by
    decide +kernel
  exact .step drained (.return done)

end System

end Grab.Kernel
