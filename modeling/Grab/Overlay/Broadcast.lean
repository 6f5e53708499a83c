import Grab.Overlay.Replay

/-!
# Publishing the scene

Callers work on the scene under its mutex in any order.  The one that finds deltas queued and
nobody publishing takes them one at a time under the mutex and hands each to the sink outside of
it, while other callers, the sink among them, go on.
-/

namespace Grab.Overlay

open List Option

/-- What a caller does under the mutex, with the reading of the clock it took before. -/
inductive Call where
  | add (now : Milliseconds) (shape : Shape)
  | update (now : Milliseconds) (id : ShapeId) (shape : Shape)
  | remove (now : Milliseconds) (id : ShapeId)
  | clear (now : Milliseconds)
  | snapshot (now : Milliseconds)

/-- The scene after a call, and the snapshot it gave. -/
def Scene.call (scene : Scene) : Call → Scene × Option SceneSnapshot
  | .add now shape => ((scene.add now shape).1, none)
  | .update now id shape => ((scene.update now id shape).1, none)
  | .remove now id => ((scene.remove now id).1, none)
  | .clear now => (scene.clear now, none)
  | .snapshot now => ((scene.snapshot now).1, some (scene.snapshot now).2)

/-- A scene with its publisher and its sink. -/
structure Broadcast where
  scene : Scene := {}
  /-- The delta that was taken and is not with the sink yet. -/
  hand : Option SceneDelta := none
  delivered : List SceneDelta := []
  /-- Deltas that left the queue when it was emptied. -/
  published : List SceneDelta := []
  snapshots : List SceneSnapshot := []

namespace Broadcast

inductive Step where
  | call (call : Call)
  | take
  | deliver

/-- Every delta queued so far. -/
def queued (broadcast : Broadcast) : List SceneDelta :=
  broadcast.published ++ broadcast.scene.pendingDeltas

def call (broadcast : Broadcast) (call : Call) : Broadcast :=
  { broadcast with
    scene := (broadcast.scene.call call).1
    snapshots := broadcast.snapshots ++ (broadcast.scene.call call).2.toList }

/-- The publisher goes back to the queue once the sink has the delta it took. -/
def take (broadcast : Broadcast) : Broadcast :=
  if broadcast.scene.publishing ∧ broadcast.hand = none then
    match broadcast.scene.takeDelta with
    | (scene, some delta) => { broadcast with scene, hand := some delta }
    | (scene, none) =>
      { broadcast with scene, published := broadcast.published ++ broadcast.scene.pendingDeltas }
  else broadcast

def deliver (broadcast : Broadcast) : Broadcast :=
  { broadcast with
    hand := none
    delivered := broadcast.delivered ++ broadcast.hand.toList }

def step (broadcast : Broadcast) : Step → Broadcast
  | .call call => broadcast.call call
  | .take => broadcast.take
  | .deliver => broadcast.deliver

def run (broadcast : Broadcast) (steps : List Step) : Broadcast := steps.foldl step broadcast

/-! ## The invariant -/

/-- A snapshot holds what the deltas up to its revision replay. -/
def Agrees (deltas : List SceneDelta) (snapshot : SceneSnapshot) : Prop :=
  snapshot.shapes.Perm
    (replay (deltas.filter (SceneDelta.upTo snapshot.epoch snapshot.throughRevision)))

structure Invariant (broadcast : Broadcast) : Prop where
  tracks : broadcast.scene.Tracks broadcast.published
  inside : broadcast.scene.publicationCursor ≤ broadcast.scene.pendingDeltas.length
  order : broadcast.delivered ++ broadcast.hand.toList = broadcast.published ++
    broadcast.scene.pendingDeltas.take broadcast.scene.publicationCursor
  idle : broadcast.scene.publishing = false →
    broadcast.hand = none ∧ broadcast.scene.pendingDeltas = []
  snapshots : ∀ snapshot ∈ broadcast.snapshots, Agrees broadcast.queued snapshot ∧
    (snapshot.epoch < broadcast.scene.epoch ∨ snapshot.epoch = broadcast.scene.epoch ∧
      snapshot.throughRevision ≤ broadcast.scene.revision)

theorem invariant_initial : Invariant {} where
  tracks :=
    { mirrors := fun record => by simp [replay]
      table := Lib.SlotTable.nil
      current := fun record member => absurd member not_mem_nil
      numbered := .nil }
  inside := Nat.le_refl _
  order := rfl
  idle _ := ⟨rfl, rfl⟩
  snapshots _ member := absurd member not_mem_nil

/-- Every call works on the scene and then looks whether it has to publish. -/
theorem scene_call {published : List SceneDelta} {scene : Scene} (tracks : scene.Tracks published)
    (call : Call) :
    ∃ locked, (scene.call call).1 = locked.beginPublication ∧ locked.Tracks published ∧
      scene.Advances locked ∧ ∀ snapshot ∈ (scene.call call).2,
        snapshot.epoch = locked.epoch ∧ snapshot.throughRevision = locked.revision ∧
          snapshot.shapes.Perm (replay (published ++ locked.pendingDeltas)) := by
  have none {after : Scene} {P : SceneSnapshot → Prop} :
      ∀ snapshot ∈ (after, (none : Option SceneSnapshot)).2, P snapshot :=
    fun _ member => absurd member (not_mem_none _)
  cases call with
  | add now shape =>
    rcases tracks.add now shape with ⟨locked, isLocked, after, advances⟩
    exact ⟨locked, isLocked, after, advances, none⟩
  | update now id shape =>
    rcases tracks.update now id shape with ⟨locked, isLocked, after, advances⟩
    exact ⟨locked, isLocked, after, advances, none⟩
  | remove now id =>
    rcases tracks.remove now id with ⟨locked, isLocked, after, advances⟩
    exact ⟨locked, isLocked, after, advances, none⟩
  | clear now =>
    rcases tracks.clear now with ⟨locked, isLocked, after, advances⟩
    exact ⟨locked, isLocked, after, advances, none⟩
  | snapshot now =>
    rcases tracks.snapshot now with ⟨locked, isLocked, after, advances, epoch, revision, same⟩
    refine ⟨locked, isLocked, after, advances, ?_⟩
    rintro _ ⟨⟩
    exact ⟨epoch, revision, same⟩

/-- Deltas past a snapshot's revision do not count for it. -/
theorem Agrees.append {deltas new : List SceneDelta} {snapshot : SceneSnapshot}
    (agrees : Agrees deltas snapshot)
    (past : ∀ delta ∈ new, delta.upTo snapshot.epoch snapshot.throughRevision = false) :
    Agrees (deltas ++ new) snapshot := by
  have none : new.filter (SceneDelta.upTo snapshot.epoch snapshot.throughRevision) = [] := by
    rw [filter_eq_nil_iff]
    intro delta member
    rw [past delta member]
    exact Bool.false_ne_true
  unfold Agrees
  rw [filter_append, none, append_nil]
  exact agrees

variable {broadcast : Broadcast} (invariant : broadcast.Invariant)

include invariant

theorem Invariant.call (call : Call) : (broadcast.call call).Invariant := by
  rcases scene_call invariant.tracks call with ⟨locked, isLocked, tracks, advances, snapshots⟩
  rcases locked.beginPublication_cases with ⟨published, quiet, busy⟩
  rcases advances.queued with ⟨new, queued, past⟩
  have reached := advances.reached
  have scene : (broadcast.call call).scene = locked.beginPublication := isLocked
  have pending : (broadcast.call call).scene.pendingDeltas =
      broadcast.scene.pendingDeltas ++ new := by
    rw [scene, published]
    exact queued
  have cursor : (broadcast.call call).scene.publicationCursor =
      broadcast.scene.publicationCursor := by
    rw [scene, published]
    exact advances.cursor
  have epoch : (broadcast.call call).scene.epoch = locked.epoch := by rw [scene, published]
  have revision : (broadcast.call call).scene.revision = locked.revision := by
    rw [scene, published]
  have all : (broadcast.call call).queued = broadcast.queued ++ new := by
    unfold Broadcast.queued
    rw [pending, ← append_assoc]
    rfl
  constructor
  case tracks =>
    rw [scene, published]
    exact ⟨tracks.mirrors, tracks.table, tracks.current, tracks.numbered⟩
  case inside =>
    rw [pending, cursor, length_append]
    exact Nat.le_trans invariant.inside (Nat.le_add_right _ _)
  case order =>
    rw [pending, cursor, take_append_of_le_length invariant.inside]
    exact invariant.order
  case idle =>
    intro isQuiet
    rw [scene] at isQuiet
    rcases quiet isQuiet with ⟨wasQuiet, atEnd⟩
    rcases invariant.idle (advances.publishing ▸ wasQuiet) with ⟨noHand, empty⟩
    have inside := invariant.inside
    rw [advances.cursor] at atEnd
    rw [empty, length_nil, Nat.le_zero] at inside
    rw [inside] at atEnd
    refine ⟨noHand, ?_⟩
    rw [scene, published]
    exact length_eq_zero_iff.mp atEnd.symm
  case snapshots =>
    intro snapshot member
    rw [all, epoch, revision]
    rcases mem_append.mp member with old | taken
    · rcases invariant.snapshots snapshot old with ⟨agrees, within⟩
      refine ⟨agrees.append ?_, by omega⟩
      intro delta isNew
      have later := past delta isNew
      rw [← Bool.not_eq_true, upTo_iff] at later ⊢
      omega
    rcases snapshots snapshot (mem_toList.mp taken) with ⟨sameEpoch, sameRevision, same⟩
    refine ⟨?_, .inr ⟨sameEpoch, Nat.le_of_eq sameRevision⟩⟩
    have everything : broadcast.queued ++ new = broadcast.published ++ locked.pendingDeltas := by
      rw [queued, ← append_assoc]
      rfl
    unfold Agrees
    rw [everything, sameEpoch, sameRevision, filter_eq_self.mpr]
    · exact same
    · intro delta isQueued
      exact tracks.numbered.upTo isQueued

theorem Invariant.take : broadcast.take.Invariant := by
  unfold Broadcast.take
  split
  · rename_i mayTake
    have order := invariant.order
    rw [mayTake.2, toList_none, append_nil] at order
    cases found : broadcast.scene.pendingDeltas[broadcast.scene.publicationCursor]? with
    | some delta =>
      rcases List.getElem?_eq_some_iff.mp found with ⟨inside, _⟩
      rw [Scene.takeDelta_some found]
      constructor
      case tracks =>
        exact ⟨invariant.tracks.mirrors, invariant.tracks.table, invariant.tracks.current,
          invariant.tracks.numbered⟩
      case inside => exact inside
      case order =>
        rw [take_add_one, found, ← append_assoc, ← order]
      case idle =>
        intro isQuiet
        rw [mayTake.1] at isQuiet
        cases isQuiet
      case snapshots => exact invariant.snapshots
    | none =>
      have atEnd := List.getElem?_eq_none_iff.mp found
      rw [Scene.takeDelta_none found]
      constructor
      case tracks => exact invariant.tracks.emptied
      case inside => exact Nat.le_refl _
      case order =>
        rw [mayTake.2, take_nil, append_nil, toList_none, append_nil, order,
          take_of_length_le atEnd]
      case idle => exact fun _ => ⟨mayTake.2, rfl⟩
      case snapshots =>
        intro snapshot member
        unfold queued
        rw [append_nil]
        exact invariant.snapshots snapshot member
  · exact invariant

theorem Invariant.deliver : broadcast.deliver.Invariant where
  tracks := invariant.tracks
  inside := invariant.inside
  order := by
    change (broadcast.delivered ++ broadcast.hand.toList) ++ [] = _
    rw [append_nil]
    exact invariant.order
  idle isQuiet := ⟨rfl, (invariant.idle isQuiet).2⟩
  snapshots := invariant.snapshots

theorem Invariant.step (step : Step) : (broadcast.step step).Invariant := by
  cases step with
  | call call => exact invariant.call call
  | take => exact invariant.take
  | deliver => exact invariant.deliver

theorem Invariant.run (steps : List Step) : (broadcast.run steps).Invariant := by
  induction steps generalizing broadcast with
  | nil => exact invariant
  | cons step rest later => exact later (invariant.step step)

/-! ## Whole runs -/

/-- When nobody publishes, the sink has everything. -/
theorem Invariant.delivered_all (quiet : broadcast.scene.publishing = false) :
    broadcast.delivered = broadcast.queued := by
  rcases invariant.idle quiet with ⟨noHand, empty⟩
  have order := invariant.order
  rw [noHand, empty, toList_none, append_nil, take_nil] at order
  rw [order, queued, empty]

theorem Invariant.delivered_first : broadcast.delivered <+: broadcast.queued := by
  apply (prefix_append broadcast.delivered broadcast.hand.toList).trans
  rw [invariant.order]
  exact (prefix_append_right_inj _).mpr ( take_prefix _ _)

omit invariant

theorem queued_take (broadcast : Broadcast) : broadcast.take.queued = broadcast.queued := by
  unfold take Scene.takeDelta
  split
  · split
    · rename_i taken
      split at taken
      · cases taken
      · cases taken
        rfl
    · rename_i taken
      split at taken
      · cases taken
        exact append_nil _
      · cases taken
  · rfl

/-- One more delta with the sink, or the end. -/
theorem take_remaining (publishing : broadcast.scene.publishing = true)
    (noHand : broadcast.hand = none) :
    broadcast.take.scene.publishing = false ∨
      broadcast.take.scene.pendingDeltas.length - broadcast.take.scene.publicationCursor <
        broadcast.scene.pendingDeltas.length - broadcast.scene.publicationCursor := by
  unfold take
  rw [if_pos ⟨publishing, noHand⟩]
  cases found : broadcast.scene.pendingDeltas[broadcast.scene.publicationCursor]? with
  | none =>
    left
    simp [Scene.takeDelta, found]
  | some delta =>
    right
    rcases List.getElem?_eq_some_iff.mp found with ⟨inside, _⟩
    simp only [Scene.takeDelta, found]
    omega

/-- A publisher that goes on hands over every delta queued so far and stops. -/
theorem Invariant.drains (invariant : broadcast.Invariant) :
    ∃ rounds, (broadcast.run (List.replicate rounds [.deliver, .take]).flatten).delivered =
        broadcast.queued ∧
      (broadcast.run (List.replicate rounds [.deliver, .take]).flatten).scene.publishing =
        false := by
  -- Induction on how many deltas the publisher has not taken.
  induction remaining : broadcast.scene.pendingDeltas.length - broadcast.scene.publicationCursor
    using Nat.strong_induction_on generalizing broadcast with
  | _ count later =>
    cases publishing : broadcast.scene.publishing with
    | false => exact ⟨0, invariant.delivered_all publishing, publishing⟩
    | true =>
      have next := invariant.deliver.take
      have same : broadcast.deliver.take.queued = broadcast.queued := queued_take _
      have further : ∃ rounds,
          (broadcast.deliver.take.run
            (List.replicate rounds [.deliver, .take]).flatten).delivered = broadcast.queued ∧
          (broadcast.deliver.take.run
            (List.replicate rounds [.deliver, .take]).flatten).scene.publishing = false := by
        have delivered : broadcast.deliver.scene.publishing = true := publishing
        rcases take_remaining delivered rfl with stops | fewer
        · exact ⟨0, (next.delivered_all stops).trans same, stops⟩
        · rw [← same]
          exact later _ (remaining ▸ fewer) next rfl
      rcases further with ⟨rounds, drained⟩
      exact ⟨rounds + 1, drained⟩

/-- In every run the sink gets the queued deltas in their order, each once, numbered without gaps,
all of them once the publisher is done; and every snapshot is what the deltas up to it replay. -/
theorem deltas_replay_scene (steps : List Step) :
    (Broadcast.run {} steps).delivered <+: (Broadcast.run {} steps).queued ∧
      ((Broadcast.run {} steps).scene.publishing = false →
        (Broadcast.run {} steps).delivered = (Broadcast.run {} steps).queued) ∧
      (∃ rounds, (Broadcast.run {} (steps ++
        (List.replicate rounds [.deliver, .take]).flatten)).delivered =
          (Broadcast.run {} steps).queued) ∧
      (∃ epoch revision, Numbered (Broadcast.run {} steps).delivered epoch revision) ∧
      (∃ epoch revision, Numbered (Broadcast.run {} steps).queued epoch revision) ∧
      ∀ snapshot ∈ (Broadcast.run {} steps).snapshots,
        Agrees (Broadcast.run {} steps).queued snapshot := by
  have invariant := invariant_initial.run steps
  refine ⟨invariant.delivered_first, invariant.delivered_all, ?_,
    invariant.tracks.numbered.take invariant.delivered_first,
    ⟨_, _, invariant.tracks.numbered⟩,
    fun snapshot member => (invariant.snapshots snapshot member).1⟩
  rcases invariant.drains with ⟨rounds, all, _⟩
  refine ⟨rounds, ?_⟩
  rw [run, foldl_append]
  exact all

end Broadcast

end Grab.Overlay
