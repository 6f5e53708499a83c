import Grab.Spaces.Routes

/-!
# What a space graph answers

Every answer about a pair of registered spaces is that of one shortest path: the
map is the one along the path, the trust is the weakest on it, and the answer is
refused when a transform of the path is out of date.

An edge keeps the first transform it got, so a route over a single edge can be
refreshed only when the transform that is stored would do as well.
-/

namespace Grab.Spaces

open Grab.Graph AdjacencyGraph List Option

variable {α : Type} [CommRing α]

def changed : Error := ⟨.topologyChanged, "coordinate transform route is stale"⟩

def noRoute : Error := ⟨.routeUnavailable, "no coordinate transform route is available"⟩

/-- What is answered along a path. -/
structure AnswersAlong (spaces : SpaceGraph α) (source destination : CoordinateSpaceId)
    (path : List (TransformRecord α)) : Prop where
  route : ∃ route, spaces.findRoute source destination = some (.ok route) ∧
    (∀ point, route.transform.apply point = mapAlong path point) ∧ WeakestOn route.trust path
  stale : (∃ transform ∈ path, OutOfDate spaces transform) →
    spaces.resolveTransform source destination = some (.error changed) ∧
      spaces.routeTrust source destination = some (.error changed) ∧
      ∀ x y, spaces.map ⟨x, y, source⟩ destination = some (.error changed)
  current : (¬∃ transform ∈ path, OutOfDate spaces transform) →
    (∃ transform, spaces.resolveTransform source destination = some (.ok transform) ∧
      ∀ point, transform.apply point = mapAlong path point) ∧
    (∃ trust, spaces.routeTrust source destination = some (.ok trust) ∧ WeakestOn trust path) ∧
    ∀ x y, spaces.map ⟨x, y, source⟩ destination =
      some (.ok ⟨(mapAlong path (x, y)).1, (mapAlong path (x, y)).2, destination⟩)

/-- Answers without a path, and along a shortest one. -/
structure ShortestAnswers (spaces : SpaceGraph α) (source destination : CoordinateSpaceId) :
    Prop where
  returns : spaces.findRoute source destination ≠ none
  unavailable : spaces.findRoute source destination = some (.error noRoute) ↔
    ¬∃ path, Path spaces source path destination
  refused : (¬∃ path, Path spaces source path destination) →
    spaces.resolveTransform source destination = some (.error noRoute) ∧
      spaces.routeTrust source destination = some (.error noRoute) ∧
      ∀ x y, spaces.map ⟨x, y, source⟩ destination = some (.error noRoute)
  answered : (∃ path, Path spaces source path destination) →
    ∃ path, Shortest spaces source path destination ∧ AnswersAlong spaces source destination path

variable {spaces : SpaceGraph α} {source destination : CoordinateSpaceId}
  {path : List (TransformRecord α)} {route : RouteState α}

theorem answers_of_follows (found : spaces.findRoute source destination = some (.ok route))
    (follows : Follows spaces path route) : AnswersAlong spaces source destination path := by
  constructor
  case route => exact ⟨route, found, follows.apply, follows.trust⟩
  case stale =>
    intro old
    have isStale := follows.stale.mpr old
    simp [SpaceGraph.resolveTransform, SpaceGraph.routeTrust, SpaceGraph.map, found, refuseStale,
      isStale, changed, Except.map]
  case current =>
    intro fresh
    have notStale : route.stale = false := by
      rw [← Bool.not_eq_true, follows.stale]
      exact fresh
    have resolved : spaces.resolveTransform source destination = some (.ok route.transform) := by
      simp [SpaceGraph.resolveTransform, found, refuseStale, notStale, Except.map]
    refine ⟨⟨route.transform, resolved, follows.apply⟩, ⟨route.trust, ?_, follows.trust⟩, ?_⟩
    · simp [SpaceGraph.routeTrust, found, refuseStale, notStale, Except.map]
    · intro x y
      rw [← follows.apply]
      simp [SpaceGraph.map, resolved, Except.map, Affine.apply]

/-- Resolution between registered spaces follows a shortest path. -/
theorem resolution_shortest (reachable : Reachable spaces)
    (sourceIn : spaces.graph.containsNode source = true)
    (destinationIn : spaces.graph.containsNode destination = true) :
    ShortestAnswers spaces source destination := by
  rcases findRoute_spec reachable.sound sourceIn destinationIn with
    ⟨missing, noPath⟩ | ⟨path, route, found, shortest, follows⟩
  · constructor
    case returns => rw [missing]; simp
    case unavailable => exact iff_of_true missing noPath
    case refused =>
      intro _
      simp [SpaceGraph.resolveTransform, SpaceGraph.routeTrust, SpaceGraph.map, missing,
        refuseStale, noRoute, Except.map]
    case answered => exact fun isPath => absurd isPath noPath
  · constructor
    case returns => rw [found]; simp
    case unavailable =>
      apply iff_of_false
      · rw [found]
        simp
      · exact not_not_intro ⟨path, shortest.1⟩
    case refused => exact fun noPath => absurd ⟨path, shortest.1⟩ noPath
    case answered => exact fun _ => ⟨path, shortest, answers_of_follows found follows⟩

/-- Two spaces with an edge between them. -/
def pair : SpaceGraph ℤ :=
  ((({} : SpaceGraph ℤ).addSpace 0).2.addSpace 0).2.addTransform
    ⟨⟨1⟩, ⟨2⟩, Affine.translation 3 4, 1, 0, .exact⟩

theorem reachable_pair : Reachable pair := .addTransform (.addSpace (.addSpace .empty 0) 0) _

theorem resolution_pair : ShortestAnswers pair ⟨1⟩ ⟨2⟩ :=
  resolution_shortest reachable_pair (by decide +kernel) (by decide +kernel)

/-! ## Refreshing a transform -/

/-- Over an edge the route is the edge. -/
theorem resolve_edge {transform : TransformRecord α} (sound : Sound spaces)
    (distinct : source ≠ destination)
    (stored : spaces.graph.edgePayload source destination = some transform) :
    (OutOfDate spaces transform →
      spaces.resolveTransform source destination = some (.error changed)) ∧
    (¬OutOfDate spaces transform →
      spaces.resolveTransform source destination = some (.ok transform.map)) := by
  have own := (sound.own _ _ _ stored).2
  have live := sound.mirrored.live _ _ _ ((edgePayload_eq_some_iff sound.mirrored).mp stored)
  have edgePath : Path spaces source [transform] destination := by
    constructor
    · rw [own]
      exact stored
    · exact own
  rcases findRoute_spec sound live.1 live.2 with
    ⟨_, noPath⟩ | ⟨path, route, found, ⟨isPath, shortest⟩, follows⟩
  · exact absurd ⟨_, edgePath⟩ noPath
  have atMostOne : path.length ≤ 1 := shortest _ edgePath
  rcases path with _ | ⟨first, rest⟩
  · exact absurd isPath distinct
  obtain rfl : rest = [] := by
    rw [length_cons] at atMostOne
    exact eq_nil_of_length_eq_zero (by omega)
  rcases isPath with ⟨firstStored, isLast⟩
  obtain rfl : first.destination = destination := isLast
  obtain rfl : transform = first := by
    rw [stored, some.injEq] at firstStored
    exact firstStored
  have answers := answers_of_follows found follows
  constructor
  · intro old
    exact (answers.stale ⟨transform, mem_singleton_self _, old⟩).1
  intro current
  have notStale : route.stale = false := by
    rw [← Bool.not_eq_true, follows.stale]
    simpa using current
  have isMap : route.transform = transform.map := by
    rw [follows.transform, foldl_cons, foldl_nil, Affine.identity_compose]
  simp [SpaceGraph.resolveTransform, found, refuseStale, notStale, isMap, Except.map]

/-- The transform that was just added is the one answered. -/
def TakesEffect (spaces : SpaceGraph α) (transform : TransformRecord α) : Prop :=
  (spaces.addTransform transform).resolveTransform transform.source transform.destination =
    some (.ok transform.map)

/-- A transform takes effect exactly when its edge is new, or carries a current transform
with the same map already. -/
theorem takesEffect_iff {transform : TransformRecord α} (reachable : Reachable spaces)
    (distinct : transform.source ≠ transform.destination)
    (sourceIn : spaces.graph.containsNode transform.source = true)
    (destinationIn : spaces.graph.containsNode transform.destination = true)
    (current : ∀ generation, (spaces.generations[transform.source]? = some generation ∨
      spaces.generations[transform.destination]? = some generation) →
        generation ≤ transform.generation) :
    TakesEffect spaces transform ↔
      ∀ stored, spaces.graph.edgePayload transform.source transform.destination = some stored →
        stored.map = transform.map ∧ ¬OutOfDate spaces stored := by
  have sound := reachable.sound
  have edge := @edgePayload_addTransform α spaces transform sound.mirrored transform.source
    transform.destination
  cases before : spaces.graph.edgePayload transform.source transform.destination with
  | none =>
    have added := (edge transform).mpr
      (.inr ⟨rfl, rfl, rfl, distinct, sourceIn, destinationIn, before⟩)
    apply iff_of_true
    · apply (resolve_edge sound.addTransform distinct added).2
      rintro ⟨generation, known, older⟩
      exact absurd (current generation known) (UInt32.not_le.mpr older)
    · intro stored impossible
      cases impossible
  | some stored =>
    have kept := resolve_edge sound.addTransform distinct ((edge stored).mpr (.inl before))
    constructor
    · intro takesEffect other same
      cases same
      by_cases old : OutOfDate spaces stored
      · rw [TakesEffect, kept.1 old] at takesEffect
        cases takesEffect
      · rw [TakesEffect, kept.2 old, some.injEq, Except.ok.injEq] at takesEffect
        exact ⟨takesEffect, old⟩
    · intro asGood
      rcases asGood stored rfl with ⟨sameMap, fresh⟩
      rw [TakesEffect, kept.2 fresh, sameMap]

/-- The first transform between two spaces. -/
theorem takesEffect_pair :
    TakesEffect (({} : SpaceGraph ℤ).addSpace 0 |>.2.addSpace 0 |>.2)
        ⟨⟨1⟩, ⟨2⟩, Affine.translation 3 4, 1, 0, .exact⟩ ↔
      ∀ stored, (({} : SpaceGraph ℤ).addSpace 0 |>.2.addSpace 0 |>.2).graph.edgePayload ⟨1⟩ ⟨2⟩ =
          some stored →
        stored.map = Affine.translation 3 4 ∧
          ¬OutOfDate (({} : SpaceGraph ℤ).addSpace 0 |>.2.addSpace 0 |>.2) stored := by
  apply takesEffect_iff (.addSpace (.addSpace .empty 0) 0) (by decide) (by decide +kernel)
    (by decide +kernel)
  have first : (({} : SpaceGraph ℤ).addSpace 0 |>.2.addSpace 0 |>.2).generations[
      (⟨1⟩ : CoordinateSpaceId)]? = some 0 := by decide +kernel
  have second : (({} : SpaceGraph ℤ).addSpace 0 |>.2.addSpace 0 |>.2).generations[
      (⟨2⟩ : CoordinateSpaceId)]? = some 0 := by decide +kernel
  rintro generation (known | known)
  · rw [first, some.injEq] at known
    exact known ▸ UInt32.le_refl 0
  · rw [second, some.injEq] at known
    exact known ▸ UInt32.le_refl 0

/-- The pair after its second space moved on. -/
def stalePair : SpaceGraph ℤ := (pair.bumpGeneration ⟨2⟩).getD pair

/-- The same route at the new generation. -/
def refreshed : TransformRecord ℤ := ⟨⟨1⟩, ⟨2⟩, Affine.translation 3 4, 2, 1, .exact⟩

/-- A stale edge rejects its refreshed transform. -/
theorem refreshed_stays_stale :
    Reachable stalePair ∧ stalePair.graph.containsNode ⟨1⟩ = true ∧
      stalePair.graph.containsNode ⟨2⟩ = true ∧
      stalePair.generations[(⟨1⟩ : CoordinateSpaceId)]? = some 0 ∧
      stalePair.generations[(⟨2⟩ : CoordinateSpaceId)]? = some 1 ∧
      ¬TakesEffect stalePair refreshed := by
  have bumped : pair.bumpGeneration ⟨2⟩ = some stalePair := by
    have known : (pair.generations[(⟨2⟩ : CoordinateSpaceId)]?).isSome = true := by decide +kernel
    rcases isSome_iff_exists.mp known with ⟨generation, found⟩
    simp [stalePair, SpaceGraph.bumpGeneration, found]
  refine ⟨.bumpGeneration reachable_pair bumped, by decide +kernel, by decide +kernel,
    by decide +kernel, by decide +kernel, ?_⟩
  intro takesEffect
  have answer : (stalePair.addTransform refreshed).resolveTransform ⟨1⟩ ⟨2⟩ =
      some (.error changed) := by rfl
  cases answer.symm.trans takesEffect

end Grab.Spaces
