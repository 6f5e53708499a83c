import Grab.Spaces.SpaceGraph

/-!
# Routes are shortest paths

`Sound` is what the three operations of a space graph keep.  `Path` is a list of
stored transforms that leads from one space to another, and `Follows` says that a
route is the composition of the transforms of a path.  Every entry of the route
table follows a path of the smallest length, because a space gets its entry when
the search first sees it.
-/

namespace Grab.Spaces

open Std Grab.Graph Grab.Lib Grab.Lib.Traversal AdjacencyGraph List

variable {α : Type}

/-! ## The invariant of the graph -/

/-- The adjacency lists are in order, every stored transform leads along its own
edge and the registered spaces have generations. -/
structure Sound (spaces : SpaceGraph α) : Prop where
  mirrored : spaces.graph.Mirrored
  own : ∀ source target transform, spaces.graph.edgePayload source target = some transform →
    transform.source = source ∧ transform.destination = target
  registered : ∀ space, spaces.graph.containsNode space = true ↔
    ∃ generation, spaces.generations[space]? = some generation

/-- The graphs that the operations make of an empty one. -/
inductive Reachable : SpaceGraph α → Prop
  | empty : Reachable {}
  | addSpace {spaces : SpaceGraph α} (earlier : Reachable spaces) (generation : UInt32) :
      Reachable (spaces.addSpace generation).2
  | addTransform {spaces : SpaceGraph α} (earlier : Reachable spaces)
      (transform : TransformRecord α) : Reachable (spaces.addTransform transform)
  | bumpGeneration {spaces next : SpaceGraph α} (earlier : Reachable spaces)
      {space : CoordinateSpaceId} (bumped : spaces.bumpGeneration space = some next) :
      Reachable next

section Generations

variable {generations : GenerationLookup} {space other : CoordinateSpaceId} {generation : UInt32}

theorem getElem?_insertIfNew_generations : (generations.insertIfNew space generation)[other]? =
      if space = other ∧ space ∉ generations then some generation else generations[other]? := by
  simp [ExtTreeMap.getElem?_insertIfNew]

theorem getElem?_insert_generations : (generations.insert space generation)[other]? =
      if space = other then some generation else generations[other]? := by
  simp [ExtTreeMap.getElem?_insert]

end Generations

section Operations

variable {spaces next : SpaceGraph α} {space : CoordinateSpaceId} {generation : UInt32}
  {transform : TransformRecord α}

theorem sound_empty : Sound ({} : SpaceGraph α) where
  mirrored := mirrored_empty
  own source target transform stored := by simp [edgePayload] at stored
  registered space := by simp [containsNode]

/-- A registered space keeps its node and its generation when its number comes up again. -/
theorem contains_addSpace (other : CoordinateSpaceId) :
    (spaces.addSpace generation).2.graph.containsNode other = true ↔
      other = ⟨spaces.nextSpace⟩ ∨ spaces.graph.containsNode other = true := by
  dsimp only [SpaceGraph.addSpace]
  cases added : spaces.graph.addNode ⟨spaces.nextSpace⟩ with
  | none =>
    have old : spaces.graph.containsNode ⟨spaces.nextSpace⟩ = true := by
      simpa [addNode, containsNode] using added
    constructor
    · exact .inr
    · rintro (rfl | contained)
      · exact old
      · exact contained
  | some grown => exact containsNode_addNode added other

theorem edgePayload_addSpace (mirrored : spaces.graph.Mirrored)
    (source target : CoordinateSpaceId) :
    (spaces.addSpace generation).2.graph.edgePayload source target =
      spaces.graph.edgePayload source target := by
  dsimp only [SpaceGraph.addSpace]
  cases added : spaces.graph.addNode ⟨spaces.nextSpace⟩ with
  | none => rfl
  | some grown =>
    apply Option.ext
    intro transform
    rw [Option.getD_some, edgePayload_eq_some_iff (mirrored.addNode added),
      edgePayload_eq_some_iff mirrored, (edges_addNode mirrored added source).1]

theorem mirrored_addSpace (mirrored : spaces.graph.Mirrored) :
    (spaces.addSpace generation).2.graph.Mirrored := by
  dsimp only [SpaceGraph.addSpace]
  cases added : spaces.graph.addNode ⟨spaces.nextSpace⟩ with
  | none => exact mirrored
  | some grown => exact mirrored.addNode added

theorem Sound.addSpace (sound : Sound spaces) : Sound (spaces.addSpace generation).2 := by
  constructor
  case mirrored => exact mirrored_addSpace sound.mirrored
  case own =>
    intro source target transform stored
    rw [edgePayload_addSpace sound.mirrored] at stored
    exact sound.own source target transform stored
  case registered =>
    intro other
    rw [contains_addSpace, sound.registered]
    change _ ↔ ∃ current, (spaces.generations.insertIfNew _ generation)[other]? = some current
    rw [getElem?_insertIfNew_generations]
    constructor
    · rintro (rfl | ⟨current, known⟩)
      · by_cases old : (⟨spaces.nextSpace⟩ : CoordinateSpaceId) ∈ spaces.generations
        · rw [if_neg (by simp [old])]
          exact Option.isSome_iff_exists.mp (ExtTreeMap.mem_iff_isSome_getElem?.mp old)
        · exact ⟨generation, if_pos ⟨rfl, old⟩⟩
      · split
        · exact ⟨generation, rfl⟩
        · exact ⟨current, known⟩
    · rintro ⟨current, known⟩
      split at known
      · rename_i new
        exact .inl new.1.symm
      · exact .inr ⟨current, known⟩

theorem contains_addTransform (other : CoordinateSpaceId) :
    (spaces.addTransform transform).graph.containsNode other = true ↔
      spaces.graph.containsNode other = true := by
  dsimp only [SpaceGraph.addTransform]
  cases added : spaces.graph.addEdge transform.source transform.destination transform with
  | none => exact Iff.rfl
  | some grown => exact containsNode_addEdge added other

/-- An edge is added when its ends are two registered spaces without an edge. -/
theorem addEdge_isSome (distinct : transform.source ≠ transform.destination)
    (sourceIn : spaces.graph.containsNode transform.source = true)
    (destinationIn : spaces.graph.containsNode transform.destination = true)
    (absent : spaces.graph.edgePayload transform.source transform.destination = none) :
    ∃ grown, spaces.graph.addEdge transform.source transform.destination transform =
      some grown := by
  rw [containsNode, ExtTreeMap.contains_eq_isSome_getElem?] at sourceIn
  rcases Option.isSome_iff_exists.mp sourceIn with ⟨edges, found⟩
  have missing : findEdge edges transform.destination = none := by
    rw [edgePayload, found] at absent
    exact Option.map_eq_none_iff.mp absent
  rw [containsNode] at destinationIn
  unfold addEdge
  rw [if_neg distinct, found]
  dsimp only
  rw [if_pos destinationIn, missing]
  exact ⟨_, rfl⟩

/-- The transform stored on an edge after an addition: an edge keeps the first one. -/
theorem edgePayload_addTransform (mirrored : spaces.graph.Mirrored)
    (source target : CoordinateSpaceId) (stored : TransformRecord α) :
    (spaces.addTransform transform).graph.edgePayload source target = some stored ↔
      spaces.graph.edgePayload source target = some stored ∨
        (source = transform.source ∧ target = transform.destination ∧ stored = transform ∧
          transform.source ≠ transform.destination ∧
          spaces.graph.containsNode transform.source = true ∧
          spaces.graph.containsNode transform.destination = true ∧
          spaces.graph.edgePayload transform.source transform.destination = none) := by
  dsimp only [SpaceGraph.addTransform]
  cases added : spaces.graph.addEdge transform.source transform.destination transform with
  | none =>
    rw [Option.getD_none]
    constructor
    · exact .inl
    rintro (old | ⟨_, _, _, distinct, sourceIn, destinationIn, absent⟩)
    · exact old
    rcases addEdge_isSome distinct sourceIn destinationIn absent with
      ⟨grown, grows⟩
    rw [added] at grows
    cases grows
  | some grown =>
    rcases addEdge_eq_some added with ⟨distinct, sourceIn, destinationIn, missing, _⟩
    have absent : spaces.graph.edgePayload transform.source transform.destination = none := by
      cases payload : spaces.graph.edgePayload transform.source transform.destination with
      | none => rfl
      | some old =>
        have member := (edgePayload_eq_some_iff mirrored).mp payload
        have none := (findEdge_eq_none_iff (mirrored.outSorted _) _).mp missing _ member
        exact absurd rfl none
    rw [Option.getD_some, edgePayload_eq_some_iff (mirrored.addEdge added),
      mem_outEdges_addEdge added, edgePayload_eq_some_iff mirrored, OutgoingEdge.mk.injEq]
    constructor
    · rintro (⟨rfl, rfl, rfl⟩ | old)
      · exact .inr ⟨rfl, rfl, rfl, distinct, sourceIn, destinationIn, absent⟩
      · exact .inl old
    · rintro (old | ⟨rfl, rfl, rfl, _⟩)
      · exact .inr old
      · exact .inl ⟨rfl, rfl, rfl⟩

theorem Sound.addTransform (sound : Sound spaces) : Sound (spaces.addTransform transform) := by
  constructor
  case mirrored =>
    dsimp only [SpaceGraph.addTransform]
    cases added : spaces.graph.addEdge transform.source transform.destination transform with
    | none => exact sound.mirrored
    | some grown => exact sound.mirrored.addEdge added
  case own =>
    intro source target stored isStored
    rw [edgePayload_addTransform sound.mirrored] at isStored
    rcases isStored with old | ⟨rfl, rfl, rfl, _⟩
    · exact sound.own source target stored old
    · exact ⟨rfl, rfl⟩
  case registered =>
    intro other
    rw [contains_addTransform]
    exact sound.registered other

/-- What a bump does to the generations. -/
theorem bumpGeneration_eq_some (bumped : spaces.bumpGeneration space = some next) :
    ∃ generation, spaces.generations[space]? = some generation ∧
      next = { spaces with generations := spaces.generations.insert space (generation + 1) } := by
  unfold SpaceGraph.bumpGeneration at bumped
  cases known : spaces.generations[space]? with
  | none => simp [known] at bumped
  | some generation =>
    rw [known] at bumped
    exact ⟨generation, rfl, (Option.some.inj bumped).symm⟩

theorem Sound.bumpGeneration (sound : Sound spaces)
    (bumped : spaces.bumpGeneration space = some next) : Sound next := by
  rcases bumpGeneration_eq_some bumped with ⟨generation, known, rfl⟩
  refine { sound with registered := ?registered }
  case registered =>
    intro other
    change spaces.graph.containsNode other = true ↔ _
    rw [sound.registered, getElem?_insert_generations]
    by_cases same : space = other
    · subst same
      rw [if_pos rfl, known]
      exact iff_of_true ⟨generation, rfl⟩ ⟨generation + 1, rfl⟩
    · rw [if_neg same]

theorem Reachable.sound (reachable : Reachable spaces) : Sound spaces := by
  induction reachable with
  | empty => exact sound_empty
  | addSpace _ _ ih => exact ih.addSpace
  | addTransform _ _ ih => exact ih.addTransform
  | bumpGeneration _ bumped ih => exact ih.bumpGeneration bumped

end Operations

/-! ## Paths -/

/-- The transforms of a path, one after the other. -/
def Path (spaces : SpaceGraph α) (source : CoordinateSpaceId) :
    List (TransformRecord α) → CoordinateSpaceId → Prop
  | [], destination => source = destination
  | transform :: rest, destination =>
    spaces.graph.edgePayload source transform.destination = some transform ∧
      Path spaces transform.destination rest destination

/-- A transform is older than one of its ends. -/
def OutOfDate (spaces : SpaceGraph α) (transform : TransformRecord α) : Prop :=
  ∃ current, (spaces.generations[transform.source]? = some current ∨
    spaces.generations[transform.destination]? = some current) ∧ transform.generation < current

/-- A path no other one is shorter than. -/
def Shortest (spaces : SpaceGraph α) (source : CoordinateSpaceId)
    (path : List (TransformRecord α)) (destination : CoordinateSpaceId) : Prop :=
  Path spaces source path destination ∧
    ∀ other, Path spaces source other destination → path.length ≤ other.length

/-- The weakest trust on a path, and the most trusted one on an empty path. -/
def WeakestOn (trust : TransformTrust) (path : List (TransformRecord α)) : Prop :=
  (∀ transform ∈ path, transform.trust.rank ≤ trust.rank) ∧
    (trust = .exact ∨ ∃ transform ∈ path, transform.trust = trust)

/-- Map a point along the edges of a path, one after the other. -/
def mapAlong [CommRing α] (path : List (TransformRecord α)) (point : α × α) : α × α :=
  path.foldl (fun point transform => transform.map.apply point) point

section Paths

variable {spaces : SpaceGraph α} {source middle destination : CoordinateSpaceId}
  {path rest : List (TransformRecord α)} {transform : TransformRecord α}

theorem Path.append (first : Path spaces source path middle)
    (second : Path spaces middle rest destination) :
    Path spaces source (path ++ rest) destination := by
  induction path generalizing source with
  | nil =>
    obtain rfl : source = middle := first
    exact second
  | cons head tail ih => exact ⟨first.1, ih first.2⟩

theorem Path.last (isPath : Path spaces source (path ++ [transform]) destination) :
    ∃ last, Path spaces source path last ∧
      spaces.graph.edgePayload last destination = some transform := by
  induction path generalizing source with
  | nil =>
    rcases isPath with ⟨stored, same⟩
    obtain rfl : transform.destination = destination := same
    exact ⟨source, rfl, stored⟩
  | cons head tail ih =>
    rcases ih isPath.2 with ⟨last, walk, stored⟩
    exact ⟨last, ⟨isPath.1, walk⟩, stored⟩

theorem mem_targets_iff (mirrored : spaces.graph.Mirrored) :
    destination ∈ targets spaces.graph source ↔
      ∃ transform, spaces.graph.edgePayload source destination = some transform := by
  rw [targets, mem_map]
  constructor
  · rintro ⟨⟨target, transform⟩, member, rfl⟩
    exact ⟨transform, (edgePayload_eq_some_iff mirrored).mpr member⟩
  · rintro ⟨transform, stored⟩
    exact ⟨⟨destination, transform⟩, (edgePayload_eq_some_iff mirrored).mp stored, rfl⟩

theorem targets_live (mirrored : spaces.graph.Mirrored) :
    ∀ node ∈ spaces.graph.nodes, targets spaces.graph node ⊆ spaces.graph.nodes := by
  intro node _ target member
  rcases mem_map.mp member with ⟨⟨target, transform⟩, inEdges, rfl⟩
  exact mem_nodes_iff.mpr (mirrored.live node target transform inEdges).2

/-- Paths have the lengths of walks along the edges. -/
theorem path_iff_walk (sound : Sound spaces) {length : Nat} :
    Walk (targets spaces.graph) length source destination ↔
      ∃ path, Path spaces source path destination ∧ path.length = length := by
  induction length generalizing destination with
  | zero =>
    constructor
    · intro same
      exact ⟨[], same, rfl⟩
    rintro ⟨path, isPath, empty⟩
    rw [length_eq_zero_iff] at empty
    subst empty
    exact isPath
  | succ length ih =>
    constructor
    · rintro ⟨last, walk, edge⟩
      rcases ih.mp walk with ⟨path, isPath, rfl⟩
      rcases (mem_targets_iff sound.mirrored).mp edge with ⟨transform, stored⟩
      have own := (sound.own _ _ _ stored).2
      refine ⟨path ++ [transform], isPath.append ⟨?_, own⟩, by simp⟩
      rw [own]
      exact stored
    · rintro ⟨path, isPath, long⟩
      rcases eq_nil_or_concat path with rfl | ⟨first, transform, rfl⟩
      · simp at long
      rw [concat_eq_append] at isPath long
      rcases isPath.last with ⟨last, walk, stored⟩
      refine ⟨last, ih.mpr ⟨first, walk, by simpa using long⟩, ?_⟩
      exact (mem_targets_iff sound.mirrored).mpr ⟨transform, stored⟩

end Paths

/-! ## The route table -/

/-- A route that is the composition of the transforms of a path. -/
structure Follows [CommRing α] (spaces : SpaceGraph α) (path : List (TransformRecord α))
    (route : RouteState α) : Prop where
  transform : route.transform =
    path.foldl (fun map transform => Affine.compose map transform.map) Affine.identity
  trust : WeakestOn route.trust path
  stale : route.stale = true ↔ ∃ transform ∈ path, OutOfDate spaces transform

section Table

variable [CommRing α] {spaces : SpaceGraph α} {source destination : CoordinateSpaceId}
  {path : List (TransformRecord α)} {transform : TransformRecord α} {prior route : RouteState α}
  {routes : Routes α}

/-- In exact arithmetic the composed map takes a point where the single maps take it. -/
theorem Follows.apply (follows : Follows spaces path route) (point : α × α) :
    route.transform.apply point = mapAlong path point := by
  have along : ∀ (path : List (TransformRecord α)) (map : Affine α),
      (path.foldl (fun map transform => Affine.compose map transform.map) map).apply point =
        mapAlong path (map.apply point) := by
    intro path
    induction path with
    | nil => exact fun _ => rfl
    | cons head tail ih =>
      intro map
      rw [foldl_cons, ih, Affine.compose_apply]
      rfl
  rw [follows.transform, along, Affine.identity_apply]

omit [CommRing α] in
theorem weakestOn_concat {trust : TransformTrust} (weakest : WeakestOn trust path) :
    WeakestOn (trust.weakest transform.trust) (path ++ [transform]) := by
  rcases weakest with ⟨atLeast, attained⟩
  by_cases weaker : trust.rank < transform.trust.rank
  · rw [TransformTrust.weakest, if_pos weaker]
    constructor
    · intro other member
      rcases mem_append.mp member with inPath | isLast
      · exact (atLeast other inPath).trans weaker.le
      · rw [mem_singleton.mp isLast]
    · exact .inr ⟨transform, by simp, rfl⟩
  · rw [TransformTrust.weakest, if_neg weaker]
    constructor
    · intro other member
      rcases mem_append.mp member with inPath | isLast
      · exact atLeast other inPath
      · rw [mem_singleton.mp isLast]
        exact Nat.le_of_not_lt weaker
    · rcases attained with exact' | ⟨other, inPath, same⟩
      · exact .inl exact'
      · exact .inr ⟨other, mem_append_left _ inPath, same⟩

omit [CommRing α] in
/-- The visitor's check finds the generations of both ends and compares with them. -/
theorem isStale_eq (sound : Sound spaces)
    (stored : spaces.graph.edgePayload source destination = some transform) :
    ∃ stale, isStale spaces.generations transform source destination = some stale ∧
      (stale = true ↔ OutOfDate spaces transform) := by
  have edge := (edgePayload_eq_some_iff sound.mirrored).mp stored
  rcases sound.mirrored.live _ _ _ edge with ⟨sourceIn, destinationIn⟩
  rcases (sound.registered source).mp sourceIn with ⟨atSource, sourceKnown⟩
  rcases (sound.registered destination).mp destinationIn with
    ⟨atDestination, destinationKnown⟩
  rcases sound.own _ _ _ stored with ⟨rfl, rfl⟩
  simp only [isStale, sourceKnown, destinationKnown]
  by_cases older : transform.generation < atSource
  · rw [if_pos older]
    exact ⟨true, rfl, iff_of_true rfl ⟨atSource, .inl sourceKnown, older⟩⟩
  rw [if_neg older]
  refine ⟨decide (transform.generation < atDestination), rfl, ?_⟩
  rw [decide_eq_true_iff]
  constructor
  · intro less
    exact ⟨atDestination, .inr destinationKnown, less⟩
  rintro ⟨current, known | known, less⟩
  · rw [sourceKnown, Option.some.injEq] at known
    exact absurd (known ▸ less) older
  · rw [destinationKnown, Option.some.injEq] at known
    exact known ▸ less

/-- The routes of the spaces seen, each along a shortest path. -/
structure Table (spaces : SpaceGraph α) (source : CoordinateSpaceId)
    (seen : List CoordinateSpaceId) (routes : Routes α) : Prop where
  known : ∀ space, routes.contains space = true ↔ space ∈ seen
  follows : ∀ space route, routes[space]? = some route →
    ∃ path, Path spaces source path space ∧
      AtDistance (targets spaces.graph) source path.length space ∧ Follows spaces path route

theorem table_start :
    Table spaces source [source] ((∅ : Routes α).insertIfNew source RouteState.here) where
  known space := by
    rw [ExtTreeMap.contains_insertIfNew, Bool.or_eq_true, beq_iff_eq,
      LawfulEqCmp.compare_eq_iff_eq, ExtTreeMap.contains_empty, mem_singleton]
    constructor
    · rintro (rfl | impossible)
      · rfl
      · cases impossible
    · rintro rfl
      exact .inl rfl
  follows space route found := by
    rw [ExtTreeMap.getElem?_insertIfNew] at found
    by_cases same : source = space
    · subst same
      rw [if_pos ⟨compare_self, ExtTreeMap.not_mem_empty⟩, Option.some.injEq] at found
      subst found
      refine ⟨[], rfl, ⟨rfl, ?_⟩, rfl, ⟨by simp, .inl rfl⟩, by simp [RouteState.here]⟩
      intro shorter less
      cases less
    · rw [if_neg (fun both => same (LawfulEqCmp.eq_of_compare both.1)),
        ExtTreeMap.getElem?_empty] at found
      cases found

theorem Follows.concat (follows : Follows spaces path prior) {stale : Bool}
    (isStale : stale = true ↔ prior.stale = true ∨ OutOfDate spaces transform) :
    Follows spaces (path ++ [transform])
      ⟨Affine.compose prior.transform transform.map,
        TransformTrust.weakest prior.trust transform.trust, stale⟩ := by
  constructor
  case transform => rw [foldl_append, ← follows.transform]; rfl
  case trust => exact weakestOn_concat follows.trust
  case stale =>
    rw [isStale, follows.stale]
    constructor
    · rintro (⟨other, inPath, old⟩ | old)
      · exact ⟨other, mem_append_left _ inPath, old⟩
      · exact ⟨transform, mem_concat_self, old⟩
    rintro ⟨other, member, old⟩
    rcases mem_append.mp member with inPath | isLast
    · exact .inl ⟨other, inPath, old⟩
    · exact .inr (mem_singleton.mp isLast ▸ old)

/-- A space that is seen gets the route of a shortest path. -/
theorem Table.insert {seen : List CoordinateSpaceId} (table : Table spaces source seen routes)
    (unseen : destination ∉ seen) (isPath : Path spaces source path destination)
    (isAt : AtDistance (targets spaces.graph) source path.length destination)
    (follows : Follows spaces path route) :
    Table spaces source (seen ++ [destination]) (routes.insertIfNew destination route) := by
  have absent : destination ∉ routes := by
    rw [← ExtTreeMap.contains_iff_mem, table.known]
    exact unseen
  constructor
  case known =>
    intro space
    rw [ExtTreeMap.contains_insertIfNew, Bool.or_eq_true, table.known, mem_append,
      mem_singleton, beq_iff_eq, LawfulEqCmp.compare_eq_iff_eq, or_comm]
    exact or_congr_right eq_comm
  case follows =>
    intro space other found
    rw [ExtTreeMap.getElem?_insertIfNew] at found
    by_cases same : destination = space
    · subst same
      rw [if_pos ⟨compare_self, absent⟩, Option.some.injEq] at found
      subst found
      exact ⟨path, isPath, isAt, follows⟩
    · rw [if_neg (fun both => same (LawfulEqCmp.eq_of_compare both.1))] at found
      exact table.follows space other found

variable (sound : Sound spaces)

include sound

/-- The lookups of the visitor succeed, for an edge from a space with a route. -/
theorem visitEdge_new (stored : spaces.graph.edgePayload source destination = some transform)
    (unknown : ¬routes.contains destination = true) (found : routes[source]? = some prior) :
    ∃ stale, visitEdge spaces.graph spaces.generations routes source destination =
        some (routes.insertIfNew destination
          ⟨Affine.compose prior.transform transform.map,
            TransformTrust.weakest prior.trust transform.trust, stale⟩) ∧
      (stale = true ↔ prior.stale = true ∨ OutOfDate spaces transform) := by
  rcases isStale_eq sound stored with ⟨edgeStale, checked, edgeStaleIff⟩
  simp only [visitEdge, if_neg unknown, stored, found]
  by_cases priorStale : prior.stale = true
  · rw [if_pos priorStale]
    exact ⟨true, rfl, iff_of_true rfl (.inl priorStale)⟩
  · rw [if_neg priorStale, checked]
    refine ⟨edgeStale, rfl, ?_⟩
    rw [edgeStaleIff, or_iff_right priorStale]

/-- The first edge into a space gives it its route. -/
theorem visitEdge_accepts :
    Layered.Accepts (visitEdge spaces.graph spaces.generations) (targets spaces.graph) source
      (Table spaces source) := by
  intro distance last target seen routes table lastSeen lastAt edge targetAt
  by_cases old : target ∈ seen
  · refine ⟨routes, ?_, ?_⟩
    · rw [visitEdge, if_pos ((table.known target).mpr old)]
    · have nothing : Search.fresh seen [target] = [] := by simp [Search.fresh, old]
      rw [nothing, append_nil]
      exact table
  rcases (mem_targets_iff sound.mirrored).mp edge with ⟨transform, stored⟩
  have priorKnown := (table.known last).mpr lastSeen
  rw [ExtTreeMap.contains_eq_isSome_getElem?] at priorKnown
  rcases Option.isSome_iff_exists.mp priorKnown with ⟨prior, found⟩
  rcases table.follows last prior found with ⟨path, isPath, isAt, follows⟩
  rcases visitEdge_new sound stored (mt (table.known target).mp old) found with
    ⟨stale, visited, staleIff⟩
  have new : Search.fresh seen [target] = [target] := by simp [Search.fresh, old]
  have own := (sound.own _ _ _ stored).2
  have longer : Path spaces source (path ++ [transform]) target := by
    apply isPath.append
    constructor
    · rw [own]
      exact stored
    · exact own
  refine ⟨_, visited, ?_⟩
  rw [new]
  apply table.insert old longer _ (follows.concat staleIff)
  rw [length_append, length_singleton, ← distance_unique lastAt isAt]
  exact targetAt old

/-- The search ends with the routes of all spaces that paths lead to. -/
theorem breadthFirstSearch_table (inGraph : spaces.graph.containsNode source = true) :
    ∃ routes seen, breadthFirstSearch spaces.graph spaces.generations source
        ((∅ : Routes α).insertIfNew source RouteState.here) = some routes ∧
      Table spaces source seen routes ∧
      ∀ space, space ∈ seen ↔ ∃ path, Path spaces source path space := by
  rcases Layered.layers_rule (visitEdge_accepts sound) (targets_live sound.mirrored)
    (mem_nodes_iff.mpr inGraph) table_start with ⟨routes, seen, searched, table, reached⟩
  refine ⟨routes, seen, ?_, table, ?_⟩
  · rw [breadthFirstSearch, if_pos inGraph]
    exact searched
  intro space
  rw [reached]
  constructor
  · rintro ⟨length, walk⟩
    rcases (path_iff_walk sound).mp walk with ⟨path, isPath, _⟩
    exact ⟨path, isPath⟩
  · rintro ⟨path, isPath⟩
    exact ⟨path.length, (path_iff_walk sound).mpr ⟨path, isPath, rfl⟩⟩

/-- A route is found when there is a path, and it follows a shortest one. -/
theorem findRoute_spec (sourceIn : spaces.graph.containsNode source = true)
    (destinationIn : spaces.graph.containsNode destination = true) :
    (spaces.findRoute source destination =
        some (.error ⟨.routeUnavailable, "no coordinate transform route is available"⟩) ∧
      ¬∃ path, Path spaces source path destination) ∨
    ∃ path route, spaces.findRoute source destination = some (.ok route) ∧
      Shortest spaces source path destination ∧ Follows spaces path route := by
  rcases breadthFirstSearch_table sound sourceIn with ⟨routes, seen, searched, table, reached⟩
  have both : (spaces.graph.containsNode source &&
      spaces.graph.containsNode destination) = true := by
    rw [sourceIn, destinationIn]
    rfl
  simp only [SpaceGraph.findRoute, if_pos both, searched, Option.map_some]
  cases found : routes[destination]? with
  | none =>
    refine .inl ⟨rfl, ?_⟩
    intro path
    have known := (table.known destination).mpr ((reached destination).mpr path)
    rw [ExtTreeMap.contains_eq_isSome_getElem?, found] at known
    cases known
  | some route =>
    rcases table.follows destination route found with ⟨path, isPath, isAt, follows⟩
    refine .inr ⟨path, route, rfl, ⟨isPath, ?_⟩, follows⟩
    intro other otherPath
    by_contra shorter
    exact isAt.2 other.length (by omega) ((path_iff_walk sound).mpr ⟨other, otherPath, rfl⟩)

end Table

end Grab.Spaces
