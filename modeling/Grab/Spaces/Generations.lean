import Grab.Spaces.CoordinateAuthority

/-!
# Coordinate generations never mix

Space numbers are issued in order, so a new one is unused until the count reaches
the size of a word.  `Kept` is what every rebuild keeps: the outputs of the last
rebuild have edges as new as both ends, and the edges of all earlier outputs are
older than the global space.
-/

namespace Grab.Spaces

open Std Grab.Graph AdjacencyGraph List

variable {α : Type}

/-! ## Numbers -/

/-- The registered spaces are the numbers from one on, as many as there are nodes. -/
structure Issued (graph : SpaceGraph α) : Prop where
  next : graph.nextSpace = 1 + UInt32.ofNat graph.graph.nodeCount
  numbers : ∀ space : CoordinateSpaceId, graph.graph.containsNode space = true ↔
    (space.value - 1).toNat < graph.graph.nodeCount

section Numbers

variable {graph next : SpaceGraph α} {space : CoordinateSpaceId} {generation : UInt32}
  {transform : TransformRecord α}

theorem nodeCount_empty : ({} : SpaceGraph α).graph.nodeCount = 0 := by
  simp [nodeCount]

theorem unused_empty (space : CoordinateSpaceId) :
    ({} : SpaceGraph α).graph.containsNode space = false := by
  simp [containsNode]

theorem issued_empty : Issued ({} : SpaceGraph α) where
  next := rfl
  numbers space := by simp [containsNode, nodeCount]

theorem Issued.unused (issued : Issued graph) (room : graph.graph.nodeCount < UInt32.size) :
    graph.graph.containsNode ⟨graph.nextSpace⟩ = false := by
  rw [← Bool.not_eq_true, issued.numbers, issued.next]
  have number : (1 + UInt32.ofNat graph.graph.nodeCount - 1).toNat = graph.graph.nodeCount := by
    rw [UInt32.add_comm, UInt32.add_sub_cancel, UInt32.toNat_ofNat_of_lt' room]
  rw [number]
  exact Nat.lt_irrefl _

theorem addNode_unused (unused : graph.graph.containsNode space = false) :
    ∃ grown, graph.graph.addNode space = some grown := by
  unfold containsNode at unused
  unfold addNode
  rw [if_neg (by simp [unused])]
  exact ⟨_, rfl⟩

theorem nodeCount_addSpace (unused : graph.graph.containsNode ⟨graph.nextSpace⟩ = false) :
    (graph.addSpace generation).2.graph.nodeCount = graph.graph.nodeCount + 1 := by
  rcases addNode_unused unused with ⟨grown, added⟩
  dsimp only [SpaceGraph.addSpace]
  rw [added]
  exact nodeCount_addNode added

theorem nodeCount_addTransform :
    (graph.addTransform transform).graph.nodeCount = graph.graph.nodeCount := by
  dsimp only [SpaceGraph.addTransform]
  cases added : graph.graph.addEdge transform.source transform.destination transform with
  | none => rfl
  | some grown => exact nodeCount_addEdge added

theorem Issued.addSpace (issued : Issued graph) (room : graph.graph.nodeCount < UInt32.size) :
    Issued (graph.addSpace generation).2 := by
  have count : (graph.addSpace generation).2.graph.nodeCount = graph.graph.nodeCount + 1 :=
    nodeCount_addSpace (issued.unused room)
  constructor
  case next =>
    rw [count]
    change graph.nextSpace + 1 = _
    rw [issued.next, UInt32.ofNat_add, UInt32.add_assoc]
    rfl
  case numbers =>
    intro space
    rw [contains_addSpace, count, issued.numbers, Nat.lt_succ_iff_lt_or_eq, or_comm]
    apply or_congr_right
    rw [issued.next]
    constructor
    · rintro rfl
      rw [UInt32.add_comm, UInt32.add_sub_cancel, UInt32.toNat_ofNat_of_lt' room]
    intro same
    have value : space.value - 1 = UInt32.ofNat graph.graph.nodeCount := by
      rw [← same, UInt32.ofNat_toNat]
    rw [← value, UInt32.add_comm, UInt32.sub_add_cancel]

theorem Issued.addTransform (issued : Issued graph) : Issued (graph.addTransform transform) where
  next := by
    rw [nodeCount_addTransform]
    exact issued.next
  numbers space := by
    rw [nodeCount_addTransform, contains_addTransform]
    exact issued.numbers space

end Numbers

/-! ## Edges and generations -/

section Edges

variable [CommRing α] {graph next : SpaceGraph α} {globalSpace : CoordinateSpaceId}
  {generation later : UInt32} {outputs retired : List (OutputSpace α)}
  {output : OutputSpace α} {building : Building α}

/-- An output with an edge to the global space by its origin, as new as both. -/
def Placed (graph : SpaceGraph α) (globalSpace : CoordinateSpaceId) (generation : UInt32)
    (output : OutputSpace α) : Prop :=
  ∃ transform, graph.graph.edgePayload output.space globalSpace = some transform ∧
    transform.map = Affine.translation (output.bounds.x : α) (output.bounds.y : α) ∧
    transform.generation = generation ∧ graph.generations[output.space]? = some generation

omit [CommRing α] in
/-- An output with an edge that is older than the global space. -/
def Left (graph : SpaceGraph α) (globalSpace : CoordinateSpaceId) (generation : UInt32)
    (output : OutputSpace α) : Prop :=
  ∃ transform, graph.graph.edgePayload output.space globalSpace = some transform ∧
    transform.generation < generation

/-- What is true of the graph between two outputs of a rebuild. -/
structure Kept (graph : SpaceGraph α) (globalSpace : CoordinateSpaceId) (generation : UInt32)
    (outputs retired : List (OutputSpace α)) : Prop where
  reachable : Reachable graph
  issued : Issued graph
  current : graph.generations[globalSpace]? = some generation
  placed : ∀ output ∈ outputs, Placed graph globalSpace generation output
  left : ∀ output ∈ retired, Left graph globalSpace generation output

omit [CommRing α] in
/-- An edge leads from one space to another. -/
theorem edge_ends {source destination : CoordinateSpaceId} {transform : TransformRecord α}
    (reachable : Reachable graph)
    (stored : graph.graph.edgePayload source destination = some transform) :
    source ≠ destination ∧ transform.source = source ∧ transform.destination = destination := by
  have sound := reachable.sound
  have member := (edgePayload_eq_some_iff sound.mirrored).mp stored
  refine ⟨?_, sound.own _ _ _ stored⟩
  rintro rfl
  exact sound.mirrored.noLoop _ _ member

variable (kept : Kept graph globalSpace generation outputs retired)

include kept

theorem Kept.resolve_placed (member : output ∈ outputs) :
    graph.resolveTransform output.space globalSpace =
      some (.ok (Affine.translation (output.bounds.x : α) (output.bounds.y : α))) := by
  rcases kept.placed output member with ⟨transform, stored, isMap, isCurrent, known⟩
  rcases edge_ends kept.reachable stored with ⟨distinct, isSource, isDestination⟩
  rw [← isMap]
  apply (resolve_edge kept.reachable.sound distinct stored).2
  rintro ⟨other, atEnd, older⟩
  rw [isSource, isDestination, known, kept.current, or_self, Option.some.injEq] at atEnd
  rw [← atEnd, isCurrent] at older
  exact UInt32.lt_irrefl _ older

theorem Kept.resolve_left (member : output ∈ retired) :
    graph.resolveTransform output.space globalSpace = some (.error changed) := by
  rcases kept.left output member with ⟨transform, stored, older⟩
  rcases edge_ends kept.reachable stored with ⟨distinct, _, isDestination⟩
  apply (resolve_edge kept.reachable.sound distinct stored).1
  refine ⟨generation, .inr ?_, older⟩
  rw [isDestination]
  exact kept.current

/-! ## One output -/

omit kept

omit [CommRing α] in
/-- A new space changes the generation of no other one. -/
theorem generations_addSpace (unused : graph.graph.containsNode ⟨graph.nextSpace⟩ = false)
    {space : CoordinateSpaceId} (known : graph.generations[space]? = some generation)
    (reachable : Reachable graph) :
    (graph.addSpace later).2.generations[space]? = some generation := by
  change (graph.generations.insertIfNew ⟨graph.nextSpace⟩ later)[space]? = _
  rw [getElem?_insertIfNew_generations, if_neg, known]
  rintro ⟨rfl, _⟩
  have inGraph := (reachable.sound.registered _).mpr ⟨generation, known⟩
  rw [unused] at inGraph
  cases inGraph

omit [CommRing α] in
/-- The new space has the generation it is made with. -/
theorem generations_new (unused : graph.graph.containsNode ⟨graph.nextSpace⟩ = false)
    (reachable : Reachable graph) :
    (graph.addSpace generation).2.generations[(⟨graph.nextSpace⟩ : CoordinateSpaceId)]? =
      some generation := by
  change (graph.generations.insertIfNew ⟨graph.nextSpace⟩ generation)[_]? = _
  rw [getElem?_insertIfNew_generations, if_pos]
  refine ⟨rfl, ?_⟩
  intro old
  have known := Option.isSome_iff_exists.mp (ExtTreeMap.mem_iff_isSome_getElem?.mp old)
  have inGraph := (reachable.sound.registered _).mpr known
  rw [unused] at inGraph
  cases inGraph

/-- One more output keeps the others and is placed itself. -/
theorem Kept.addOutput (kept : Kept building.graph globalSpace generation building.outputs retired)
    (room : building.graph.graph.nodeCount < UInt32.size) (info : OutputInfo) :
    Kept (addOutput globalSpace generation building info).graph globalSpace generation
        (addOutput globalSpace generation building info).outputs retired ∧
      (addOutput globalSpace generation building info).graph.graph.nodeCount =
        building.graph.graph.nodeCount + 1 := by
  have unused := kept.issued.unused room
  have sound := kept.reachable.sound
  have globalIn := (sound.registered globalSpace).mpr ⟨generation, kept.current⟩
  have distinct : (⟨building.graph.nextSpace⟩ : CoordinateSpaceId) ≠ globalSpace := by
    rintro rfl
    rw [unused] at globalIn
    cases globalIn
  have edges := fun transform : TransformRecord α =>
    @edgePayload_addTransform α (building.graph.addSpace generation).2 transform
      (mirrored_addSpace sound.mirrored)
  -- What was stored stays stored.
  have stays : ∀ transform {source target : CoordinateSpaceId} {stored : TransformRecord α},
      building.graph.graph.edgePayload source target = some stored →
      ((building.graph.addSpace generation).2.addTransform transform).graph.edgePayload
        source target = some stored := by
    intro transform source target stored isStored
    apply (edges transform source target stored).mpr
    rw [edgePayload_addSpace sound.mirrored]
    exact .inl isStored
  have absent : building.graph.graph.edgePayload ⟨building.graph.nextSpace⟩ globalSpace =
      none := by
    by_contra present
    rcases Option.ne_none_iff_exists'.mp present with ⟨transform, stored⟩
    have live := sound.mirrored.live _ _ _ ((edgePayload_eq_some_iff sound.mirrored).mp stored)
    rw [unused] at live
    cases live.1
  constructor
  · constructor
    case reachable => exact (kept.reachable.addSpace generation).addTransform _
    case issued => exact (kept.issued.addSpace room).addTransform
    case current => exact generations_addSpace unused kept.current kept.reachable
    case placed =>
      intro output member
      rcases mem_append.mp member with old | new
      · rcases kept.placed output old with ⟨transform, stored, isMap, isCurrent, known⟩
        exact ⟨transform, stays _ stored, isMap, isCurrent,
          generations_addSpace unused known kept.reachable⟩
      rw [mem_singleton] at new
      subst new
      refine ⟨_, (edges _ _ _ _).mpr (.inr ⟨rfl, rfl, rfl, distinct, ?_, ?_, ?_⟩), rfl, rfl,
        generations_new unused kept.reachable⟩
      · exact (contains_addSpace _).mpr (.inl rfl)
      · exact (contains_addSpace _).mpr (.inr globalIn)
      · exact (edgePayload_addSpace sound.mirrored _ _).trans absent
    case left =>
      intro output member
      rcases kept.left output member with ⟨transform, stored, older⟩
      exact ⟨transform, stays _ stored, older⟩
  · exact nodeCount_addTransform.trans (nodeCount_addSpace unused)

/-- The names and bounds of outputs. -/
def described (outputs : List (OutputSpace α)) : List OutputInfo :=
  outputs.map fun output => ⟨output.name, output.bounds⟩

theorem Kept.addOutputs (kept : Kept building.graph globalSpace generation building.outputs retired)
    {infos : List OutputInfo} (room : building.graph.graph.nodeCount + infos.length ≤ UInt32.size) :
    Kept (infos.foldl (Spaces.addOutput globalSpace generation) building).graph globalSpace
        generation (infos.foldl (Spaces.addOutput globalSpace generation) building).outputs
        retired ∧
      described (infos.foldl (Spaces.addOutput globalSpace generation) building).outputs =
        described building.outputs ++ infos := by
  induction infos generalizing building with
  | nil =>
    rw [append_nil]
    exact ⟨kept, rfl⟩
  | cons info rest ih =>
    rw [length_cons] at room
    rcases kept.addOutput (by omega) info with ⟨added, count⟩
    rcases ih added (by rw [count]; omega) with ⟨built, names⟩
    refine ⟨built, ?_⟩
    rw [foldl_cons, names, described, Spaces.addOutput, map_append, append_assoc]
    rfl

end Edges

/-! ## The next generation -/

section Rebuild

variable {graph next : SpaceGraph α} {space globalSpace : CoordinateSpaceId}
  {generation : UInt32} {outputs retired : List (OutputSpace α)}

theorem bumpGeneration_of_contains (reachable : Reachable graph)
    (inGraph : graph.graph.containsNode space = true) :
    ∃ next, graph.bumpGeneration space = some next := by
  rcases (reachable.sound.registered space).mp inGraph with ⟨generation, known⟩
  rw [SpaceGraph.bumpGeneration, known]
  exact ⟨_, rfl⟩

/-- Bumping registered spaces other than the global one. -/
theorem bumpOutputs (reachable : Reachable graph)
    (inGraph : ∀ output ∈ outputs, graph.graph.containsNode output.space = true) :
    ∃ next, outputs.foldlM (fun graph output => graph.bumpGeneration output.space) graph =
        some next ∧
      Reachable next ∧ next.graph = graph.graph ∧ next.nextSpace = graph.nextSpace ∧
      ((∀ output ∈ outputs, output.space ≠ space) →
        next.generations[space]? = graph.generations[space]?) := by
  induction outputs generalizing graph with
  | nil => exact ⟨graph, rfl, reachable, rfl, rfl, fun _ => rfl⟩
  | cons output rest ih =>
    rcases bumpGeneration_of_contains reachable (inGraph output mem_cons_self) with
      ⟨middle, bumped⟩
    rcases bumpGeneration_eq_some bumped with ⟨generation, _, middleEq⟩
    have sameGraph : middle.graph = graph.graph := by rw [middleEq]
    have restIn : ∀ other ∈ rest, middle.graph.containsNode other.space = true := by
      intro other member
      rw [sameGraph]
      exact inGraph other (mem_cons_of_mem _ member)
    rcases ih (reachable.bumpGeneration bumped) restIn with
      ⟨next, folded, nextReachable, nextGraph, nextSpace, untouched⟩
    refine ⟨next, ?_, nextReachable, nextGraph.trans sameGraph, ?_, ?_⟩
    · rw [foldlM_cons, bumped]
      exact folded
    · rw [nextSpace, middleEq]
    · intro apart
      rw [untouched fun other member => apart other (mem_cons_of_mem _ member), middleEq,
        getElem?_insert_generations, if_neg (apart output mem_cons_self)]

theorem lt_succ_of_room (room : generation.toNat ≠ UInt32.size - 1) :
    generation < generation + 1 := by
  have bounded : generation.toNat < UInt32.size := generation.toNat_lt_size
  rw [UInt32.lt_iff_toNat_lt, UInt32.toNat_add, UInt32.toNat_one]
  rw [Nat.mod_eq_of_lt (by simp only [UInt32.size] at room bounded; omega)]
  exact Nat.lt_succ_self _

variable [CommRing α] {history : History α} {authority : CoordinateAuthority α}

/-- An authority that was never refreshed, or the state a rebuild leaves. -/
def Standing (history : History α) : Prop :=
  history = {} ∨ ∃ graph, history.authority.graph = some graph ∧
    Kept graph history.authority.globalSpace history.authority.generation
      history.authority.outputs history.retired

/-- Once the global space has moved on, every earlier output is left behind. -/
theorem Kept.bumped {globalSpace : CoordinateSpaceId}
    (kept : Kept graph globalSpace generation outputs retired)
    (room : generation.toNat ≠ UInt32.size - 1) :
    ∃ next, (do
        let bumped ← graph.bumpGeneration globalSpace
        outputs.foldlM (fun graph output => graph.bumpGeneration output.space) bumped) = some next ∧
      Kept next globalSpace (generation + 1) [] (retired ++ outputs) ∧
      next.graph = graph.graph := by
  have globalIn := (kept.reachable.sound.registered globalSpace).mpr ⟨generation, kept.current⟩
  have ends : ∀ output ∈ outputs, output.space ≠ globalSpace ∧
      graph.graph.containsNode output.space = true := by
    intro output member
    rcases kept.placed output member with ⟨transform, stored, _⟩
    refine ⟨(edge_ends kept.reachable stored).1, ?_⟩
    exact (kept.reachable.sound.mirrored.live _ _ _
      ((edgePayload_eq_some_iff kept.reachable.sound.mirrored).mp stored)).1
  rcases bumpGeneration_of_contains kept.reachable globalIn with ⟨middle, bumped⟩
  rcases bumpGeneration_eq_some bumped with ⟨old, known, middleEq⟩
  rw [kept.current, Option.some.injEq] at known
  subst known
  have sameGraph : middle.graph = graph.graph := by rw [middleEq]
  rcases @bumpOutputs α middle globalSpace outputs (kept.reachable.bumpGeneration bumped)
    (fun output member => by rw [sameGraph]; exact (ends output member).2) with
    ⟨next, folded, nextReachable, nextGraph, nextSpace, untouched⟩
  have nextEq : next.graph = graph.graph := nextGraph.trans sameGraph
  have later := lt_succ_of_room room
  refine ⟨next, ?_, ?_, nextEq⟩
  · rw [bumped]
    exact folded
  constructor
  case reachable => exact nextReachable
  case issued =>
    constructor
    · rw [nextSpace, nextEq, middleEq]
      exact kept.issued.next
    · rw [nextEq]
      exact kept.issued.numbers
  case current =>
    rw [untouched fun output member => (ends output member).1, middleEq,
      getElem?_insert_generations, if_pos rfl]
  case placed => exact forall_mem_nil _
  case left =>
    intro output member
    rcases mem_append.mp member with wasLeft | wasPlaced
    · rcases kept.left output wasLeft with ⟨transform, stored, older⟩
      exact ⟨transform, nextEq ▸ stored, UInt32.lt_trans older later⟩
    · rcases kept.placed output wasPlaced with ⟨transform, stored, _, isCurrent, _⟩
      exact ⟨transform, nextEq ▸ stored, isCurrent ▸ later⟩

theorem kept_first : Kept (({} : SpaceGraph α).addSpace generation).2 ⟨1⟩ generation [] [] where
  reachable := .addSpace .empty generation
  issued := issued_empty.addSpace (by rw [nodeCount_empty]; decide)
  current := generations_new (unused_empty _) .empty
  placed output member := absurd member not_mem_nil
  left output member := absurd member not_mem_nil

/-- What the outputs are added to. -/
theorem nextGraph_kept (standing : Standing history)
    (room : history.authority.generation.toNat ≠ UInt32.size - 1) :
    ∃ start, nextGraph history.authority (history.authority.generation + 1) = some start ∧
      Kept start.1 start.2 (history.authority.generation + 1) []
        (history.retired ++ history.authority.outputs) ∧
      start.1.graph.nodeCount = spaceCount history.authority := by
  rcases standing with rfl | ⟨graph, isGraph, kept⟩
  · refine ⟨_, rfl, kept_first, ?_⟩
    rw [nodeCount_addSpace (unused_empty _), nodeCount_empty]
    rfl
  rcases kept.bumped room with ⟨next, bumped, nextKept, same⟩
  refine ⟨(next, history.authority.globalSpace), ?_, nextKept, ?_⟩
  · simp only [nextGraph, isGraph]
    rw [Option.bind_eq_bind, Option.bind_eq_some_iff] at bumped ⊢
    rcases bumped with ⟨middle, first, rest⟩
    refine ⟨middle, first, ?_⟩
    rw [rest]
    rfl
  · rw [spaceCount, isGraph, same]

/-- A rebuild with enough numbers. -/
theorem rebuild_kept (standing : Standing history)
    (room : history.authority.generation.toNat ≠ UInt32.size - 1) {infos : List OutputInfo}
    (fits : spaceCount history.authority + infos.length ≤ UInt32.size) :
    ∃ next graph, rebuild history.authority infos = some next ∧ next.graph = some graph ∧
      Kept graph next.globalSpace next.generation next.outputs
        (history.retired ++ history.authority.outputs) ∧
      next.generation = history.authority.generation + 1 ∧ described next.outputs = infos := by
  rcases nextGraph_kept standing room with ⟨start, isStart, kept, count⟩
  rcases @Kept.addOutputs α _ start.2 _ _ { graph := start.1 } kept infos
    (by rw [count]; exact fits) with ⟨built, names⟩
  have rebuilt : ∃ next, rebuild history.authority infos = some next := by
    rw [rebuild, isStart]
    exact ⟨_, rfl⟩
  rcases rebuilt with ⟨next, rebuilt⟩
  have nextEq := rebuilt
  rw [rebuild, isStart, Option.map_some, Option.some.injEq] at nextEq
  subst nextEq
  exact ⟨_, _, rebuilt, rfl, built, rfl, names.trans (nil_append infos)⟩

theorem sameBounds_self (bounds : Rectangle) : sameBounds bounds bounds = true := by
  simp [sameBounds]

omit [CommRing α] in
theorem topologyMatches_described (authority : CoordinateAuthority α) :
    topologyMatches authority (described authority.outputs) = true := by
  have zipped : (described authority.outputs).zip authority.outputs =
      authority.outputs.map fun output => (⟨output.name, output.bounds⟩, output) := by
    rw [described, zip_map_left, zip_eq_zipWith, zipWith_self, map_map]
    rfl
  rw [topologyMatches, if_neg (by simp [described]), zipped, all_map]
  simp [sameBounds_self]

/-- The three ways a call ends. -/
theorem call_cases (standing : Standing history) {call : Call}
    (fits : Fits history.authority call) :
    (∃ error, call.run history.authority = some (.error error, history.authority)) ∨
    (call.run history.authority = some (.ok (), history.authority) ∧
      history.authority.graph.isSome = true) ∨
    ∃ next graph infos, call.run history.authority = some (.ok (), next) ∧
      call.listed = .ok infos ∧ changes history.authority infos call.force = true ∧
      next.graph = some graph ∧
      Kept graph next.globalSpace next.generation next.outputs
        (history.retired ++ history.authority.outputs) ∧
      next.generation ≠ history.authority.generation ∧ described next.outputs = infos := by
  cases listed : call.listed with
  | error error =>
    refine .inl ⟨error, ?_⟩
    rw [Call.run, listed]
  | ok infos =>
    simp only [Call.run, listed, refreshWith]
    by_cases change : changes history.authority infos call.force = true
    · rw [if_pos change]
      by_cases full : history.authority.generation.toNat = UInt32.size - 1
      · rw [if_pos full]
        exact .inl ⟨overflow, rfl⟩
      rcases rebuild_kept standing full (fits infos listed change) with
        ⟨next, graph, rebuilt, isGraph, kept, generation, names⟩
      rw [if_neg full, rebuilt]
      refine .inr (.inr ⟨next, graph, infos, rfl, rfl, change, isGraph, kept, ?_, names⟩)
      rw [generation]
      exact (UInt32.ne_of_lt (lt_succ_of_room full)).symm
    · rw [if_neg change]
      refine .inr (.inl ⟨rfl, ?_⟩)
      simp only [changes, Bool.not_eq_true', Bool.not_eq_false] at change
      simp only [Bool.and_eq_true] at change
      exact change.1.2

omit [CommRing α] in
theorem History.next_same : history.next history.authority = history := by
  rw [History.next, if_pos rfl]

omit [CommRing α] in
theorem History.next_rebuilt {next : CoordinateAuthority α}
    (moved : next.generation ≠ history.authority.generation) :
    history.next next = ⟨next, history.retired ++ history.authority.outputs⟩ := by
  rw [History.next, if_neg moved]

theorem Run.standing (run : Run Fits history) : Standing history := by
  induction run with
  | start => exact .inl rfl
  | @call history result next earlier call meets ran ih =>
    rcases call_cases ih meets with ⟨error, failed⟩ | ⟨nothing, _⟩ |
      ⟨other, graph, infos, rebuilt, _, _, isGraph, kept, moved, _⟩
    · rw [ran] at failed
      cases failed
      rw [History.next_same]
      exact ih
    · rw [ran] at nothing
      cases nothing
      rw [History.next_same]
      exact ih
    rw [ran] at rebuilt
    cases rebuilt
    rw [History.next_rebuilt moved]
    exact .inr ⟨graph, isGraph, kept⟩

theorem apart_of_kept (isGraph : history.authority.graph = some graph)
    (kept : Kept graph history.authority.globalSpace history.authority.generation
      history.authority.outputs history.retired) : Apart history graph where
  kept := isGraph
  placed _ member := kept.resolve_placed member
  refused _ member := kept.resolve_left member
  generation := kept.current

/-- A call returns; a success leaves the generations apart, with the listed outputs after a
rebuild; an error, or an unforced call with the same outputs, changes nothing. -/
def CallKeepsApart (history : History α) (call : Call) : Prop :=
  ∃ result next, call.run history.authority = some (result, next) ∧
    (result = .ok () → ∃ graph, Apart (history.next next) graph) ∧
    (∀ error, result = .error error → next = history.authority) ∧
    (next.generation ≠ history.authority.generation → call.listed = .ok (described next.outputs)) ∧
    (call.force = false → history.authority.graph.isSome = true →
      call.listed = .ok (described history.authority.outputs) →
        result = .ok () ∧ next = history.authority)

/-- Two outputs side by side, refreshed by force. -/
def forced : Call := ⟨.ok [⟨"DP-1", ⟨0, 0, 1920, 1080⟩⟩, ⟨"DP-2", ⟨1920, 0, 1920, 1080⟩⟩], true⟩

/-- What a rebuild needs to return. -/
structure Alive (authority : CoordinateAuthority α) (graph : SpaceGraph α) : Prop where
  isGraph : authority.graph = some graph
  reachable : Reachable graph
  globalIn : graph.graph.containsNode authority.globalSpace = true
  outputsIn : ∀ output ∈ authority.outputs, graph.graph.containsNode output.space = true

theorem containsNode_addOutput {building : Building α} {info : OutputInfo}
    (inGraph : building.graph.graph.containsNode space = true) :
    (addOutput globalSpace generation building info).graph.graph.containsNode space = true :=
  (contains_addTransform _).mpr ((contains_addSpace _).mpr (.inr inGraph))

omit [CommRing α] in
theorem Alive.nextGraph (alive : Alive authority graph) (generation : UInt32) :
    ∃ start, Spaces.nextGraph authority generation = some (start, authority.globalSpace) ∧
      Reachable start ∧ start.graph.containsNode authority.globalSpace = true ∧
      start.nextSpace = graph.nextSpace := by
  rcases bumpGeneration_of_contains alive.reachable alive.globalIn with ⟨middle, bumped⟩
  rcases bumpGeneration_eq_some bumped with ⟨old, _, middleEq⟩
  have sameGraph : middle.graph = graph.graph := by rw [middleEq]
  rcases @bumpOutputs α middle authority.globalSpace authority.outputs
    (alive.reachable.bumpGeneration bumped)
    (fun output member => by rw [sameGraph]; exact alive.outputsIn output member) with
    ⟨start, folded, reachable, startGraph, startSpace, _⟩
  refine ⟨start, ?_, reachable, ?_, ?_⟩
  · simp only [Spaces.nextGraph, alive.isGraph, Option.bind_eq_bind, bumped, Option.bind_some,
      folded]
  · rw [startGraph, sameGraph]
    exact alive.globalIn
  · rw [startSpace, middleEq]

/-- A forced refresh with two outputs gives them the next two numbers. -/
theorem forced_run {start : SpaceGraph α}
    (startEq : nextGraph authority (authority.generation + 1) = some (start, globalSpace))
    (reachable : Reachable start) (globalIn : start.graph.containsNode globalSpace = true)
    (room : authority.generation.toNat ≠ UInt32.size - 1) :
    ∃ next grown, forced.run authority = some (.ok (), next) ∧ Alive next grown ∧
      next.globalSpace = globalSpace ∧
      next.generation = authority.generation + 1 ∧ grown.nextSpace = start.nextSpace + 2 ∧
      ∃ output ∈ next.outputs, output.space = ⟨start.nextSpace + 1⟩ ∧ output.bounds.x = 1920 ∧
        output.bounds.y = 0 := by
  let first : Building α := addOutput globalSpace (authority.generation + 1)
    { graph := start } ⟨"DP-1", ⟨0, 0, 1920, 1080⟩⟩
  let built : Building α := addOutput globalSpace (authority.generation + 1) first
    ⟨"DP-2", ⟨1920, 0, 1920, 1080⟩⟩
  have newIn : ∀ {building : Building α} {info : OutputInfo},
      (addOutput globalSpace (authority.generation + 1) building
        info).graph.graph.containsNode ⟨building.graph.nextSpace⟩ = true :=
    (contains_addTransform _).mpr ((contains_addSpace _).mpr (.inl rfl))
  refine ⟨⟨some built.graph, globalSpace, authority.generation + 1, built.outputs,
    built.transforms⟩, built.graph, ?_, ?_, rfl, rfl, ?_, ?_⟩
  · simp only [forced, Call.run, refreshWith, changes, Bool.not_true, Bool.false_and,
      Bool.not_false, if_true, if_neg room, rebuild, startEq, Option.map_some]
    rfl
  · constructor
    case isGraph => rfl
    case reachable => exact (((reachable.addSpace _).addTransform _).addSpace _).addTransform _
    case globalIn => exact containsNode_addOutput (containsNode_addOutput globalIn)
    case outputsIn =>
      intro output member
      rcases mem_append.mp member with wasFirst | isLast
      · rcases mem_singleton.mp wasFirst with rfl
        exact containsNode_addOutput newIn
      · rcases mem_singleton.mp isLast with rfl
        exact newIn
  · change start.nextSpace + 1 + 1 = _
    rw [UInt32.add_assoc]
    rfl
  · exact ⟨_, mem_append_right _ mem_cons_self, rfl, rfl, rfl⟩

/-- A space resolves to itself by the identity. -/
theorem resolve_self (reachable : Reachable graph)
    (inGraph : graph.graph.containsNode space = true) :
    graph.resolveTransform space space = some (.ok Affine.identity) := by
  rcases findRoute_spec reachable.sound inGraph inGraph with
    ⟨_, noPath⟩ | ⟨path, route, found, ⟨_, shortest⟩, follows⟩
  · exact absurd ⟨[], rfl⟩ noPath
  obtain rfl : path = [] := eq_nil_of_length_eq_zero (Nat.le_zero.mp (shortest [] rfl))
  have notStale : route.stale = false := by
    rw [← Bool.not_eq_true, follows.stale]
    simp
  simp [SpaceGraph.resolveTransform, found, refuseStale, notStale, follows.transform, Except.map]

/-- After some forced refreshes with two outputs each. -/
theorem forced_runs (count : Nat) (room : count + 1 < UInt32.size) :
    ∃ (history : History α) (graph : SpaceGraph α),
      Run (fun _ call => call = forced) history ∧ Alive history.authority graph ∧
      history.authority.globalSpace = ⟨1⟩ ∧
      history.authority.generation = UInt32.ofNat (count + 1) ∧
      graph.nextSpace = 2 + UInt32.ofNat (2 * (count + 1)) := by
  induction count with
  | zero =>
    have free : (0 : UInt32).toNat ≠ UInt32.size - 1 := by decide
    rcases @forced_run α ⟨1⟩ _ {} (({} : SpaceGraph α).addSpace 1).2 rfl (.addSpace .empty 1)
      ((contains_addSpace _).mpr (.inl rfl)) free with
      ⟨next, grown, ran, alive, isGlobal, generation, nextSpace, _⟩
    exact ⟨_, grown, .call .start forced rfl ran, alive, isGlobal, generation, nextSpace⟩
  | succ count ih =>
    rcases ih (by omega) with ⟨history, graph, run, alive, isGlobal, generation, nextSpace⟩
    rcases alive.nextGraph (history.authority.generation + 1) with
      ⟨start, startEq, reachable, globalIn, startSpace⟩
    have free : history.authority.generation.toNat ≠ UInt32.size - 1 := by
      rw [generation, UInt32.toNat_ofNat_of_lt' (by omega)]
      omega
    rcases forced_run startEq reachable globalIn free with
      ⟨next, grown, ran, nextAlive, sameGlobal, moved, grownSpace, _⟩
    refine ⟨_, grown, .call run forced rfl ran, nextAlive, sameGlobal.trans isGlobal, ?_, ?_⟩
    · change next.generation = _
      rw [moved, generation, UInt32.ofNat_add (count + 1) 1]
      rfl
    · rw [grownSpace, startSpace, nextSpace, UInt32.add_assoc, Nat.mul_succ 2 (count + 1),
        UInt32.ofNat_add (2 * (count + 1)) 2]
      rfl

end Rebuild

end Grab.Spaces
