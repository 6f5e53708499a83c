import Grab.Graph.Topological
import Grab.Lib.Rows
import Grab.Lib.Search
import Grab.Sequence.Command

/-!
# Building a sequence

`Sequence.build` assigns positional identity, indexes the labels, turns the
declared dependencies into a graph and rejects what cannot be linearized.  A
sequence is immutable afterwards: everything a run changes lives in the player.

`Built` collects what holds of every sequence the builder accepts.  In
particular the ancestors computed by the breadth-first walk over incoming edges
are exactly the steps a dependency chain comes from.
-/

namespace Grab.Kernel

open Grab.Sequence Grab.Graph Grab.Lib List
open Std (ExtTreeMap)

/-- A dependency edge carries no payload. -/
abbrev DependencyGraph := AdjacencyGraph StepId Unit

structure Sequence where
  steps : List Step
  graph : DependencyGraph
  order : List StepId
  labels : ExtTreeMap String StepId compare
  pacing : PacingOptions
  name : String

namespace Sequence

/-! ## The builder -/

/-- Identity is positional. -/
def assignIds (steps : List Step) : List Step :=
  steps.mapIdx fun position step =>
    { step with id := StepId.make position StepId.firstGeneration }

/-- The label index; an empty label names nothing. -/
def indexLabels : List Step → ExtTreeMap String StepId compare →
    Except Error (ExtTreeMap String StepId compare)
  | [], labels => .ok labels
  | step :: rest, labels =>
    if step.label = "" then
      indexLabels rest labels
    else if labels.contains step.label then
      .error ⟨.invalidArgument, "duplicate step label '" ++ step.label ++ "'"⟩
    else
      indexLabels rest (labels.insert step.label step.id)

def addNodes (steps : List Step) (graph : DependencyGraph) : DependencyGraph :=
  steps.foldl (fun graph step => (graph.addNode step.id).getD graph) graph

/-- One declared dependency.  Every refusal of the graph is a rejection of the
document. -/
def addDependency (step : Step) (graph : DependencyGraph) (predecessor : StepId) :
    Except Error DependencyGraph :=
  if graph.containsNode predecessor = false then
    .error ⟨.invalidArgument, "step " ++ stepName step ++ " depends on step index " ++
      toString predecessor.index ++ ", which does not exist"⟩
  else if predecessor = step.id then
    .error ⟨.invalidArgument, "step " ++ stepName step ++ " depends on itself"⟩
  else
    match graph.addEdge predecessor step.id () with
    | none =>
      .error ⟨.invalidArgument, "step " ++ stepName step ++ " lists step index " ++
        toString predecessor.index ++ " as a dependency twice"⟩
    | some grown => .ok grown

def addDependencies (step : Step) : List StepId → DependencyGraph → Except Error DependencyGraph
  | [], graph => .ok graph
  | predecessor :: rest, graph =>
    match addDependency step graph predecessor with
    | .error error => .error error
    | .ok grown => addDependencies step rest grown

def addEdges : List Step → DependencyGraph → Except Error DependencyGraph
  | [], graph => .ok graph
  | step :: rest, graph =>
    match addDependencies step step.after graph with
    | .error error => .error error
    | .ok grown => addEdges rest grown

def build (steps : List Step) (pacing : PacingOptions) (name : String) : Except Error Sequence :=
  if maxSteps < steps.length then
    .error ⟨.invalidArgument, "sequence has " ++ toString steps.length ++
      " steps; the maximum is " ++ toString maxSteps⟩
  else
    let steps := assignIds steps
    match indexLabels steps ∅ with
    | .error error => .error error
    | .ok labels =>
      match addEdges steps (addNodes steps {}) with
      | .error error => .error error
      | .ok graph =>
        match topologicalOrder graph with
        | none => .error ⟨.invalidArgument, "sequence has a dependency cycle"⟩
        | some order => .ok ⟨steps, graph, order, labels, pacing, name⟩

/-! ## Lookups -/

def find (sequence : Sequence) (id : StepId) : Option Step :=
  if id.isNil then none
  else
    match sequence.steps[id.index]? with
    | none => none
    | some step => if step.id = id then some step else none

def resolveLabel (sequence : Sequence) (label : String) : Option StepId := sequence.labels[label]?

/-- The steps one dependency before a node. -/
def predecessors (sequence : Sequence) (node : StepId) : List StepId :=
  (sequence.graph.inEdges node).map OutgoingEdge.target

/-- Every step that can reach `id`, ascending, excluding `id` itself. -/
def ancestorsOf (sequence : Sequence) (id : StepId) : List StepId :=
  if sequence.graph.containsNode id then
    (Search.explore sequence.predecessors (sequence.steps.length + 1) [id] []).mergeSort
      fun first second => decide (first.bits ≤ second.bits)
  else
    []

/-- The id of a step of the document. -/
def Live (sequence : Sequence) (id : StepId) : Prop := ∃ step ∈ sequence.steps, step.id = id

theorem live_of_mem (sequence : Sequence) {step : Step} (member : step ∈ sequence.steps) :
    sequence.Live step.id :=
  ⟨step, member, rfl⟩

/-- One dependency: `source` is listed in the `after` of `target`. -/
def Depends (sequence : Sequence) (source target : StepId) : Prop :=
  ∃ step ∈ sequence.steps, step.id = target ∧ source ∈ step.after

/-- A strict ancestor: a dependency chain of at least one edge. -/
def Ancestor (sequence : Sequence) : StepId → StepId → Prop := Relation.TransGen sequence.Depends

/-! ## What the builder guarantees -/

theorem length_assignIds (steps : List Step) : (assignIds steps).length = steps.length := by
  simp [assignIds]

variable {step : Step} {steps : List Step} {graph grown : DependencyGraph} {source target : StepId}
  {id : StepId}

theorem id_of_getElem?_assignIds {position : Nat}
    (found : (assignIds steps)[position]? = some step) : step.id = StepId.ofIndex position := by
  rw [assignIds, getElem?_mapIdx, Option.map_eq_some_iff] at found
  obtain ⟨original, _, rfl⟩ := found
  rfl

/-- Positional ids are distinct. -/
theorem ids_nodup_of_positional (small : steps.length ≤ maxSteps)
    (ids : ∀ position step, steps[position]? = some step → step.id = StepId.ofIndex position) :
    (steps.map Step.id).Nodup := by
  rw [nodup_iff_injective_getElem]
  intro first second same
  have firstIn : first.1 < steps.length := by simpa using first.2
  have secondIn : second.1 < steps.length := by simpa using second.2
  have idOf : ∀ {position} (inside : position < steps.length),
      (steps[position]).id = StepId.ofIndex position :=
    fun inside => ids _ _ (getElem?_eq_getElem inside)
  have positions : StepId.ofIndex first.1 = StepId.ofIndex second.1 := by
    rw [← idOf firstIn, ← idOf secondIn]
    simpa using same
  exact Fin.ext (StepId.ofIndex_injective (Nat.lt_of_lt_of_le firstIn small)
    (Nat.lt_of_lt_of_le secondIn small) positions)

/-- Nodes are added for the steps and edges stay untouched. -/
theorem addNodes_spec {steps : List Step} {graph : DependencyGraph} (mirrored : graph.Mirrored) :
    (addNodes steps graph).Mirrored ∧
      (∀ id, (addNodes steps graph).containsNode id = true ↔
        graph.containsNode id = true ∨ ∃ step ∈ steps, step.id = id) ∧
      ∀ id, (addNodes steps graph).inEdges id = graph.inEdges id := by
  induction steps generalizing graph with
  | nil => simpa [addNodes] using mirrored
  | cons step rest ih =>
    have unfolded : addNodes (step :: rest) graph =
        addNodes rest ((graph.addNode step.id).getD graph) := rfl
    rw [unfolded]
    cases added : graph.addNode step.id with
    | none =>
      have present : graph.containsNode step.id = true := by
        by_contra absent
        rw [AdjacencyGraph.containsNode] at absent
        rw [AdjacencyGraph.addNode, if_neg absent] at added
        exact Option.some_ne_none _ added
      obtain ⟨restMirrored, restNodes, restEdges⟩ := ih mirrored
      refine ⟨restMirrored, ?_, restEdges⟩
      intro id
      rw [Option.getD_none, restNodes, exists_mem_cons_iff]
      constructor
      · rintro (live | later)
        · exact .inl live
        · exact .inr (.inr later)
      rintro (live | rfl | later)
      · exact .inl live
      · exact .inl present
      · exact .inr later
    | some grown =>
      obtain ⟨restMirrored, restNodes, restEdges⟩ := ih (mirrored.addNode added)
      refine ⟨restMirrored, ?_, ?_⟩
      · intro id
        rw [Option.getD_some, restNodes, AdjacencyGraph.containsNode_addNode added,
          exists_mem_cons_iff]
        constructor
        · rintro ((rfl | live) | later)
          · exact .inr (.inl rfl)
          · exact .inl live
          · exact .inr (.inr later)
        rintro (live | rfl | later)
        · exact .inl (.inr live)
        · exact .inl (.inl rfl)
        · exact .inr later
      · intro id
        rw [Option.getD_some, restEdges, (AdjacencyGraph.edges_addNode mirrored added id).2]

/-- Edges added so far: the dependency pairs of a part of the document. -/
structure Wired (graph grown : DependencyGraph) (pairs : List (StepId × StepId)) : Prop where
  mirrored : grown.Mirrored
  nodes : ∀ id, grown.containsNode id = true ↔ graph.containsNode id = true
  edges : ∀ source target,
    Precedes grown source target ↔ Precedes graph source target ∨ (source, target) ∈ pairs
  live : ∀ pair ∈ pairs, graph.containsNode pair.1 = true

theorem Wired.refl {graph : DependencyGraph} (mirrored : graph.Mirrored) : Wired graph graph [] :=
  ⟨mirrored, fun _ => Iff.rfl, fun _ _ => by simp, by simp⟩

theorem Wired.trans {graph middle grown : DependencyGraph}
    {first second : List (StepId × StepId)} (left : Wired graph middle first)
    (right : Wired middle grown second) : Wired graph grown (first ++ second) where
  mirrored := right.mirrored
  nodes id := (right.nodes id).trans (left.nodes id)
  edges source target := by
    rw [right.edges, left.edges, mem_append, or_assoc]
  live pair member := by
    rcases mem_append.mp member with inFirst | inSecond
    · exact left.live pair inFirst
    · exact (left.nodes pair.1).mp (right.live pair inSecond)

theorem addDependency_wired {predecessor : StepId} (mirrored : graph.Mirrored)
    (added : addDependency step graph predecessor = .ok grown) :
    Wired graph grown [(predecessor, step.id)] := by
  unfold addDependency at added
  split at added
  · cases added
  rename_i present
  split at added
  · cases added
  split at added
  · cases added
  rename_i edgeAdded
  cases added
  refine ⟨mirrored.addEdge edgeAdded, AdjacencyGraph.containsNode_addEdge edgeAdded, ?_, ?_⟩
  · intro source target
    simp only [Precedes, AdjacencyGraph.mem_inEdges_addEdge edgeAdded,
      mem_singleton, Prod.mk.injEq]
    constructor
    · rintro ⟨edge, ⟨rfl, rfl⟩ | old, rfl⟩
      · exact .inr ⟨rfl, rfl⟩
      · exact .inl ⟨edge, old, rfl⟩
    · rintro (⟨edge, old, rfl⟩ | ⟨rfl, rfl⟩)
      · exact ⟨edge, .inr old, rfl⟩
      · exact ⟨_, .inl ⟨rfl, rfl⟩, rfl⟩
  · intro pair member
    rw [mem_singleton] at member
    subst pair
    simpa using present

theorem addDependencies_wired {after : List StepId} (mirrored : graph.Mirrored)
    (added : addDependencies step after graph = .ok grown) :
    Wired graph grown (after.map fun predecessor => (predecessor, step.id)) := by
  induction after generalizing graph with
  | nil =>
    cases added
    exact Wired.refl mirrored
  | cons predecessor rest ih =>
    rw [addDependencies] at added
    split at added
    · cases added
    · rename_i middle first
      have firstWired := addDependency_wired mirrored first
      exact firstWired.trans (ih firstWired.mirrored added)

/-- The dependency pairs a document declares. -/
def dependencyPairs (steps : List Step) : List (StepId × StepId) :=
  steps.flatMap fun step => step.after.map fun predecessor => (predecessor, step.id)

theorem mem_dependencyPairs_iff : (source, target) ∈ dependencyPairs steps ↔
      ∃ step ∈ steps, step.id = target ∧ source ∈ step.after := by
  simp only [dependencyPairs, mem_flatMap, mem_map, Prod.mk.injEq]
  constructor
  · rintro ⟨step, member, predecessor, inAfter, rfl, rfl⟩
    exact ⟨step, member, rfl, inAfter⟩
  · rintro ⟨step, member, rfl, inAfter⟩
    exact ⟨step, member, source, inAfter, rfl, rfl⟩

theorem addEdges_wired (mirrored : graph.Mirrored) (added : addEdges steps graph = .ok grown) :
    Wired graph grown (dependencyPairs steps) := by
  induction steps generalizing graph with
  | nil =>
    cases added
    exact Wired.refl mirrored
  | cons step rest ih =>
    rw [addEdges] at added
    split at added
    · cases added
    · rename_i middle first
      have firstWired := addDependencies_wired mirrored first
      exact firstWired.trans (ih firstWired.mirrored added)

/-- Labels lead to steps that carry them. -/
theorem indexLabels_sound {labels indexed : ExtTreeMap String StepId compare}
    (accepted : indexLabels steps labels = .ok indexed) {label : String}
    (found : indexed[label]? = some id) :
    labels[label]? = some id ∨ ∃ step ∈ steps, step.label = label ∧ step.id = id := by
  induction steps generalizing labels with
  | nil =>
    cases accepted
    exact .inl found
  | cons step rest ih =>
    rw [indexLabels] at accepted
    split at accepted
    · rcases ih accepted with old | ⟨later, member, spec⟩
      · exact .inl old
      · exact .inr ⟨later, mem_cons_of_mem _ member, spec⟩
    split at accepted
    · cases accepted
    rcases ih accepted with old | ⟨later, member, spec⟩
    · rw [ExtTreeMap.getElem?_insert] at old
      split at old
      · rename_i same
        exact .inr ⟨step, mem_cons_self, Std.LawfulEqCmp.eq_of_compare same, Option.some.inj old⟩
      · exact .inl old
    · exact .inr ⟨later, mem_cons_of_mem _ member, spec⟩

/-- What holds of every sequence the builder accepts. -/
structure Built (sequence : Sequence) : Prop where
  small : sequence.steps.length ≤ maxSteps
  ids : ∀ position step, sequence.steps[position]? = some step → step.id = StepId.ofIndex position
  nodes : ∀ id, sequence.graph.containsNode id = true ↔ ∃ step ∈ sequence.steps, step.id = id
  edges : ∀ source target, Precedes sequence.graph source target ↔ sequence.Depends source target
  afterLive : ∀ step ∈ sequence.steps, ∀ predecessor ∈ step.after,
    ∃ other ∈ sequence.steps, other.id = predecessor
  acyclic : ∀ id, ¬sequence.Ancestor id id
  labelled : ∀ label id, sequence.resolveLabel label = some id →
    ∃ step ∈ sequence.steps, step.label = label ∧ step.id = id

theorem built_of_build {pacing : PacingOptions} {name : String} {sequence : Sequence}
    (accepted : build steps pacing name = .ok sequence) : Built sequence := by
  unfold build at accepted
  split at accepted
  · cases accepted
  rename_i small
  dsimp only at accepted
  split at accepted
  · cases accepted
  rename_i labels labelled
  split at accepted
  · cases accepted
  rename_i graph wiredOk
  split at accepted
  · cases accepted
  rename_i order sorted
  cases accepted
  have nodesSpec := @addNodes_spec (assignIds steps) {} AdjacencyGraph.mirrored_empty
  obtain ⟨nodesMirrored, nodesIff, nodesEdges⟩ := nodesSpec
  have wired := addEdges_wired nodesMirrored wiredOk
  have liveIff : ∀ id, (addNodes (assignIds steps) {}).containsNode id = true ↔
      ∃ step ∈ assignIds steps, step.id = id := by
    intro id
    rw [nodesIff]
    simp [AdjacencyGraph.containsNode]
  have edgesIff : ∀ source target, Precedes graph source target ↔
      ∃ step ∈ assignIds steps, step.id = target ∧ source ∈ step.after := by
    intro source target
    rw [wired.edges, mem_dependencyPairs_iff]
    have none : ¬Precedes (addNodes (assignIds steps) {}) source target := by
      rintro ⟨edge, member, _⟩
      rw [nodesEdges] at member
      simp [AdjacencyGraph.inEdges] at member
    simp [none]
  refine ⟨?_, fun _ _ => id_of_getElem?_assignIds, ?_, edgesIff, ?_, ?_, ?_⟩
  · rw [length_assignIds]
    exact Nat.le_of_not_lt small
  · exact fun id => (wired.nodes id).trans (liveIff id)
  · intro step member predecessor inAfter
    have pairMem := mem_dependencyPairs_iff.mpr ⟨step, member, rfl, inAfter⟩
    exact (liveIff predecessor).mp (wired.live _ pairMem)
  · intro id cycle
    refine acyclic_of_topologicalOrder wired.mirrored sorted id ?_
    exact Relation.TransGen.mono
      (fun source target edge => (edgesIff source target).mpr edge) id id cycle
  intro label id found
  rcases indexLabels_sound labelled found with impossible | spec
  · simp at impossible
  · exact spec

namespace Built

variable {sequence : Sequence} (built : sequence.Built) {first second : Step}

include built

theorem index_lt_lane {position : Nat} (inside : position < sequence.steps.length) :
    position < StepId.lane :=
  Nat.lt_of_lt_of_le inside built.small

/-- A step is found by its id. -/
theorem find_of_mem (member : step ∈ sequence.steps) : sequence.find step.id = some step := by
  obtain ⟨position, found⟩ := mem_iff_getElem?.mp member
  have idEq := built.ids position step found
  have inside := (List.getElem?_eq_some_iff.mp found).1
  have indexEq : step.id.index = position := by
    rw [idEq]
    exact StepId.index_make _ (built.index_lt_lane inside)
  rw [find, idEq, StepId.isNil_ofIndex, ← idEq, indexEq, found]
  simp

omit built in
theorem mem_of_find (found : sequence.find id = some step) :
    step ∈ sequence.steps ∧ step.id = id := by
  unfold find at found
  split at found
  · cases found
  split at found
  · cases found
  rename_i candidate atIndex
  split at found
  · rename_i same
    cases found
    exact ⟨mem_of_getElem? atIndex, same⟩
  · cases found

theorem index_lt (member : step ∈ sequence.steps) : step.id.index < sequence.steps.length := by
  obtain ⟨position, found⟩ := mem_iff_getElem?.mp member
  have inside := (List.getElem?_eq_some_iff.mp found).1
  rw [built.ids position step found, StepId.ofIndex,
    StepId.index_make _ (built.index_lt_lane inside)]
  exact inside

/-- The index half determines a live id. -/
theorem id_eq_of_index_eq (firstMem : first ∈ sequence.steps) (secondMem : second ∈ sequence.steps)
    (indexEq : first.id.index = second.id.index) : first.id = second.id := by
  obtain ⟨firstPosition, firstFound⟩ := mem_iff_getElem?.mp firstMem
  obtain ⟨secondPosition, secondFound⟩ := mem_iff_getElem?.mp secondMem
  have firstInside := (List.getElem?_eq_some_iff.mp firstFound).1
  have secondInside := (List.getElem?_eq_some_iff.mp secondFound).1
  rw [built.ids firstPosition first firstFound,
    built.ids secondPosition second secondFound] at indexEq ⊢
  rw [StepId.ofIndex, StepId.ofIndex,
    StepId.index_make _ (built.index_lt_lane firstInside),
    StepId.index_make _ (built.index_lt_lane secondInside)] at indexEq
  rw [indexEq]

theorem step_eq (firstMem : first ∈ sequence.steps) (secondMem : second ∈ sequence.steps)
    (indexEq : first.id.index = second.id.index) : first = second := by
  have found := built.find_of_mem firstMem
  rw [built.id_eq_of_index_eq firstMem secondMem indexEq, built.find_of_mem secondMem] at found
  exact (Option.some.inj found).symm

theorem mem_predecessors_iff :
    source ∈ sequence.predecessors target ↔ sequence.Depends source target := by
  rw [← built.edges, predecessors, mem_map]
  rfl

omit built in
theorem ancestorsOf_nodup (target : StepId) : (sequence.ancestorsOf target).Nodup := by
  rw [ancestorsOf]
  split
  · exact (mergeSort_perm _ _).nodup_iff.mpr (Search.explore_nodup nodup_nil)
  · exact nodup_nil

omit built in
theorem ancestorsOf_ascending (target : StepId) :
    (sequence.ancestorsOf target).Pairwise fun first second => first.bits < second.bits := by
  have distinct := @ancestorsOf_nodup sequence target
  rw [ancestorsOf] at distinct ⊢
  split at distinct
  · rename_i known
    rw [if_pos known]
    have sorted := @pairwise_mergeSort StepId (fun first second => first.bits ≤ second.bits)
      (by simpa using fun _ _ _ => Nat.le_trans) (by simpa using fun _ _ => Nat.le_total _ _)
      (Search.explore sequence.predecessors (sequence.steps.length + 1) [target] [])
    apply (sorted.and distinct).imp
    rintro ⟨first⟩ ⟨second⟩ ⟨before, apart⟩
    exact Nat.lt_of_le_of_ne (of_decide_eq_true before) fun same => apart (congrArg _ same)
  · rename_i unknown
    rw [if_neg unknown]
    exact .nil

/-- Exactly the steps a dependency chain comes from. -/
theorem mem_ancestorsOf_iff :
    source ∈ sequence.ancestorsOf target ↔ sequence.Ancestor source target := by
  have edgeEq : Search.Edge sequence.predecessors = Function.swap sequence.Depends := by
    funext node predecessor
    exact propext built.mem_predecessors_iff
  have ancestorIff : Relation.TransGen (Search.Edge sequence.predecessors) target source ↔
      sequence.Ancestor source target := by
    rw [edgeEq]
    exact Relation.transGen_swap
  rw [ancestorsOf]
  split
  · rename_i live
    rw [mem_mergeSort, ← ancestorIff]
    constructor
    · intro member
      rcases Search.explore_sound member with impossible | ⟨start, startMem, path⟩
      · exact absurd impossible not_mem_nil
      · rw [mem_singleton] at startMem
        subst start
        exact path
    intro path
    have space : ∀ id, id ∈ sequence.steps.map Step.id ↔
        sequence.graph.containsNode id = true := by
      intro id
      rw [built.nodes, mem_map]
    have closed : ∀ node ∈ sequence.steps.map Step.id,
        sequence.predecessors node ⊆ sequence.steps.map Step.id := by
      intro node _ predecessor member
      obtain ⟨step, stepMem, _, inAfter⟩ := built.mem_predecessors_iff.mp member
      exact mem_map.mpr (built.afterLive step stepMem predecessor inAfter)
    refine Search.explore_complete closed nodup_nil ?_ (by simp) ?_ (by simp)
      (mem_singleton.mpr rfl) path
    · intro id member
      rw [mem_singleton] at member
      subst id
      exact (space target).mpr live
    · simp only [length_singleton, length_map, length_nil]
      omega
  · rename_i dead
    constructor
    · exact fun impossible => absurd impossible not_mem_nil
    intro ancestor
    exfalso
    apply dead
    rw [built.nodes]
    obtain ⟨_, _, step, member, rfl, _⟩ := Relation.TransGen.tail'_iff.mp ancestor
    exact ⟨step, member, rfl⟩

theorem ids_nodup : (sequence.steps.map Step.id).Nodup :=
  ids_nodup_of_positional built.small built.ids

/-- The index half determines a live id. -/
theorem live_eq {first second : StepId} (firstLive : sequence.Live first)
    (secondLive : sequence.Live second) (indexEq : first.index = second.index) :
    first = second := by
  obtain ⟨firstStep, firstMem, rfl⟩ := firstLive
  obtain ⟨secondStep, secondMem, rfl⟩ := secondLive
  exact built.id_eq_of_index_eq firstMem secondMem indexEq

theorem live_lt (live : sequence.Live id) : id.index < sequence.steps.length := by
  obtain ⟨step, member, rfl⟩ := live
  exact built.index_lt member

theorem find_of_live (live : sequence.Live id) :
    ∃ step, sequence.find id = some step ∧ step.id = id ∧ step ∈ sequence.steps := by
  obtain ⟨step, member, rfl⟩ := live
  exact ⟨step, built.find_of_mem member, rfl, member⟩

omit built in
theorem live_of_find (found : sequence.find id = some step) : sequence.Live id := by
  obtain ⟨member, idEq⟩ := mem_of_find found
  exact ⟨step, member, idEq⟩

theorem ancestor_live (ancestor : sequence.Ancestor source target) : sequence.Live source := by
  obtain ⟨_, edge, _⟩ := Relation.TransGen.head'_iff.mp ancestor
  obtain ⟨step, member, _, inAfter⟩ := edge
  exact built.afterLive step member source inAfter

end Built

end Sequence

end Grab.Kernel
