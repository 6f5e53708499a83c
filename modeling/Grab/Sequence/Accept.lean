import Grab.Sequence.Build

/-!
# Which documents the builder accepts

The builder accepts exactly the documents of at most `maxSteps` steps whose labels
are distinct, whose dependencies name steps of the document once each, and whose
dependencies have no cycle.
-/

namespace Grab.Kernel.Sequence

open Grab.Sequence Grab.Graph Grab.Lib List
open Std (ExtTreeMap)

/-- The labels a document uses. -/
def labelsOf (steps : List Step) : List String := (steps.map Step.label).filter (· ≠ "")

/-- One declared dependency of a list of steps. -/
def DependsIn (steps : List Step) (source target : StepId) : Prop :=
  ∃ step ∈ steps, step.id = target ∧ source ∈ step.after

/-- A document, with its ids assigned, that the builder accepts. -/
structure Acceptable (steps : List Step) : Prop where
  small : steps.length ≤ maxSteps
  labels : (labelsOf steps).Nodup
  live : ∀ step ∈ steps, ∀ predecessor ∈ step.after, ∃ other ∈ steps, other.id = predecessor
  distinct : ∀ step ∈ steps, step.after.Nodup
  acyclic : ∀ id, ¬Relation.TransGen (DependsIn steps) id id

/-! ## Labels -/

theorem labelsOf_cons (step : Step) (rest : List Step) :
    labelsOf (step :: rest) =
      if step.label = "" then labelsOf rest else step.label :: labelsOf rest := by
  rw [labelsOf, map_cons, filter_cons]
  by_cases unlabelled : step.label = ""
  · simp [unlabelled, labelsOf]
  · simp [unlabelled, labelsOf]

variable {steps : List Step} {graph : DependencyGraph} {pacing : PacingOptions}
  {sequence : Sequence} {grown : DependencyGraph} {name : String} {after : List StepId}
  {step : Step}

theorem indexLabels_ok_iff {labels : ExtTreeMap String StepId compare} :
    (∃ indexed, indexLabels steps labels = .ok indexed) ↔
      (labelsOf steps).Nodup ∧ ∀ label ∈ labelsOf steps, labels.contains label = false := by
  induction steps generalizing labels with
  | nil =>
    constructor
    · intro _
      exact ⟨nodup_nil, forall_mem_nil _⟩
    · intro _
      exact ⟨labels, rfl⟩
  | cons step rest ih =>
    rw [indexLabels, labelsOf_cons]
    by_cases unlabelled : step.label = ""
    · rw [if_pos unlabelled, if_pos unlabelled]
      exact ih
    rw [if_neg unlabelled, if_neg unlabelled]
    by_cases taken : labels.contains step.label = true
    · rw [if_pos taken]
      constructor
      · rintro ⟨indexed, impossible⟩
        cases impossible
      · rintro ⟨_, fresh⟩
        rw [fresh step.label mem_cons_self] at taken
        cases taken
    · rw [if_neg taken, ih, nodup_cons]
      rw [Bool.not_eq_true] at taken
      have insertIff : ∀ label, (labels.insert step.label step.id).contains label = false ↔
          label ≠ step.label ∧ labels.contains label = false := by
        intro label
        rw [ExtTreeMap.contains_insert, Bool.or_eq_false_iff]
        apply and_congr_left
        intro _
        rw [beq_eq_false_iff_ne, ne_eq, Std.LawfulEqCmp.compare_eq_iff_eq]
        exact ne_comm
      simp only [insertIff, mem_cons, forall_eq_or_imp]
      constructor
      · rintro ⟨distinct, fresh⟩
        refine ⟨⟨?_, distinct⟩, taken, fun label member => (fresh label member).2⟩
        intro member
        exact (fresh step.label member).1 rfl
      rintro ⟨⟨notIn, distinct⟩, _, fresh⟩
      refine ⟨distinct, fun label member => ⟨?_, fresh label member⟩⟩
      rintro rfl
      exact notIn member

/-! ## Dependencies -/

variable (mirrored : graph.Mirrored)

include mirrored

/-- An edge between two nodes that is not there yet can be added. -/
theorem addEdge_complete {source target : StepId} (different : source ≠ target)
    (sourceLive : graph.containsNode source = true) (targetLive : graph.containsNode target = true)
    (fresh : ¬Precedes graph source target) :
    ∃ grown, graph.addEdge source target () = some grown := by
  cases found : graph.outgoing[source]? with
  | none =>
    rw [AdjacencyGraph.containsNode, ExtTreeMap.contains_eq_isSome_getElem?, found] at sourceLive
    cases sourceLive
  | some edges =>
    have outEq : graph.outEdges source = edges := by
      simp [AdjacencyGraph.outEdges, ExtTreeMap.getD_eq_getD_getElem?, found]
    have absent : AdjacencyGraph.findEdge edges target = none := by
      rw [← outEq, AdjacencyGraph.findEdge_eq_none_iff (mirrored.outSorted source)]
      rintro edge member rfl
      exact fresh ⟨_, (mirrored.mirror source edge.target edge.payload).mp member, rfl⟩
    rw [AdjacencyGraph.containsNode] at targetLive
    simp only [AdjacencyGraph.addEdge, if_neg different, found, targetLive, if_true, absent]
    exact ⟨_, rfl⟩

/-- The dependencies of one step are added when they are live, distinct and new. -/
theorem addDependencies_complete (stepLive : graph.containsNode step.id = true)
    (live : ∀ predecessor ∈ after, graph.containsNode predecessor = true) (noLoop : step.id ∉ after)
    (distinct : after.Nodup) (fresh : ∀ predecessor ∈ after, ¬Precedes graph predecessor step.id) :
    ∃ grown, addDependencies step after graph = .ok grown := by
  induction after generalizing graph with
  | nil => exact ⟨graph, rfl⟩
  | cons predecessor rest ih =>
    rw [nodup_cons] at distinct
    have predecessorLive := live predecessor mem_cons_self
    have different : predecessor ≠ step.id := by
      rintro rfl
      exact noLoop mem_cons_self
    rcases addEdge_complete mirrored different predecessorLive stepLive
      (fresh predecessor mem_cons_self) with ⟨grown, edgeAdded⟩
    have added : addDependency step graph predecessor = .ok grown := by
      rw [addDependency, if_neg (by simp [predecessorLive]), if_neg different, edgeAdded]
    have wired := addDependency_wired mirrored added
    rw [addDependencies, added]
    apply ih wired.mirrored ((wired.nodes _).mpr stepLive)
    · exact fun other member =>
        (wired.nodes other).mpr (live other (mem_cons_of_mem _ member))
    · exact fun inRest => noLoop (mem_cons_of_mem _ inRest)
    · exact distinct.2
    intro other member precedes
    rcases (wired.edges other step.id).mp precedes with old | new
    · exact fresh other (mem_cons_of_mem _ member) old
    · rw [mem_singleton, Prod.mk.injEq] at new
      rw [new.1] at member
      exact distinct.1 member

theorem addEdges_complete (live : ∀ step ∈ steps, graph.containsNode step.id = true ∧
      ∀ predecessor ∈ step.after, graph.containsNode predecessor = true)
    (noLoop : ∀ step ∈ steps, step.id ∉ step.after) (distinct : ∀ step ∈ steps, step.after.Nodup)
    (ids : (steps.map Step.id).Nodup)
    (fresh : ∀ step ∈ steps, ∀ predecessor, ¬Precedes graph predecessor step.id) :
    ∃ grown, addEdges steps graph = .ok grown := by
  induction steps generalizing graph with
  | nil => exact ⟨graph, rfl⟩
  | cons step rest ih =>
    rw [map_cons, nodup_cons] at ids
    have here := live step mem_cons_self
    rcases addDependencies_complete mirrored here.1 here.2 (noLoop step mem_cons_self)
      (distinct step mem_cons_self)
      (fun predecessor _ => fresh step mem_cons_self predecessor) with ⟨grown, added⟩
    have wired := addDependencies_wired mirrored added
    rw [addEdges, added]
    apply ih wired.mirrored
    · intro other member
      have known := live other (mem_cons_of_mem _ member)
      exact ⟨(wired.nodes _).mpr known.1,
        fun predecessor inAfter => (wired.nodes _).mpr (known.2 predecessor inAfter)⟩
    · exact fun other member => noLoop other (mem_cons_of_mem _ member)
    · exact fun other member => distinct other (mem_cons_of_mem _ member)
    · exact ids.2
    intro other member predecessor precedes
    rcases (wired.edges predecessor other.id).mp precedes with old | new
    · exact fresh other (mem_cons_of_mem _ member) predecessor old
    simp only [mem_map, Prod.mk.injEq] at new
    rcases new with ⟨_, _, _, same⟩
    apply ids.1
    rw [same]
    exact mem_map_of_mem member

/-- What was added one after the other was distinct and new. -/
theorem addDependencies_distinct (added : addDependencies step after graph = .ok grown) :
    after.Nodup ∧ ∀ predecessor ∈ after, ¬Precedes graph predecessor step.id := by
  induction after generalizing graph with
  | nil => exact ⟨nodup_nil, forall_mem_nil _⟩
  | cons predecessor rest ih =>
    rw [addDependencies] at added
    split at added
    · cases added
    rename_i middle first
    have wired := addDependency_wired mirrored first
    rcases ih wired.mirrored added with ⟨restDistinct, restFresh⟩
    have newEdge : Precedes middle predecessor step.id :=
      (wired.edges _ _).mpr (.inr (mem_singleton.mpr rfl))
    constructor
    · rw [nodup_cons]
      exact ⟨fun inRest => restFresh predecessor inRest newEdge, restDistinct⟩
    intro other member precedes
    rcases mem_cons.mp member with rfl | member
    · unfold addDependency at first
      split at first
      · cases first
      split at first
      · cases first
      split at first
      · cases first
      rename_i edgeAdded
      rcases AdjacencyGraph.addEdge_eq_some edgeAdded with ⟨_, _, _, absent, _⟩
      rw [AdjacencyGraph.findEdge_eq_none_iff (mirrored.outSorted _)] at absent
      rcases precedes with ⟨edge, inEdges, rfl⟩
      exact absent _ ((mirrored.mirror _ _ _).mpr inEdges) rfl
    · exact restFresh other member ((wired.edges _ _).mpr (.inl precedes))

theorem addEdges_distinct (added : addEdges steps graph = .ok grown) :
    ∀ step ∈ steps, step.after.Nodup := by
  induction steps generalizing graph with
  | nil => exact forall_mem_nil _
  | cons step rest ih =>
    rw [addEdges] at added
    split at added
    · cases added
    rename_i middle first
    intro other member
    rcases mem_cons.mp member with rfl | member
    · exact (addDependencies_distinct mirrored first).1
    · exact ih (addDependencies_wired mirrored first).mirrored added other member

/-! ## The whole document -/

omit mirrored

/-- The graph the dependencies are added to. -/
theorem addNodes_fresh (steps : List Step) : (addNodes steps {}).Mirrored ∧
      (∀ id, (addNodes steps {}).containsNode id = true ↔ ∃ step ∈ steps, step.id = id) ∧
      ∀ source target, ¬Precedes (addNodes steps {}) source target := by
  have spec := @addNodes_spec steps {} AdjacencyGraph.mirrored_empty
  refine ⟨spec.1, ?_, ?_⟩
  · intro id
    rw [spec.2.1]
    simp [AdjacencyGraph.containsNode]
  · rintro source target ⟨edge, member, _⟩
    rw [spec.2.2] at member
    simp [AdjacencyGraph.inEdges] at member

variable (accepted : build steps pacing name = .ok sequence)

include accepted

theorem acceptable_of_build : Acceptable sequence.steps := by
  have built := built_of_build accepted
  unfold build at accepted
  split at accepted
  · cases accepted
  dsimp only at accepted
  split at accepted
  · cases accepted
  rename_i labels labelled
  split at accepted
  · cases accepted
  rename_i graph wired
  split at accepted
  · cases accepted
  cases accepted
  constructor
  case small => exact built.small
  case labels => exact (indexLabels_ok_iff.mp ⟨labels, labelled⟩).1
  case live => exact built.afterLive
  case distinct => exact addEdges_distinct (addNodes_fresh _).1 wired
  case acyclic => exact built.acyclic

theorem mirrored_of_build : sequence.graph.Mirrored := by
  unfold build at accepted
  split at accepted
  · cases accepted
  dsimp only at accepted
  split at accepted
  · cases accepted
  split at accepted
  · cases accepted
  rename_i graph wired
  split at accepted
  · cases accepted
  · cases accepted
    exact (addEdges_wired (addNodes_fresh _).1 wired).mirrored

/-- The order of a built sequence lists every step once, after its predecessors. -/
theorem order_of_build :
    sequence.order.Nodup ∧ (∀ id, id ∈ sequence.order ↔ sequence.Live id) ∧
      ∀ before id rest, sequence.order = before ++ id :: rest →
        ∀ source, sequence.Depends source id → source ∈ before := by
  have built := built_of_build accepted
  have mirrored := mirrored_of_build accepted
  have sorted : topologicalOrder sequence.graph = some sequence.order := by
    unfold build at accepted
    split at accepted
    · cases accepted
    dsimp only at accepted
    split at accepted
    · cases accepted
    split at accepted
    · cases accepted
    split at accepted
    · cases accepted
    · rename_i order sorted
      cases accepted
      exact sorted
  rcases topologicalOrder_sound mirrored sorted with ⟨nodup, complete, ordered⟩
  refine ⟨nodup, fun id => (complete id).trans (built.nodes id), ?_⟩
  intro before id rest split source depends
  exact ordered before id rest split source ((built.edges source id).mpr depends)

omit accepted

/-- A document passes all checks of the builder but the last when its labels are distinct and its
dependencies name other steps of it, once each. -/
theorem wiring_complete (small : (assignIds steps).length ≤ maxSteps)
    (distinctLabels : (labelsOf (assignIds steps)).Nodup)
    (live : ∀ step ∈ assignIds steps, ∀ predecessor ∈ step.after,
      ∃ other ∈ assignIds steps, other.id = predecessor)
    (noLoop : ∀ step ∈ assignIds steps, step.id ∉ step.after)
    (distinct : ∀ step ∈ assignIds steps, step.after.Nodup) :
    ∃ labels graph, indexLabels (assignIds steps) ∅ = .ok labels ∧
      addEdges (assignIds steps) (addNodes (assignIds steps) {}) = .ok graph := by
  rcases addNodes_fresh (assignIds steps) with ⟨mirrored, nodesIff, noEdges⟩
  rcases indexLabels_ok_iff.mpr ⟨distinctLabels, fun label _ =>
    ExtTreeMap.contains_empty⟩ with ⟨labels, labelled⟩
  have known : ∀ step ∈ assignIds steps,
      (addNodes (assignIds steps) {}).containsNode step.id = true ∧
        ∀ predecessor ∈ step.after,
          (addNodes (assignIds steps) {}).containsNode predecessor = true := by
    intro step member
    refine ⟨(nodesIff _).mpr ⟨step, member, rfl⟩, ?_⟩
    intro predecessor inAfter
    exact (nodesIff _).mpr (live step member predecessor inAfter)
  rcases addEdges_complete mirrored known noLoop distinct
    (ids_nodup_of_positional small fun _ _ => id_of_getElem?_assignIds)
    (fun step _ predecessor => noEdges predecessor step.id) with ⟨graph, wired⟩
  exact ⟨labels, graph, labelled, wired⟩

/-- The builder accepts an acceptable document. -/
theorem build_complete (acceptable : Acceptable (assignIds steps)) (pacing : PacingOptions)
    (name : String) :
    ∃ sequence, build steps pacing name = .ok sequence ∧
      sequence.steps = assignIds steps ∧ sequence.pacing = pacing ∧ sequence.name = name := by
  have small := acceptable.small
  have noLoop : ∀ step ∈ assignIds steps, step.id ∉ step.after := by
    intro step member loop
    exact acceptable.acyclic step.id (Relation.TransGen.single ⟨step, member, rfl, loop⟩)
  rcases wiring_complete small acceptable.labels acceptable.live noLoop acceptable.distinct with
    ⟨labels, graph, labelled, wiredOk⟩
  rcases addNodes_fresh (assignIds steps) with ⟨mirrored, _, noEdges⟩
  have wired := addEdges_wired mirrored wiredOk
  have acyclic : ∀ node, ¬Relation.TransGen (Precedes graph) node node := by
    intro node cycle
    apply acceptable.acyclic node
    apply Relation.TransGen.mono _ node node cycle
    intro source target precedes
    rcases (wired.edges source target).mp precedes with old | new
    · exact absurd old (noEdges source target)
    · exact mem_dependencyPairs_iff.mp new
  rcases topologicalOrder_complete wired.mirrored acyclic with ⟨order, sorted⟩
  refine ⟨⟨assignIds steps, graph, order, labels, pacing, name⟩, ?_, rfl, rfl, rfl⟩
  rw [length_assignIds] at small
  rw [build, if_neg (Nat.not_lt.mpr small)]
  simp only [labelled, wiredOk, sorted]

end Grab.Kernel.Sequence
