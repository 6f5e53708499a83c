import Grab.Sequence.Accept

/-!
# Splicing one sequence into another

The inserted steps take fresh indices above the host's, the roots of the insertion
wait for the anchor, and what waited for the anchor waits for the sinks of the
insertion.
-/

namespace Grab.Kernel

open Grab.Sequence Grab.Graph Grab.Lib List

def shifted (id : StepId) (offset : Nat) : StepId :=
  StepId.make (offset + id.index) StepId.firstGeneration

/-- Steps of a program that nothing depends on, ascending. -/
def sinksOf (program : Sequence) (offset : Nat) : List StepId :=
  ((program.steps.filter fun step => (program.graph.outEdges step.id).isEmpty).map
    fun step => shifted step.id offset).mergeSort
      fun first second => decide (first.bits ≤ second.bits)

/-- Put the sinks in the place of the anchor. -/
def rewire (anchor : StepId) (sinks : List StepId) : List StepId → List StepId
  | [] => []
  | predecessor :: rest =>
    if predecessor = anchor then sinks ++ rest
    else predecessor :: rewire anchor sinks rest

/-- A step of the host after a splice. -/
def rewired (anchor : StepId) (sinks : List StepId) (step : Step) : Step :=
  { step with after := rewire anchor sinks step.after }

/-- A step of the insertion as it is spliced in. -/
def injected (anchor : StepId) (offset : Nat) (step : Step) : Step :=
  { step with
    id := shifted step.id offset
    after :=
      if step.after = [] then [anchor]
      else step.after.map fun predecessor => shifted predecessor offset }

/-- The steps of the spliced document. -/
def merged (host : Sequence) (anchor : StepId) (insert : Sequence) : List Step :=
  if insert.steps = [] then host.steps
  else
    host.steps.map (rewired anchor (sinksOf insert host.steps.length)) ++
      insert.steps.map (injected anchor host.steps.length)

/-- The first label of the insertion that the host has as well. -/
def collidingLabel (host insert : Sequence) : Option String :=
  (insert.steps.find? fun step =>
    step.label ≠ "" ∧ (host.resolveLabel step.label).isSome).map Step.label

def splice (host : Sequence) (anchor : StepId) (insert : Sequence) : Except Error Sequence :=
  if host.find anchor = none then
    .error ⟨.invalidArgument, "cannot splice at step index " ++ toString anchor.index ++
      ": the host sequence has no such step"⟩
  else if maxSteps < host.steps.length + insert.steps.length then
    .error ⟨.invalidArgument, "splicing " ++ toString insert.steps.length ++
      " steps into a sequence of " ++ toString host.steps.length ++
      " would exceed the maximum of " ++ toString maxSteps⟩
  else
    match collidingLabel host insert with
    | some label =>
      .error ⟨.invalidArgument, "spliced step label '" ++ label ++
        "' already exists in the host sequence"⟩
    | none => Sequence.build (merged host anchor insert) host.pacing host.name

/-! ## Rewired lists -/

variable {id : StepId} {sinks after : List StepId} {anchor : StepId}

theorem mem_rewire (distinct : after.Nodup) :
    id ∈ rewire anchor sinks after ↔
      (id ∈ after ∧ id ≠ anchor) ∨ (anchor ∈ after ∧ id ∈ sinks) := by
  induction after with
  | nil => simp [rewire]
  | cons predecessor rest ih =>
    rw [nodup_cons] at distinct
    rw [rewire]
    by_cases isAnchor : predecessor = anchor
    · subst isAnchor
      rw [if_pos rfl, mem_append, mem_cons]
      constructor
      · rintro (inSinks | inRest)
        · exact .inr ⟨mem_cons_self, inSinks⟩
        · refine .inl ⟨.inr inRest, ?_⟩
          rintro rfl
          exact distinct.1 inRest
      rintro (⟨here | inRest, different⟩ | ⟨_, inSinks⟩)
      · exact absurd here different
      · exact .inr inRest
      · exact .inl inSinks
    · rw [if_neg isAnchor, mem_cons, ih distinct.2, mem_cons, mem_cons]
      constructor
      · rintro (rfl | ⟨inRest, different⟩ | ⟨inRest, inSinks⟩)
        · exact .inl ⟨.inl rfl, isAnchor⟩
        · exact .inl ⟨.inr inRest, different⟩
        · exact .inr ⟨.inr inRest, inSinks⟩
      rintro (⟨rfl | inRest, different⟩ | ⟨rfl | inRest, inSinks⟩)
      · exact .inl rfl
      · exact .inr (.inl ⟨inRest, different⟩)
      · exact absurd rfl isAnchor
      · exact .inr (.inr ⟨inRest, inSinks⟩)

theorem rewire_nodup (distinct : after.Nodup) (sinksDistinct : sinks.Nodup)
    (apart : ∀ id ∈ sinks, id ∉ after) : (rewire anchor sinks after).Nodup := by
  induction after with
  | nil => exact nodup_nil
  | cons predecessor rest ih =>
    rw [nodup_cons] at distinct
    rw [rewire]
    split
    · apply sinksDistinct.append distinct.2
      intro id inSinks inRest
      exact apart id inSinks (mem_cons_of_mem _ inRest)
    rw [nodup_cons]
    constructor
    · intro member
      rcases (mem_rewire distinct.2).mp member with ⟨inRest, _⟩ | ⟨_, inSinks⟩
      · exact distinct.1 inRest
      · exact apart predecessor inSinks mem_cons_self
    · apply ih distinct.2
      exact fun id inSinks inRest => apart id inSinks (mem_cons_of_mem _ inRest)

/-! ## Two documents and an anchor -/

/-- Two built sequences and a step of the first between which a splice is possible. -/
structure Spliceable (host : Sequence) (anchor : StepId) (insert : Sequence) : Prop where
  hostBuilt : host.Built
  hostSteps : Sequence.Acceptable host.steps
  insertBuilt : insert.Built
  insertSteps : Sequence.Acceptable insert.steps
  mirrored : insert.graph.Mirrored
  anchorLive : host.Live anchor
  size : host.steps.length + insert.steps.length ≤ maxSteps
  labels : ∀ step ∈ insert.steps, step.label ≠ "" → ∀ other ∈ host.steps, other.label ≠ step.label

/-- The ids of the inserted steps. -/
def Inside (host insert : Sequence) (id : StepId) : Prop :=
  ∃ step ∈ insert.steps, shifted step.id host.steps.length = id

/-- A dependency of the insertion, between the shifted ids. -/
def ShiftedDepends (host insert : Sequence) (source target : StepId) : Prop :=
  ∃ first second, insert.Depends first second ∧
    shifted first host.steps.length = source ∧ shifted second host.steps.length = target

namespace Spliceable

variable {host insert : Sequence} {anchor : StepId} (spliceable : Spliceable host anchor insert)
  {first second : StepId}

include spliceable

/-! ### Ids -/

theorem index_shifted (live : insert.Live id) :
    (shifted id host.steps.length).index = host.steps.length + id.index := by
  apply StepId.index_make
  have inside := spliceable.insertBuilt.live_lt live
  have size := spliceable.size
  rw [maxSteps] at size
  rw [StepId.lane]
  omega

theorem shifted_injective (firstLive : insert.Live first) (secondLive : insert.Live second)
    (same : shifted first host.steps.length = shifted second host.steps.length) :
    first = second := by
  have indices := congrArg StepId.index same
  rw [spliceable.index_shifted firstLive, spliceable.index_shifted secondLive] at indices
  exact spliceable.insertBuilt.live_eq firstLive secondLive (by omega)

theorem not_inside (live : host.Live id) : ¬Inside host insert id := by
  rintro ⟨step, member, rfl⟩
  have small := spliceable.hostBuilt.live_lt live
  rw [spliceable.index_shifted ⟨step, member, rfl⟩] at small
  omega

/-- The merged steps have the ids that the builder assigns. -/
theorem ids_merged :
    Sequence.assignIds (merged host anchor insert) = merged host anchor insert := by
  apply ext_getElem?
  intro position
  rw [Sequence.assignIds, getElem?_mapIdx]
  cases found : (merged host anchor insert)[position]? with
  | none => rfl
  | some step =>
    have positional : step.id = StepId.ofIndex position := by
      unfold merged at found
      split at found
      · exact spliceable.hostBuilt.ids position step found
      rw [getElem?_append] at found
      split at found
      · rw [getElem?_map, Option.map_eq_some_iff] at found
        rcases found with ⟨old, atPosition, rfl⟩
        exact spliceable.hostBuilt.ids position old atPosition
      rename_i beyond
      rw [length_map] at beyond found
      rw [getElem?_map, Option.map_eq_some_iff] at found
      rcases found with ⟨new, atPosition, rfl⟩
      have inside := (List.getElem?_eq_some_iff.mp atPosition).1
      have idEq := spliceable.insertBuilt.ids _ new atPosition
      change shifted new.id host.steps.length = StepId.ofIndex position
      rw [shifted, idEq, StepId.ofIndex,
        StepId.index_make _ (spliceable.insertBuilt.index_lt_lane inside),
        Nat.add_sub_cancel' (Nat.le_of_not_lt beyond)]
      rfl
    rw [Option.map_some, ← StepId.ofIndex, ← positional]

/-! ### Edges -/

theorem mem_sinksOf :
    id ∈ sinksOf insert host.steps.length ↔
      Inside host insert id ∧ ∀ other, ¬ShiftedDepends host insert id other := by
  have noEdges : ∀ step ∈ insert.steps, (insert.graph.outEdges step.id).isEmpty = true ↔
      ∀ other, ¬insert.Depends step.id other := by
    intro step member
    rw [List.isEmpty_iff]
    constructor
    · intro empty other depends
      rcases (spliceable.insertBuilt.edges step.id other).mpr depends with ⟨edge, inEdges, sourceEq⟩
      have outEdge := (spliceable.mirrored.mirror edge.target other edge.payload).mpr inEdges
      rw [sourceEq, empty] at outEdge
      cases outEdge
    intro none
    apply eq_nil_iff_forall_not_mem.mpr
    intro edge outEdge
    apply none edge.target
    rw [← spliceable.insertBuilt.edges]
    exact ⟨_, (spliceable.mirrored.mirror step.id edge.target edge.payload).mp outEdge, rfl⟩
  rw [sinksOf, mem_mergeSort, mem_map]
  constructor
  · rintro ⟨step, member, rfl⟩
    rw [mem_filter] at member
    refine ⟨⟨step, member.1, rfl⟩, ?_⟩
    rintro other ⟨first, second, depends, same, _⟩
    have firstLive := spliceable.insertBuilt.ancestor_live (Relation.TransGen.single depends)
    rw [spliceable.shifted_injective firstLive ⟨step, member.1, rfl⟩ same] at depends
    exact (noEdges step member.1).mp member.2 second depends
  · rintro ⟨⟨step, member, rfl⟩, sink⟩
    refine ⟨step, mem_filter.mpr ⟨member, (noEdges step member).mpr ?_⟩, rfl⟩
    intro other depends
    exact sink _ ⟨step.id, other, depends, rfl, rfl⟩

variable {source target : StepId} {step : Step}

theorem depends_host : (∃ step ∈ host.steps, step.id = target ∧
        source ∈ rewire anchor (sinksOf insert host.steps.length) step.after) ↔
      (host.Depends source target ∧ source ≠ anchor) ∨
        (Inside host insert source ∧ (∀ other, ¬ShiftedDepends host insert source other) ∧
          host.Depends anchor target) := by
  constructor
  · rintro ⟨step, member, rfl, inAfter⟩
    rcases (mem_rewire (spliceable.hostSteps.distinct step member)).mp inAfter with
      ⟨old, different⟩ | ⟨waited, inSinks⟩
    · exact .inl ⟨⟨step, member, rfl, old⟩, different⟩
    · rcases spliceable.mem_sinksOf.mp inSinks with ⟨isInside, sink⟩
      exact .inr ⟨isInside, sink, step, member, rfl, waited⟩
  rintro (⟨⟨step, member, rfl, old⟩, different⟩ | ⟨isInside, sink, step, member, rfl, waited⟩)
  · exact ⟨step, member, rfl,
      (mem_rewire (spliceable.hostSteps.distinct step member)).mpr (.inl ⟨old, different⟩)⟩
  · exact ⟨step, member, rfl, (mem_rewire (spliceable.hostSteps.distinct step member)).mpr
      (.inr ⟨waited, spliceable.mem_sinksOf.mpr ⟨isInside, sink⟩⟩)⟩

theorem depends_insert : (∃ step ∈ insert.steps, shifted step.id host.steps.length = target ∧
        source ∈ (injected anchor host.steps.length step).after) ↔
      ShiftedDepends host insert source target ∨
        (source = anchor ∧ Inside host insert target ∧
          ∀ other, ¬ShiftedDepends host insert other target) := by
  -- the step behind a shifted id is unique
  have unique : ∀ {first second : Step}, first ∈ insert.steps → second ∈ insert.steps →
      shifted first.id host.steps.length = shifted second.id host.steps.length →
      first = second := by
    intro first second firstIn secondIn same
    have idEq := spliceable.shifted_injective ⟨first, firstIn, rfl⟩ ⟨second, secondIn, rfl⟩ same
    have found := spliceable.insertBuilt.find_of_mem firstIn
    rw [idEq, spliceable.insertBuilt.find_of_mem secondIn] at found
    exact (Option.some.inj found).symm
  constructor
  · rintro ⟨step, member, rfl, inAfter⟩
    unfold injected at inAfter
    dsimp only at inAfter
    split at inAfter
    · rename_i isRoot
      refine .inr ⟨mem_singleton.mp inAfter, ⟨step, member, rfl⟩, ?_⟩
      rintro other ⟨first, second, ⟨later, laterIn, rfl, inLater⟩, _, same⟩
      rw [unique laterIn member same, isRoot] at inLater
      cases inLater
    · rcases mem_map.mp inAfter with ⟨predecessor, old, rfl⟩
      exact .inl ⟨predecessor, step.id, ⟨step, member, rfl, old⟩, rfl, rfl⟩
  · rintro (⟨first, second, ⟨step, member, rfl, old⟩, rfl, rfl⟩ |
      ⟨rfl, ⟨step, member, rfl⟩, isRoot⟩)
    · refine ⟨step, member, rfl, ?_⟩
      unfold injected
      rw [if_neg (ne_nil_of_mem old)]
      exact mem_map_of_mem old
    · refine ⟨step, member, rfl, ?_⟩
      unfold injected
      have noAfter : step.after = [] := by
        by_contra some
        rcases exists_mem_of_ne_nil _ some with ⟨predecessor, old⟩
        exact isRoot _ ⟨predecessor, step.id, ⟨step, member, rfl, old⟩, rfl, rfl⟩
      rw [if_pos noAfter]
      exact mem_singleton_self _

/-- The merged document is the insertion in series behind the anchor. -/
theorem series (nonempty : insert.steps ≠ []) :
    Series host.Depends (ShiftedDepends host insert) anchor (Inside host insert)
      (Sequence.DependsIn (merged host anchor insert)) where
  hostOutside source target depends := by
    refine ⟨spliceable.not_inside
      (spliceable.hostBuilt.ancestor_live (Relation.TransGen.single depends)), ?_⟩
    rcases depends with ⟨step, member, rfl, _⟩
    exact spliceable.not_inside ⟨step, member, rfl⟩
  insertInside source target depends := by
    rcases depends with ⟨first, second, depends, rfl, rfl⟩
    rcases spliceable.insertBuilt.ancestor_live (Relation.TransGen.single depends) with
      ⟨step, member, rfl⟩
    rcases depends with ⟨later, laterIn, rfl, _⟩
    exact ⟨⟨step, member, rfl⟩, ⟨later, laterIn, rfl⟩⟩
  anchorOutside := spliceable.not_inside spliceable.anchorLive
  edges source target := by
    have split : Sequence.DependsIn (merged host anchor insert) source target ↔
        (∃ step ∈ host.steps, step.id = target ∧
          source ∈ rewire anchor (sinksOf insert host.steps.length) step.after) ∨
        ∃ step ∈ insert.steps, shifted step.id host.steps.length = target ∧
          source ∈ (injected anchor host.steps.length step).after := by
      simp only [Sequence.DependsIn, merged, if_neg nonempty, mem_append, mem_map,
        or_and_right, exists_or]
      apply or_congr
      · constructor
        · rintro ⟨_, ⟨step, member, rfl⟩, idEq, inAfter⟩
          exact ⟨step, member, idEq, inAfter⟩
        · rintro ⟨step, member, idEq, inAfter⟩
          exact ⟨_, ⟨step, member, rfl⟩, idEq, inAfter⟩
      constructor
      · rintro ⟨_, ⟨step, member, rfl⟩, idEq, inAfter⟩
        exact ⟨step, member, idEq, inAfter⟩
      · rintro ⟨step, member, idEq, inAfter⟩
        exact ⟨_, ⟨step, member, rfl⟩, idEq, inAfter⟩
    rw [split, spliceable.depends_host, spliceable.depends_insert]
    tauto

/-! ### Reachability in the insertion -/

theorem shifted_live (depends : ShiftedDepends host insert source target) :
    ∃ first second, insert.Live first ∧ insert.Live second ∧ insert.Depends first second ∧
      shifted first host.steps.length = source ∧ shifted second host.steps.length = target := by
  rcases depends with ⟨first, second, depends, firstEq, secondEq⟩
  refine ⟨first, second, ?_, ?_, depends, firstEq, secondEq⟩
  · exact spliceable.insertBuilt.ancestor_live (Relation.TransGen.single depends)
  · rcases depends with ⟨step, member, idEq, _⟩
    exact ⟨step, member, idEq⟩

/-- A chain of shifted dependencies is the shift of a chain of the insertion. -/
theorem shifted_ancestor {first : StepId} (firstLive : insert.Live first)
    (path : Relation.TransGen (ShiftedDepends host insert)
      (shifted first host.steps.length) target) :
    ∃ second, insert.Live second ∧ shifted second host.steps.length = target ∧
      insert.Ancestor first second := by
  induction path with
  | single edge =>
    rcases spliceable.shifted_live edge with
      ⟨source, second, sourceLive, secondLive, depends, same, secondEq⟩
    rw [spliceable.shifted_injective sourceLive firstLive same] at depends
    exact ⟨second, secondLive, secondEq, Relation.TransGen.single depends⟩
  | tail _ edge ih =>
    rcases ih with ⟨middle, middleLive, middleEq, reached⟩
    rcases spliceable.shifted_live edge with
      ⟨source, second, sourceLive, secondLive, depends, same, secondEq⟩
    rw [spliceable.shifted_injective sourceLive middleLive (same.trans middleEq.symm)] at depends
    exact ⟨second, secondLive, secondEq, reached.tail depends⟩

theorem shifted_ancestor_iff (firstLive : insert.Live first) (secondLive : insert.Live second) :
    Relation.TransGen (ShiftedDepends host insert) (shifted first host.steps.length)
        (shifted second host.steps.length) ↔ insert.Ancestor first second := by
  constructor
  · intro path
    rcases spliceable.shifted_ancestor firstLive path with ⟨reached, live, same, ancestor⟩
    rwa [spliceable.shifted_injective live secondLive same] at ancestor
  · intro ancestor
    apply Relation.TransGen.lift (fun id => shifted id host.steps.length) _ _ _ ancestor
    exact fun source target depends => ⟨source, target, depends, rfl, rfl⟩

theorem shifted_acyclic (id : StepId) : ¬Relation.TransGen (ShiftedDepends host insert) id id := by
  intro cycle
  rcases Relation.TransGen.head'_iff.mp cycle with ⟨_, edge, _⟩
  rcases spliceable.shifted_live edge with ⟨first, _, firstLive, _, _, rfl, _⟩
  exact spliceable.insertBuilt.acyclic first
    ((spliceable.shifted_ancestor_iff firstLive firstLive).mp cycle)

omit spliceable in
theorem inside_finite : {id | Inside host insert id}.Finite := by
  have listed := (insert.steps.map fun step => shifted step.id host.steps.length).finite_toSet
  apply listed.subset
  rintro id ⟨step, member, rfl⟩
  exact mem_map.mpr ⟨step, member, rfl⟩

theorem shifted_wellFounded : WellFounded (ShiftedDepends host insert) := by
  apply wellFounded_of_acyclic inside_finite
  · intro source target depends
    rcases spliceable.shifted_live depends with ⟨_, _, _, ⟨step, member, rfl⟩, _, _, rfl⟩
    exact ⟨step, member, rfl⟩
  · exact spliceable.shifted_acyclic

theorem shifted_wellFounded_swap : WellFounded (Function.swap (ShiftedDepends host insert)) := by
  apply wellFounded_of_acyclic inside_finite
  · intro source target depends
    rcases spliceable.shifted_live depends with ⟨_, _, ⟨step, member, rfl⟩, _, _, rfl, _⟩
    exact ⟨step, member, rfl⟩
  · intro id cycle
    exact spliceable.shifted_acyclic id (Relation.transGen_swap.mp cycle)

/-! ### The merged document -/

theorem merged_labels : (Sequence.labelsOf (merged host anchor insert)).Nodup := by
  unfold merged
  split
  · exact spliceable.hostSteps.labels
  have sameHost : (host.steps.map (rewired anchor (sinksOf insert host.steps.length))).map
      Step.label = host.steps.map Step.label := by
    rw [map_map]
    rfl
  have sameInsert : (insert.steps.map (injected anchor host.steps.length)).map Step.label =
      insert.steps.map Step.label := by
    rw [map_map]
    rfl
  rw [Sequence.labelsOf, map_append, sameHost, sameInsert, filter_append]
  apply Nodup.append spliceable.hostSteps.labels spliceable.insertSteps.labels
  intro label inHost inInsert
  rcases mem_map.mp (mem_of_mem_filter inHost) with ⟨other, otherIn, otherEq⟩
  rcases mem_map.mp (mem_of_mem_filter inInsert) with ⟨step, stepIn, rfl⟩
  have labelled : step.label ≠ "" := by simpa using of_mem_filter inInsert
  exact spliceable.labels step stepIn labelled other otherIn otherEq

omit spliceable in
theorem mem_merged_host (nonempty : insert.steps ≠ []) (member : step ∈ host.steps) :
    rewired anchor (sinksOf insert host.steps.length) step ∈ merged host anchor insert := by
  rw [merged, if_neg nonempty]
  exact mem_append_left _ (mem_map_of_mem member)

omit spliceable in
theorem mem_merged_insert (member : step ∈ insert.steps) :
    injected anchor host.steps.length step ∈ merged host anchor insert := by
  rw [merged, if_neg (ne_nil_of_mem member)]
  exact mem_append_right _ (mem_map_of_mem member)

theorem merged_live (nonempty : insert.steps ≠ []) (member : step ∈ merged host anchor insert)
    {predecessor : StepId} (inAfter : predecessor ∈ step.after) :
    ∃ other ∈ merged host anchor insert, other.id = predecessor := by
  have hostLive : ∀ id, host.Live id → ∃ other ∈ merged host anchor insert, other.id = id := by
    rintro id ⟨old, oldIn, rfl⟩
    exact ⟨_, mem_merged_host nonempty oldIn, rfl⟩
  have insertLive : ∀ id, Inside host insert id →
      ∃ other ∈ merged host anchor insert, other.id = id := by
    rintro id ⟨new, newIn, rfl⟩
    exact ⟨_, mem_merged_insert newIn, rfl⟩
  have depends : Sequence.DependsIn (merged host anchor insert) predecessor step.id :=
    ⟨step, member, rfl, inAfter⟩
  rcases ((spliceable.series nonempty).edges predecessor step.id).mp depends with
    ⟨old, _⟩ | new | ⟨rfl, _⟩ | ⟨isInside, _⟩
  · exact hostLive _ (spliceable.hostBuilt.ancestor_live (Relation.TransGen.single old))
  · exact insertLive _ ((spliceable.series nonempty).insertInside _ _ new).1
  · exact hostLive _ spliceable.anchorLive
  · exact insertLive _ isInside

theorem sinksOf_nodup : (sinksOf insert host.steps.length).Nodup := by
  rw [sinksOf, (mergeSort_perm _ _).nodup_iff]
  rw [nodup_map_iff_inj_on ((Nodup.of_map _ spliceable.insertBuilt.ids_nodup).filter _)]
  intro first firstIn second secondIn same
  rw [mem_filter] at firstIn secondIn
  have idEq := spliceable.shifted_injective ⟨first, firstIn.1, rfl⟩ ⟨second, secondIn.1, rfl⟩ same
  have found := spliceable.insertBuilt.find_of_mem firstIn.1
  rw [idEq, spliceable.insertBuilt.find_of_mem secondIn.1] at found
  exact (Option.some.inj found).symm

theorem merged_distinct (nonempty : insert.steps ≠ []) (member : step ∈ merged host anchor insert) :
    step.after.Nodup := by
  rw [merged, if_neg nonempty, mem_append, mem_map, mem_map] at member
  rcases member with ⟨old, oldIn, rfl⟩ | ⟨new, newIn, rfl⟩
  · apply rewire_nodup (spliceable.hostSteps.distinct old oldIn) spliceable.sinksOf_nodup
    intro id inSinks inAfter
    exact spliceable.not_inside (spliceable.hostSteps.live old oldIn id inAfter)
      (spliceable.mem_sinksOf.mp inSinks).1
  unfold injected
  split
  · exact nodup_singleton anchor
  rw [nodup_map_iff_inj_on (spliceable.insertSteps.distinct new newIn)]
  intro first firstIn second secondIn same
  exact spliceable.shifted_injective (spliceable.insertSteps.live new newIn first firstIn)
    (spliceable.insertSteps.live new newIn second secondIn) same

omit spliceable in
theorem merged_length : (merged host anchor insert).length =
    host.steps.length + insert.steps.length := by
  unfold merged
  split
  · rename_i empty
    rw [empty, length_nil, Nat.add_zero]
  · rw [length_append, length_map, length_map]

/-- The builder accepts the merged document. -/
theorem merged_acceptable : Sequence.Acceptable (merged host anchor insert) := by
  by_cases empty : insert.steps = []
  · rw [merged, if_pos empty]
    exact spliceable.hostSteps
  constructor
  case small =>
    rw [merged_length]
    exact spliceable.size
  case labels => exact spliceable.merged_labels
  case live => exact fun step member predecessor => spliceable.merged_live empty member
  case distinct => exact fun step member => spliceable.merged_distinct empty member
  case acyclic =>
    exact (spliceable.series empty).acyclic spliceable.hostBuilt.acyclic spliceable.shifted_acyclic

theorem no_collision : collidingLabel host insert = none := by
  rw [collidingLabel, Option.map_eq_none_iff, find?_eq_none]
  intro step member
  simp only [decide_eq_true_eq, not_and]
  intro labelled resolved
  rcases Option.isSome_iff_exists.mp resolved with ⟨id, found⟩
  rcases spliceable.hostBuilt.labelled step.label id found with ⟨other, otherIn, same, _⟩
  exact spliceable.labels step member labelled other otherIn same

/-- The splice succeeds with the merged steps. -/
theorem splice_complete : ∃ result, splice host anchor insert = .ok result ∧ result.Built ∧
    result.steps = merged host anchor insert := by
  have acceptable := spliceable.merged_acceptable
  rw [← spliceable.ids_merged] at acceptable
  rcases Sequence.build_complete acceptable host.pacing host.name with
    ⟨result, accepted, stepsEq, _⟩
  refine ⟨result, ?_, Sequence.built_of_build accepted, stepsEq.trans spliceable.ids_merged⟩
  have found : host.find anchor ≠ none := by
    rcases spliceable.hostBuilt.find_of_live spliceable.anchorLive with ⟨step, isFound, _⟩
    rw [isFound]
    exact Option.some_ne_none step
  rw [splice, if_neg found, if_neg (Nat.not_lt.mpr spliceable.size), spliceable.no_collision]
  exact accepted

end Spliceable

/-! ## The splice -/

section

variable {hostSteps insertSteps : List Step} {hostPacing insertPacing : PacingOptions}
  {hostName insertName : String} {host insert : Sequence} {anchor : StepId}

/-- A splice within the step limit and without a common label succeeds.  The host
keeps its steps and the order among them, the insertion keeps its own order, and it
runs after the anchor and before everything that waited for the anchor. -/
theorem splice_preserves_host (hostBuilt : Sequence.build hostSteps hostPacing hostName = .ok host)
    (insertBuilt : Sequence.build insertSteps insertPacing insertName = .ok insert)
    (anchorLive : host.Live anchor)
    (size : host.steps.length + insert.steps.length ≤ maxSteps)
    (labels : (Sequence.labelsOf host.steps).Disjoint (Sequence.labelsOf insert.steps)) :
    ∃ result, splice host anchor insert = .ok result ∧
      (∀ step ∈ host.steps, ∃ kept, result.find step.id = some kept ∧
        kept.id = step.id ∧ kept.label = step.label ∧ kept.command = step.command) ∧
      (∀ first second, host.Live first → host.Live second →
        (result.Ancestor first second ↔ host.Ancestor first second)) ∧
      (∀ step ∈ insert.steps, ∃ new, result.find (shifted step.id host.steps.length) = some new ∧
        new.label = step.label ∧ new.command = step.command ∧
        result.Ancestor anchor new.id ∧
        ∀ successor, host.Depends anchor successor → result.Ancestor new.id successor) ∧
      ∀ first second, insert.Live first → insert.Live second →
        (result.Ancestor (shifted first host.steps.length) (shifted second host.steps.length) ↔
          insert.Ancestor first second) := by
  have disjoint : ∀ step ∈ insert.steps, step.label ≠ "" →
      ∀ other ∈ host.steps, other.label ≠ step.label := by
    intro step member labelled other otherIn same
    have inInsert : step.label ∈ Sequence.labelsOf insert.steps :=
      mem_filter.mpr ⟨mem_map_of_mem member, by simpa using labelled⟩
    apply labels _ inInsert
    rw [← same] at labelled ⊢
    exact mem_filter.mpr ⟨mem_map_of_mem otherIn, by simpa using labelled⟩
  have spliceable : Spliceable host anchor insert := {
    hostBuilt := Sequence.built_of_build hostBuilt
    hostSteps := Sequence.acceptable_of_build hostBuilt
    insertBuilt := Sequence.built_of_build insertBuilt
    insertSteps := Sequence.acceptable_of_build insertBuilt
    mirrored := Sequence.mirrored_of_build insertBuilt
    anchorLive := anchorLive
    size := size
    labels := disjoint }
  rcases spliceable.splice_complete with ⟨result, accepted, built, stepsEq⟩
  have relation : result.Depends = Sequence.DependsIn (merged host anchor insert) := by
    rw [← stepsEq]
    rfl
  have found : ∀ step ∈ merged host anchor insert, result.find step.id = some step := by
    intro step member
    rw [← stepsEq] at member
    exact built.find_of_mem member
  refine ⟨result, accepted, ?_⟩
  by_cases empty : insert.steps = []
  · -- nothing is inserted: the document is the host's
    rw [merged, if_pos empty] at relation found
    have noneLive : ∀ id, ¬insert.Live id := by
      rintro id ⟨step, member, _⟩
      rw [empty] at member
      cases member
    refine ⟨fun step member => ⟨step, found step member, rfl, rfl, rfl⟩, ?_, ?_, ?_⟩
    · intro first second _ _
      rw [Sequence.Ancestor, relation]
      rfl
    · intro step member
      exact absurd ⟨step, member, rfl⟩ (noneLive step.id)
    · intro first second firstLive
      exact absurd firstLive (noneLive first)
  · have series := spliceable.series empty
    have forward := spliceable.shifted_wellFounded
    have backward := spliceable.shifted_wellFounded_swap
    rcases exists_mem_of_ne_nil _ empty with ⟨some, someIn⟩
    refine ⟨?_, ?_, ?_, ?_⟩
    · intro step member
      exact ⟨rewired anchor (sinksOf insert host.steps.length) step,
        found _ (Spliceable.mem_merged_host empty member), rfl, rfl, rfl⟩
    · intro first second firstLive secondLive
      rw [Sequence.Ancestor, relation]
      exact series.outside_iff forward backward ⟨some, someIn, rfl⟩
        (spliceable.not_inside firstLive) (spliceable.not_inside secondLive)
    · intro step member
      refine ⟨_, found _ (Spliceable.mem_merged_insert member), rfl, rfl, ?_, ?_⟩
      · rw [Sequence.Ancestor, relation]
        exact series.anchor_before forward ⟨step, member, rfl⟩
      · intro successor depends
        rw [Sequence.Ancestor, relation]
        exact series.before_target backward ⟨step, member, rfl⟩ depends
    · intro first second firstLive secondLive
      rw [Sequence.Ancestor, relation, ← spliceable.shifted_ancestor_iff firstLive secondLive]
      apply series.inside_iff (spliceable.hostBuilt.acyclic anchor)
      · rcases firstLive with ⟨step, member, rfl⟩
        exact ⟨step, member, rfl⟩
      · rcases secondLive with ⟨step, member, rfl⟩
        exact ⟨step, member, rfl⟩

end

/-- Two waits in a row. -/
def hostWaits : List Step :=
  [{ label := "first", command := .wait 5 },
    { label := "second", command := .wait 7, after := [StepId.ofIndex 0] }]

def insertWait : List Step := [{ label := "between", command := .wait 1 }]

theorem splice_preserves_host_waits : ∃ host insert result,
    Sequence.build hostWaits {} "host" = .ok host ∧
      Sequence.build insertWait {} "insert" = .ok insert ∧
      splice host (StepId.ofIndex 0) insert = .ok result ∧
      result.Ancestor (StepId.ofIndex 0) (StepId.ofIndex 1) ∧
      result.Ancestor (StepId.ofIndex 0) (StepId.ofIndex 2) ∧
      result.Ancestor (StepId.ofIndex 2) (StepId.ofIndex 1) := by
  have hostSteps : (Sequence.build hostWaits {} "host").toOption.map Sequence.steps =
      some (Sequence.assignIds hostWaits) := by decide +kernel
  have insertSteps : (Sequence.build insertWait {} "insert").toOption.map Sequence.steps =
      some (Sequence.assignIds insertWait) := by decide +kernel
  cases hostBuilt : Sequence.build hostWaits {} "host" with
  | error error =>
    rw [hostBuilt] at hostSteps
    cases hostSteps
  | ok host =>
    rw [hostBuilt] at hostSteps
    cases insertBuilt : Sequence.build insertWait {} "insert" with
      rw [insertBuilt] at insertSteps
    | error error =>
      cases insertSteps
    | ok insert =>
      replace hostSteps : host.steps = Sequence.assignIds hostWaits := Option.some.inj hostSteps
      replace insertSteps : insert.steps = Sequence.assignIds insertWait :=
        Option.some.inj insertSteps
      have anchorLive : host.Live (StepId.ofIndex 0) := by
        rw [Sequence.Live, hostSteps]
        decide +kernel
      have depends : host.Depends (StepId.ofIndex 0) (StepId.ofIndex 1) := by
        rw [Sequence.Depends, hostSteps]
        decide +kernel
      rcases splice_preserves_host hostBuilt insertBuilt anchorLive
        (by rw [hostSteps, insertSteps]; decide +kernel)
        (by rw [hostSteps, insertSteps, disjoint_left]; decide +kernel) with
        ⟨result, accepted, _, order, inserted, _⟩
      have between : ⟨StepId.ofIndex 0, "between", .wait 1, [], .abort, "", 0⟩ ∈
          insert.steps := by
        rw [insertSteps]
        decide +kernel
      rcases inserted _ between with ⟨new, found, _, _, after, before⟩
      have idEq : new.id = StepId.ofIndex 2 := by
        rw [(Sequence.Built.mem_of_find found).2, hostSteps]
        decide +kernel
      rw [idEq] at after before
      refine ⟨host, insert, result, rfl, rfl, accepted, ?_, after, before _ depends⟩
      have secondLive : host.Live (StepId.ofIndex 1) := by
        rw [Sequence.Live, hostSteps]
        decide +kernel
      exact (order _ _ anchorLive secondLive).mpr (Relation.TransGen.single depends)

end Grab.Kernel
