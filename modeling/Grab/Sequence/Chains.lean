import Grab.Lib.LongestPath
import Grab.Sequence.Accept

/-!
# Dependency chains

The tables over a document are indexed by position.  Along the order of a built sequence they
are tables of longest paths, so what they compute is a maximum over dependency chains.
-/

namespace Grab.Kernel.Sequence

open Grab.Sequence Grab.Graph Grab.Lib List

/-- A dependency chain: steps of the document, each listed in the `after` of the next. -/
structure IsDependencyChain (sequence : Sequence) (chain : List Step) : Prop where
  inside : ∀ step ∈ chain, step ∈ sequence.steps
  chained : chain.IsChain fun earlier later => earlier.id ∈ later.after

/-- The positions that the step at a position depends on. -/
def sourcesAt (sequence : Sequence) (position : Nat) : List Nat :=
  match sequence.steps[position]? with
  | none => []
  | some step => step.after.map StepId.index

/-- The weight of the step at a position. -/
def weightAt {α : Type} [Zero α] (sequence : Sequence) (weight : Step → α) (position : Nat) : α :=
  match sequence.steps[position]? with
  | none => 0
  | some step => weight step

namespace Built

variable {sequence : Sequence} (built : Built sequence) {step : Step} {α : Type}

include built

variable (member : step ∈ sequence.steps)

include member

theorem getElem?_index : sequence.steps[step.id.index]? = some step := by
  have found := built.find_of_mem member
  unfold find at found
  split at found
  · cases found
  split at found
  · cases found
  rename_i other atIndex
  split at found
  · rw [atIndex, found]
  · cases found

theorem sourcesAt_eq : sequence.sourcesAt step.id.index = step.after.map StepId.index := by
  rw [sourcesAt, built.getElem?_index member]

theorem weightAt_eq [Zero α] {weight : Step → α} :
    sequence.weightAt weight step.id.index = weight step := by
  rw [weightAt, built.getElem?_index member]

/-- The bound the walks check holds of every dependency. -/
theorem latest_sourcesAt [AddCommMonoid α] [LinearOrder α] {finish : Nat → α} :
    LongestPath.latest finish (sequence.sourcesAt step.id.index) =
      step.after.foldl (fun ready predecessor =>
        if predecessor.index < sequence.steps.length then
          max ready (finish predecessor.index)
        else ready) 0 := by
  rw [LongestPath.latest, built.sourcesAt_eq member, foldl_map]
  apply foldl_ext
  intro ready predecessor inAfter
  rcases built.afterLive step member predecessor inAfter with ⟨other, otherIn, rfl⟩
  rw [if_pos (List.getElem?_eq_some_iff.mp (built.getElem?_index otherIn)).1]

omit member

/-- A dependency is one between positions. -/
theorem mem_sourcesAt_iff {earlier later : Step} (earlierIn : earlier ∈ sequence.steps)
    (laterIn : later ∈ sequence.steps) :
    earlier.id.index ∈ sequence.sourcesAt later.id.index ↔ earlier.id ∈ later.after := by
  rw [built.sourcesAt_eq laterIn, mem_map]
  constructor
  · rintro ⟨predecessor, inAfter, same⟩
    have live := built.afterLive later laterIn predecessor inAfter
    rwa [built.live_eq live ⟨earlier, earlierIn, rfl⟩ same] at inAfter
  · intro inAfter
    exact ⟨_, inAfter, rfl⟩

end Built

section

variable {steps : List Step} {pacing : PacingOptions} {name : String} {sequence : Sequence}
  (accepted : build steps pacing name = .ok sequence) {α : Type}

include accepted

/-- The positions, in the order of the sequence, come after their sources. -/
theorem linear_of_build :
    LongestPath.Linear sequence.sourcesAt (sequence.order.map StepId.index) := by
  have built := built_of_build accepted
  rcases order_of_build accepted with ⟨nodup, complete, ordered⟩
  constructor
  case nodup =>
    apply Nodup.map_on _ nodup
    intro first firstIn second secondIn same
    exact built.live_eq ((complete first).mp firstIn) ((complete second).mp secondIn) same
  case earlier =>
    intro before position rest split source isSource
    rcases map_eq_append_iff.mp split with ⟨front, back, orderEq, rfl, backEq⟩
    rcases map_eq_cons_iff.mp backEq with ⟨id, tail, rfl, rfl, rfl⟩
    have live : sequence.Live id := (complete id).mp (by simp [orderEq])
    rcases live with ⟨step, member, rfl⟩
    rw [built.sourcesAt_eq member, mem_map] at isSource
    rcases isSource with ⟨predecessor, inAfter, rfl⟩
    apply mem_map_of_mem
    exact ordered front step.id tail orderEq predecessor ⟨step, member, rfl, inAfter⟩

/-- A walk over the order that fills in the entry of each step fills in the table. -/
theorem foldl_eq_table [AddCommMonoid α] [LinearOrder α] {weight : Step → α}
    {turn : (ℕ → α) × α → StepId → (ℕ → α) × α}
    (turns : ∀ table, ∀ step ∈ sequence.steps, sequence.find step.id = some step →
      turn table step.id =
        LongestPath.fill sequence.sourcesAt (sequence.weightAt weight) table step.id.index) :
    sequence.order.foldl turn (fun _ => 0, 0) =
      LongestPath.table sequence.sourcesAt (sequence.weightAt weight)
        (sequence.order.map StepId.index) := by
  rw [LongestPath.table, foldl_map]
  apply foldl_ext
  intro table id member
  have live := ((order_of_build accepted).2.1 id).mp member
  rcases (built_of_build accepted).find_of_live live with ⟨step, found, rfl, inside⟩
  exact turns table step inside found

/-- A path through the positions is a dependency chain. -/
theorem isPath_iff {positions : List Nat} :
    LongestPath.IsPath sequence.sourcesAt (sequence.order.map StepId.index) positions ↔
      ∃ chain, sequence.IsDependencyChain chain ∧
        chain.map (fun step => step.id.index) = positions := by
  have built := built_of_build accepted
  have complete := (order_of_build accepted).2.1
  have chainIff : ∀ chain : List {step : Step // step ∈ sequence.steps},
      (chain.map fun step => step.1.id.index).IsChain
          (fun source node => source ∈ sequence.sourcesAt node) ↔
        (chain.map Subtype.val).IsChain fun earlier later => earlier.id ∈ later.after := by
    intro chain
    rw [isChain_map, isChain_map]
    simp only [built.mem_sourcesAt_iff (Subtype.property _) (Subtype.property _)]
  constructor
  · rintro ⟨chained, inside⟩
    have covered : positions ∈ Set.range
        (List.map fun step : {step : Step // step ∈ sequence.steps} => step.1.id.index) := by
      rw [Set.range_list_map]
      intro position member
      rcases mem_map.mp (inside position member) with ⟨id, inOrder, rfl⟩
      rcases (complete id).mp inOrder with ⟨step, inSteps, rfl⟩
      exact ⟨⟨step, inSteps⟩, rfl⟩
    rcases covered with ⟨chain, rfl⟩
    refine ⟨chain.map Subtype.val, ⟨?_, (chainIff chain).mp chained⟩, ?_⟩
    · intro step member
      rcases mem_map.mp member with ⟨inner, _, rfl⟩
      exact inner.2
    · rw [map_map]
      rfl
  · rintro ⟨chain, ⟨inside, chained⟩, rfl⟩
    lift chain to List {step : Step // step ∈ sequence.steps} using inside
    refine ⟨?_, ?_⟩
    · rw [map_map]
      exact (chainIff chain).mpr chained
    intro position member
    rcases mem_map.mp member with ⟨step, inChain, rfl⟩
    rcases mem_map.mp inChain with ⟨inner, _, rfl⟩
    apply mem_map_of_mem
    exact (complete _).mpr ⟨inner.1, inner.2, rfl⟩

/-- The largest entry of a table over the order is the largest weight of a chain. -/
theorem isGreatest_chains [AddCommMonoid α] [LinearOrder α] [IsOrderedAddMonoid α]
    (weight : Step → α) :
    IsGreatest {total | ∃ chain, sequence.IsDependencyChain chain ∧ (chain.map weight).sum = total}
      (LongestPath.table sequence.sourcesAt (sequence.weightAt weight)
        (sequence.order.map StepId.index)).2 := by
  have built := built_of_build accepted
  have weightsEq : ∀ {chain}, sequence.IsDependencyChain chain →
      (chain.map fun step => step.id.index).map (sequence.weightAt weight) = chain.map weight := by
    intro chain isChain
    rw [map_map]
    apply map_congr_left
    intro step member
    exact built.weightAt_eq (isChain.inside step member)
  convert LongestPath.isGreatest_table (linear_of_build accepted) (sequence.weightAt weight) using 1
  ext total
  constructor
  · rintro ⟨chain, isChain, rfl⟩
    exact ⟨_, (isPath_iff accepted).mpr ⟨chain, isChain, rfl⟩, by rw [weightsEq isChain]⟩
  · rintro ⟨positions, isPath, rfl⟩
    rcases (isPath_iff accepted).mp isPath with ⟨chain, isChain, rfl⟩
    exact ⟨chain, isChain, by rw [weightsEq isChain]⟩

end

end Grab.Kernel.Sequence
