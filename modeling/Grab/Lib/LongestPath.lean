import Mathlib.Algebra.BigOperators.Group.List.Basic
import Mathlib.Algebra.Order.Monoid.Defs
import Mathlib.Data.List.Chain
import Mathlib.Order.Bounds.Basic

/-!
# Longest paths through a linearized graph

A table filled in along an order in which every node comes after its sources: the entry of a
node is the latest entry of its sources plus its own weight.  The largest entry is the largest
weight of a chain.  The empty chain counts, so the largest entry is never below zero.
-/

namespace Grab.Lib.LongestPath

open List Function

variable {ι α : Type} [DecidableEq ι] [AddCommMonoid α] [LinearOrder α]

/-- The latest of the finishes at the sources, never below zero. -/
def latest (finish : ι → α) (sources : List ι) : α :=
  sources.foldl (fun ready source => max ready (finish source)) 0

/-- Fill in the entry of one node, and raise the latest of all. -/
def fill (sources : ι → List ι) (weight : ι → α) (table : (ι → α) × α) (node : ι) : (ι → α) × α :=
  let done := latest table.1 (sources node) + weight node
  (Function.update table.1 node done, max table.2 done)

/-- The table of a whole order. -/
def table (sources : ι → List ι) (weight : ι → α) (order : List ι) : (ι → α) × α :=
  order.foldl (fill sources weight) (fun _ => 0, 0)

/-- Every node comes once, after its sources. -/
structure Linear (sources : ι → List ι) (order : List ι) : Prop where
  nodup : order.Nodup
  earlier : ∀ before node rest, order = before ++ node :: rest →
    ∀ source ∈ sources node, source ∈ before

/-- A chain of nodes of the order, each a source of the next. -/
structure IsPath (sources : ι → List ι) (order chain : List ι) : Prop where
  chained : chain.IsChain fun source node => source ∈ sources node
  inside : ∀ node ∈ chain, node ∈ order

/-! ## The latest source -/

section

variable {finish other : ι → α} {sources : List ι}

omit [DecidableEq ι] [AddCommMonoid α] in
/-- A running maximum bounds what it ran over, and is its start or one of the values. -/
theorem foldl_max_spec (sources : List ι) (finish : ι → α) (start : α) :
    let ready := sources.foldl (fun ready source => max ready (finish source)) start
    start ≤ ready ∧ (∀ source ∈ sources, finish source ≤ ready) ∧
      (ready = start ∨ ∃ source ∈ sources, ready = finish source) := by
  induction sources generalizing start with
  | nil => exact ⟨le_rfl, forall_mem_nil _, .inl rfl⟩
  | cons first rest ih =>
    rcases ih (max start (finish first)) with ⟨lower, upper, attained⟩
    refine ⟨(le_max_left _ _).trans lower, ?_, ?_⟩
    · intro source member
      rcases mem_cons.mp member with rfl | member
      · exact (le_max_right _ _).trans lower
      · exact upper source member
    rcases attained with same | ⟨source, member, same⟩
    · rcases max_choice start (finish first) with left | right
      · exact .inl (same.trans left)
      · exact .inr ⟨first, mem_cons_self, same.trans right⟩
    · exact .inr ⟨source, mem_cons_of_mem _ member, same⟩

omit [DecidableEq ι] in
theorem latest_congr (same : ∀ source ∈ sources, other source = finish source) :
    latest other sources = latest finish sources := by
  apply foldl_ext
  intro ready source member
  rw [same source member]

end

/-! ## The table -/

section

variable {sources : ι → List ι} {weight : ι → α} {order : List ι} (linear : Linear sources order)
  {before rest : List ι}

include linear

omit [DecidableEq ι] in
/-- The sources of a node in front come in front as well. -/
theorem Linear.sources_mem (split : order = before ++ rest) {node : ι} (inFront : node ∈ before)
    {source : ι} (isSource : source ∈ sources node) : source ∈ before := by
  rcases append_of_mem inFront with ⟨front, back, rfl⟩
  apply mem_append_left
  apply linear.earlier front node (back ++ rest) _ source isSource
  rw [split, append_assoc, cons_append]

/-- What the entries of a part of the order that is filled in satisfy. -/
theorem Linear.filled (split : order = before ++ rest) :
    (∀ node ∈ before, (table sources weight before).1 node =
      latest (table sources weight before).1 (sources node) + weight node) ∧
      0 ≤ (table sources weight before).2 ∧
      (∀ node ∈ before, (table sources weight before).1 node ≤ (table sources weight before).2) ∧
      ((table sources weight before).2 = 0 ∨
        ∃ node ∈ before,
          (table sources weight before).2 = (table sources weight before).1 node) := by
  induction before using List.reverseRecOn generalizing rest with
  | nil =>
    refine ⟨?_, le_rfl, ?_, .inl rfl⟩
    · exact forall_mem_nil _
    · exact forall_mem_nil _
  | append_singleton before node ih =>
    rw [append_assoc] at split
    rcases ih split with ⟨entries, nonnegative, upper, attained⟩
    rw [table, foldl_append, foldl_cons, foldl_nil, ← table]
    generalize table sources weight before = earlier at entries nonnegative upper attained
    have fresh : node ∉ before := by
      intro again
      have nodup := linear.nodup
      rw [split] at nodup
      exact (nodup_append.mp nodup).2.2 _ again _ mem_cons_self rfl
    generalize doneEq : latest earlier.1 (sources node) + weight node = done
    have fillEq : fill sources weight earlier node =
        (Function.update earlier.1 node done, max earlier.2 done) := by
      rw [fill, doneEq]
    -- an entry that is filled in reads no entry that changes now
    have unchanged : ∀ other ∈ before,
        Function.update earlier.1 node done other = earlier.1 other := by
      rintro other inFront
      apply update_of_ne
      rintro rfl
      exact fresh inFront
    rw [fillEq]
    dsimp only
    refine ⟨?_, nonnegative.trans (le_max_left _ _), ?_, ?_⟩
    · intro other member
      have sourcesBefore : ∀ source ∈ sources other, source ∈ before := by
        rcases mem_append.mp member with inFront | last
        · exact fun source isSource => linear.sources_mem split inFront isSource
        · rw [mem_singleton.mp last]
          exact linear.earlier before node rest split
      rw [latest_congr fun source isSource =>
        unchanged source (sourcesBefore source isSource)]
      rcases mem_append.mp member with inFront | last
      · rw [unchanged other inFront]
        exact entries other inFront
      · rw [mem_singleton.mp last, update_self, doneEq]
    · intro other member
      rcases mem_append.mp member with inFront | last
      · rw [unchanged other inFront]
        exact (upper other inFront).trans (le_max_left _ _)
      · rw [mem_singleton.mp last, update_self]
        exact le_max_right _ _
    · rcases max_choice earlier.2 done with left | right
      · rcases attained with zero | ⟨other, inFront, same⟩
        · exact .inl (left.trans zero)
        · refine .inr ⟨other, mem_append_left _ inFront, ?_⟩
          rw [left, unchanged other inFront, same]
      · refine .inr ⟨node, mem_append_right _ (mem_singleton_self _), ?_⟩
        rw [right, update_self]

end

/-! ## Chains -/

section

variable [IsOrderedAddMonoid α] {sources : ι → List ι} {weight finish : ι → α} {order : List ι}
  (entries : ∀ node ∈ order, finish node = latest finish (sources node) + weight node)

include entries

omit [DecidableEq ι] in
/-- A chain weighs at most what the entry of its last node is. -/
theorem sum_le_finish {chain : List ι} {node : ι} (path : IsPath sources order (chain ++ [node])) :
    ((chain ++ [node]).map weight).sum ≤ finish node := by
  induction chain using List.reverseRecOn generalizing node with
  | nil =>
    rw [entries node (path.inside node mem_cons_self)]
    have nonnegative : 0 ≤ latest finish (sources node) :=
      (foldl_max_spec (sources node) finish 0).1
    simpa using le_add_of_nonneg_left nonnegative
  | append_singleton chain source ih =>
    have nodeIn := path.inside node (mem_append_right _ (mem_singleton_self _))
    have chained := path.chained
    rw [isChain_append] at chained
    have isSource : source ∈ sources node := chained.2.2 source (by simp) node (by simp)
    have shorter := ih ⟨chained.1, fun other member =>
      path.inside other (mem_append_left _ member)⟩
    rw [map_append, sum_append, map_singleton, sum_singleton, entries node nodeIn]
    apply add_le_add_left
    exact shorter.trans ((foldl_max_spec (sources node) finish 0).2.1 source isSource)

omit [IsOrderedAddMonoid α] [DecidableEq ι] in
/-- The entry of a node is the weight of a chain that ends in it. -/
theorem exists_path (linear : Linear sources order) {before rest : List ι}
    (split : order = before ++ rest) : ∀ node ∈ before, ∃ chain,
      IsPath sources order (chain ++ [node]) ∧
        ((chain ++ [node]).map weight).sum = finish node := by
  induction before using List.reverseRecOn generalizing rest with
  | nil => exact forall_mem_nil _
  | append_singleton before last ih =>
    rw [append_assoc] at split
    intro node member
    rcases mem_append.mp member with inFront | isLast
    · exact ih split node inFront
    rw [mem_singleton.mp isLast]
    have lastIn : last ∈ order := by simp [split]
    rcases (foldl_max_spec (sources last) finish 0).2.2 with start | ⟨source, isSource, same⟩
    · refine ⟨[], ⟨isChain_singleton _, by simpa using lastIn⟩, ?_⟩
      rw [entries last lastIn, latest, start]
      simp
    have inFront := linear.earlier before last rest split source isSource
    rcases ih split source inFront with ⟨chain, path, total⟩
    refine ⟨chain ++ [source], ⟨?_, ?_⟩, ?_⟩
    · rw [isChain_append]
      refine ⟨path.chained, isChain_singleton _, ?_⟩
      simpa using isSource
    · intro other member
      rcases mem_append.mp member with inChain | isLast
      · exact path.inside other inChain
      · exact mem_singleton.mp isLast ▸ lastIn
    · rw [map_append, sum_append, total, entries last lastIn, latest, same]
      simp

end

/-- The largest entry of the table is the largest weight of a chain. -/
theorem isGreatest_table [IsOrderedAddMonoid α] {sources : ι → List ι} {order : List ι}
    (linear : Linear sources order) (weight : ι → α) :
    IsGreatest {total | ∃ chain, IsPath sources order chain ∧ (chain.map weight).sum = total}
      (table sources weight order).2 := by
  have whole := (append_nil order).symm
  rcases @Linear.filled _ _ _ _ _ _ weight _ linear _ _ whole with
    ⟨entries, nonnegative, upper, attained⟩
  constructor
  · rcases attained with zero | ⟨node, member, same⟩
    · refine ⟨[], ⟨List.IsChain.nil, forall_mem_nil _⟩, ?_⟩
      rw [zero, map_nil, sum_nil]
    · rcases exists_path entries linear whole node member with
        ⟨chain, path, total⟩
      exact ⟨_, path, total.trans same.symm⟩
  rintro _ ⟨chain, path, rfl⟩
  induction chain using List.reverseRecOn with
  | nil => exact nonnegative
  | append_singleton chain node _ =>
    have member := path.inside node (mem_append_right _ (mem_singleton_self _))
    exact (sum_le_finish entries path).trans (upper node member)

end Grab.Lib.LongestPath
