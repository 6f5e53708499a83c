import Mathlib.Data.List.Nodup
import Mathlib.Data.List.Perm.Subperm

/-!
# Worklist search

A breadth-first search keeps a queue of nodes still to be expanded and the list
of nodes found so far, which doubles as the visited set.  `expand` adds the
successors of one node that have not been found yet; `explore` expands the
queue from the front until it is empty or the fuel is used up.

The result is exactly the set of nodes reachable from the queue as soon as the
fuel covers the nodes of a finite universe that the successor function never
leaves.
-/

namespace Grab.Lib.Search

open List

universe u

variable {α : Type u} [DecidableEq α] {node : α}

/-- Nodes of a successor list that are not found yet, each once and in order. -/
def fresh (found : List α) : List α → List α
  | [] => []
  | node :: rest =>
    if node ∈ found then fresh found rest
    else node :: fresh (found ++ [node]) rest

/-- Expand the queue front to back. -/
def explore (next : α → List α) : Nat → List α → List α → List α
  | 0, _, found => found
  | _ + 1, [], found => found
  | fuel + 1, node :: queue, found =>
    explore next fuel (queue ++ fresh found (next node)) (found ++ fresh found (next node))

theorem mem_fresh_iff {found successors : List α} :
    node ∈ fresh found successors ↔ node ∈ successors ∧ node ∉ found := by
  induction successors generalizing found with
  | nil => simp [fresh]
  | cons first rest ih =>
    by_cases member : first ∈ found
    · rw [fresh, if_pos member, ih, mem_cons]
      constructor
      · rintro ⟨inRest, absent⟩
        exact ⟨.inr inRest, absent⟩
      · rintro ⟨rfl | inRest, absent⟩
        · exact absurd member absent
        · exact ⟨inRest, absent⟩
    · rw [fresh, if_neg member, mem_cons, ih, mem_cons]
      by_cases equal : node = first
      · subst node
        simp [member]
      · simp [equal]

theorem fresh_nodup (found successors : List α) : (fresh found successors).Nodup := by
  induction successors generalizing found with
  | nil => exact nodup_nil
  | cons first rest ih =>
    rw [fresh]
    split
    · exact ih found
    · rw [nodup_cons, mem_fresh_iff]
      exact ⟨fun inside => inside.2 (by simp), ih _⟩

theorem append_fresh_nodup {found : List α} (nodup : found.Nodup) (successors : List α) :
    (found ++ fresh found successors).Nodup := by
  rw [nodup_append]
  refine ⟨nodup, fresh_nodup found successors, ?_⟩
  intro first firstMem second secondMem equal
  subst second
  exact (mem_fresh_iff.mp secondMem).2 firstMem

variable (next : α → List α)

/-- One successor step of the searched graph. -/
def Edge (source target : α) : Prop := target ∈ next source

variable {next} {fuel : Nat} {queue found : List α} {space : List α}

theorem subset_explore (member : node ∈ found) : node ∈ explore next fuel queue found := by
  induction fuel generalizing queue found with
  | zero => exact member
  | succ fuel ih =>
    cases queue with
    | nil => exact member
    | cons first queue => exact ih (mem_append_left _ member)

theorem explore_nodup (nodup : found.Nodup) : (explore next fuel queue found).Nodup := by
  induction fuel generalizing queue found with
  | zero => exact nodup
  | succ fuel ih =>
    cases queue with
    | nil => exact nodup
    | cons first queue => exact ih (append_fresh_nodup nodup _)

/-- Everything found was there at the start or is reached from the queue by at
least one edge. -/
theorem explore_sound (member : node ∈ explore next fuel queue found) :
    node ∈ found ∨ ∃ source ∈ queue, Relation.TransGen (Edge next) source node := by
  induction fuel generalizing queue found with
  | zero => exact .inl member
  | succ fuel ih =>
    cases queue with
    | nil => exact .inl member
    | cons first queue =>
      rcases ih member with inFound | ⟨source, sourceMem, path⟩
      · rcases mem_append.mp inFound with old | new
        · exact .inl old
        · exact .inr ⟨first, mem_cons_self, Relation.TransGen.single (mem_fresh_iff.mp new).1⟩
      · rcases mem_append.mp sourceMem with old | new
        · exact .inr ⟨source, mem_cons_of_mem first old, path⟩
        · exact .inr ⟨first, mem_cons_self, Relation.TransGen.head (mem_fresh_iff.mp new).1 path⟩

variable (closed : ∀ node ∈ space, next node ⊆ space)

include closed

/-- Expanded nodes are those whose successors have all been found.  When the
fuel covers the rest of a finite universe, no node is left unexpanded. -/
theorem explore_closed (nodup : found.Nodup) (queueSpace : queue ⊆ space)
    (foundSpace : found ⊆ space) (enough : queue.length + space.length ≤ fuel + found.length)
    (expanded : ∀ node ∈ found, node ∈ queue ∨ next node ⊆ found) :
    (∀ node ∈ queue, next node ⊆ explore next fuel queue found) ∧
      ∀ node ∈ explore next fuel queue found, next node ⊆ explore next fuel queue found := by
  induction fuel generalizing queue found with
  | zero =>
    -- A duplicate-free list of nodes of the space is no longer than the space.
    have length := (nodup.subperm foundSpace).length_le
    have queueNil : queue = [] := eq_nil_of_length_eq_zero (by omega)
    subst queue
    refine ⟨by simp, ?_⟩
    intro node member
    exact (expanded node member).resolve_left not_mem_nil
  | succ fuel ih =>
    cases queue with
    | nil =>
      refine ⟨by simp, ?_⟩
      intro node member
      exact (expanded node member).resolve_left not_mem_nil
    | cons first queue =>
      have firstSpace : first ∈ space := queueSpace mem_cons_self
      have newSpace : fresh found (next first) ⊆ space := fun node member =>
        closed first firstSpace (mem_fresh_iff.mp member).1
      have firstClosed : next first ⊆ found ++ fresh found (next first) := by
        intro node member
        by_cases old : node ∈ found
        · exact mem_append_left _ old
        · exact mem_append_right _ (mem_fresh_iff.mpr ⟨member, old⟩)
      obtain ⟨queueClosed, allClosed⟩ := ih (append_fresh_nodup nodup (next first))
        (append_subset.mpr ⟨fun node member => queueSpace (mem_cons_of_mem _ member), newSpace⟩)
        (append_subset.mpr ⟨foundSpace, newSpace⟩)
        (by simp only [length_append, length_cons] at *; omega)
        (by
          intro node member
          rcases mem_append.mp member with old | new
          · rcases expanded node old with inQueue | closedNode
            · rcases mem_cons.mp inQueue with rfl | inQueue
              · exact .inr firstClosed
              · exact .inl (mem_append_left _ inQueue)
            · exact .inr fun target targetMem =>
                mem_append_left _ (closedNode targetMem)
          · exact .inl (mem_append_right _ new))
      refine ⟨?_, allClosed⟩
      intro node member
      rcases mem_cons.mp member with rfl | inQueue
      · intro target targetMem
        rw [explore]
        exact subset_explore (firstClosed targetMem)
      · exact queueClosed node (mem_append_left _ inQueue)

/-- Completeness: with enough fuel everything reached by at least one edge from
the queue is found. -/
theorem explore_complete (nodup : found.Nodup) (queueSpace : queue ⊆ space)
    (foundSpace : found ⊆ space) (enough : queue.length + space.length ≤ fuel + found.length)
    (expanded : ∀ node ∈ found, node ∈ queue ∨ next node ⊆ found) {source target : α}
    (sourceMem : source ∈ queue) (path : Relation.TransGen (Edge next) source target) :
    target ∈ explore next fuel queue found := by
  obtain ⟨queueClosed, allClosed⟩ :=
    explore_closed closed nodup queueSpace foundSpace enough expanded
  induction path with
  | single edge => exact queueClosed source sourceMem edge
  | tail _ edge reached => exact allClosed _ reached edge

end Grab.Lib.Search
