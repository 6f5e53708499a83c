import Mathlib.Order.Basic
import Mathlib.Data.Nat.Find
import Mathlib.Algebra.Ring.Nat
import Grab.Lib.Search

/-!
# Graph traversal

Breadth-first search by levels and depth-first search with an explicit stack, over
a successor function.  Both visit exactly the nodes reachable from the start, each
once, when the fuel covers a finite set of nodes that the successor function never
leaves; the breadth-first order never goes back to a smaller distance.
-/

namespace Grab.Lib.Traversal

open Search Relation List

universe u

variable {α : Type u}

/-- Walks of a given number of edges. -/
def Walk (out : α → List α) : Nat → α → α → Prop
  | 0, source, target => source = target
  | length + 1, source, target => ∃ last, Walk out length source last ∧ target ∈ out last

/-- The first node is no further from the start than the second. -/
def NoFurther (out : α → List α) (start first second : α) : Prop :=
  ∀ length, Walk out length start second → ∃ shorter ≤ length, Walk out shorter start first

variable {out : α → List α} {space : List α} {start node : α} {near far : Nat}

theorem reaches_iff {source target : α} :
    ReflTransGen (Edge out) source target ↔ ∃ length, Walk out length source target := by
  constructor
  · intro path
    induction path with
    | refl => exact ⟨0, rfl⟩
    | tail _ edge ih =>
      rcases ih with ⟨length, walk⟩
      exact ⟨length + 1, _, walk, edge⟩
  rintro ⟨length, walk⟩
  induction length generalizing target with
  | zero =>
    obtain rfl : source = target := walk
    exact .refl
  | succ length ih =>
    rcases walk with ⟨last, walk, edge⟩
    exact (ih walk).tail edge

/-- A node at an exact distance from the start. -/
def AtDistance (out : α → List α) (start : α) (distance : Nat) (node : α) : Prop :=
  Walk out distance start node ∧ ∀ shorter < distance, ¬Walk out shorter start node

theorem exists_distance {length : Nat} (walk : Walk out length start node) :
    ∃ distance ≤ length, AtDistance out start distance node := by
  classical
  have exists_walk : ∃ length, Walk out length start node := ⟨length, walk⟩
  exact ⟨Nat.find exists_walk, Nat.find_min' exists_walk walk, Nat.find_spec exists_walk,
    fun shorter less => Nat.find_min exists_walk less⟩

theorem distance_unique (nearAt : AtDistance out start near node)
    (farAt : AtDistance out start far node) : near = far := by
  rcases Nat.lt_trichotomy near far with less | same | less
  · exact absurd nearAt.1 (farAt.2 near less)
  · exact same
  · exact absurd farAt.1 (nearAt.2 far less)

theorem noFurther_of_distances {start first second : α} (nearEq : AtDistance out start near first)
    (farEq : AtDistance out start far second) (ordered : near ≤ far) :
    NoFurther out start first second := by
  intro length walk
  refine ⟨near, ?_, nearEq.1⟩
  by_contra longer
  exact farEq.2 length (by omega) walk

variable [DecidableEq α] {search : α → List α}

/-! ## Breadth first -/

/-- Visit the frontier, then the nodes it leads to that were not seen. -/
def breadthFirst (out : α → List α) : Nat → List α → List α → List α
  | 0, _, _ => []
  | _ + 1, [], _ => []
  | fuel + 1, node :: frontier, seen =>
    let next := fresh seen ((node :: frontier).flatMap out)
    (node :: frontier) ++ breadthFirst out fuel next (seen ++ next)

/-- The frontier holds the nodes at one distance and the seen nodes are those up to it. -/
structure Level (out : α → List α) (start : α) (distance : Nat) (frontier seen : List α) :
    Prop where
  mem_frontier : ∀ node, node ∈ frontier ↔ AtDistance out start distance node
  mem_seen : ∀ node, node ∈ seen ↔ ∃ length ≤ distance, Walk out length start node
  frontierOnce : frontier.Nodup
  seenOnce : seen.Nodup

section

omit [DecidableEq α] in
theorem level_start (out : α → List α) (start : α) : Level out start 0 [start] [start] where
  mem_frontier node := by simp [AtDistance, Walk, eq_comm]
  mem_seen node := by simp [Walk, eq_comm]
  frontierOnce := nodup_singleton start
  seenOnce := nodup_singleton start

variable {frontier seen : List α} {distance : Nat}

theorem Level.next (level : Level out start distance frontier seen) :
    Level out start (distance + 1) (fresh seen (frontier.flatMap out))
      (seen ++ fresh seen (frontier.flatMap out)) := by
  have nextIff : ∀ node, node ∈ fresh seen (frontier.flatMap out) ↔
      AtDistance out start (distance + 1) node := by
    intro node
    rw [mem_fresh_iff, mem_flatMap, level.mem_seen]
    constructor
    · rintro ⟨⟨last, inFrontier, edge⟩, unseen⟩
      refine ⟨⟨last, ((level.mem_frontier last).mp inFrontier).1, edge⟩, ?_⟩
      intro shorter less walk
      exact unseen ⟨shorter, by omega, walk⟩
    rintro ⟨⟨last, walk, edge⟩, minimal⟩
    constructor
    · refine ⟨last, (level.mem_frontier last).mpr ⟨walk, ?_⟩, edge⟩
      intro shorter less shortWalk
      exact minimal (shorter + 1) (by omega) ⟨last, shortWalk, edge⟩
    · rintro ⟨length, bounded, shortWalk⟩
      exact minimal length (by omega) shortWalk
  constructor
  case mem_frontier => exact nextIff
  case mem_seen =>
    intro node
    rw [mem_append, nextIff, level.mem_seen]
    constructor
    · rintro (⟨length, bounded, walk⟩ | ⟨walk, _⟩)
      · exact ⟨length, by omega, walk⟩
      · exact ⟨distance + 1, Nat.le_refl _, walk⟩
    rintro ⟨length, bounded, walk⟩
    rcases exists_distance walk with ⟨exactly, shorter, isAt⟩
    by_cases last : exactly = distance + 1
    · exact .inr (last ▸ isAt)
    · exact .inl ⟨exactly, by omega, isAt.1⟩
  case frontierOnce => exact fresh_nodup _ _
  case seenOnce => exact append_fresh_nodup level.seenOnce _

omit [DecidableEq α] in
/-- On the way to a distant node there is one at every smaller distance. -/
theorem exists_at_distance {distance far : Nat} {node : α} (beyond : distance ≤ far)
    (isAt : AtDistance out start far node) : ∃ middle, AtDistance out start distance middle := by
  induction far generalizing node with
  | zero =>
    obtain rfl : distance = 0 := by omega
    exact ⟨node, isAt⟩
  | succ far ih =>
    by_cases here : distance = far + 1
    · exact ⟨node, here ▸ isAt⟩
    rcases isAt.1 with ⟨last, walk, edge⟩
    apply @ih last (by omega)
    refine ⟨walk, ?_⟩
    intro shorter less shortWalk
    exact isAt.2 (shorter + 1) (by omega) ⟨last, shortWalk, edge⟩

omit [DecidableEq α] in
theorem Level.nothing (level : Level out start distance frontier seen) (empty : frontier = [])
    (node : α) : ¬∃ far ≥ distance, AtDistance out start far node := by
  rintro ⟨far, beyond, isAt⟩
  rcases exists_at_distance beyond isAt with ⟨middle, middleAt⟩
  have inFrontier := (level.mem_frontier middle).mpr middleAt
  rw [empty] at inFrontier
  cases inFrontier

variable (closed : ∀ node ∈ space, out node ⊆ space)

include closed

/-- The search from a level visits what lies at least as far, in order of distance. -/
theorem breadthFirst_from {fuel distance : Nat} (level : Level out start distance frontier seen)
    (seenSpace : seen ⊆ space) (enough : frontier ≠ [] → space.length < fuel + seen.length) :
    (∀ node, node ∈ breadthFirst out fuel frontier seen ↔
        ∃ far ≥ distance, AtDistance out start far node) ∧
      (breadthFirst out fuel frontier seen).Nodup ∧
      (breadthFirst out fuel frontier seen).Pairwise (NoFurther out start) := by
  induction fuel generalizing distance frontier seen with
  | zero =>
    have empty : frontier = [] := by
      by_contra nonempty
      have bounded := (level.seenOnce.subperm seenSpace).length_le
      have := enough nonempty
      omega
    refine ⟨fun node => ?_, nodup_nil, List.Pairwise.nil⟩
    exact iff_of_false not_mem_nil (level.nothing empty node)
  | succ fuel ih =>
    cases frontier with
    | nil =>
      refine ⟨fun node => ?_, nodup_nil, List.Pairwise.nil⟩
      exact iff_of_false not_mem_nil (level.nothing rfl node)
    | cons first frontier =>
      have nextLevel := level.next
      have nextSpace : seen ++ fresh seen ((first :: frontier).flatMap out) ⊆ space := by
        rw [append_subset]
        refine ⟨seenSpace, ?_⟩
        intro node member
        rcases mem_flatMap.mp (mem_fresh_iff.mp member).1 with ⟨last, inFrontier, edge⟩
        have lastSeen : last ∈ seen :=
          (level.mem_seen last).mpr
            ⟨distance, Nat.le_refl _, ((level.mem_frontier last).mp inFrontier).1⟩
        exact closed last (seenSpace lastSeen) edge
      have nextEnough : fresh seen ((first :: frontier).flatMap out) ≠ [] →
          space.length < fuel + (seen ++ fresh seen ((first :: frontier).flatMap out)).length := by
        intro nonempty
        have := enough (cons_ne_nil _ _)
        have := length_pos_iff.mpr nonempty
        rw [length_append]
        omega
      rcases ih nextLevel nextSpace nextEnough with
        ⟨laterIff, laterOnce, laterOrdered⟩
      refine ⟨?_, ?_, ?_⟩
      · intro node
        rw [breadthFirst, mem_append, laterIff, level.mem_frontier]
        constructor
        · rintro (isAt | ⟨far, beyond, isAt⟩)
          · exact ⟨distance, Nat.le_refl _, isAt⟩
          · exact ⟨far, by omega, isAt⟩
        rintro ⟨far, beyond, isAt⟩
        by_cases here : far = distance
        · exact .inl (here ▸ isAt)
        · exact .inr ⟨far, by omega, isAt⟩
      · rw [breadthFirst]
        apply Nodup.append level.frontierOnce laterOnce
        intro node inFrontier inLater
        have isAt := (level.mem_frontier node).mp inFrontier
        rcases (laterIff node).mp inLater with ⟨far, beyond, _, minimal⟩
        exact minimal distance (by omega) isAt.1
      · rw [breadthFirst, pairwise_append]
        refine ⟨?_, laterOrdered, ?_⟩
        · apply pairwise_of_forall_mem_list
          intro node inFrontier other otherFrontier
          exact noFurther_of_distances ((level.mem_frontier node).mp inFrontier)
            ((level.mem_frontier other).mp otherFrontier) (Nat.le_refl _)
        · intro node inFrontier other inLater
          rcases (laterIff other).mp inLater with ⟨far, beyond, isAt⟩
          exact noFurther_of_distances ((level.mem_frontier node).mp inFrontier) isAt (by omega)

/-- A breadth-first search visits the reachable nodes, each once, in order of distance. -/
theorem breadthFirst_exact (startSpace : start ∈ space) {fuel : Nat} (enough : space.length ≤ fuel)
    : (∀ node, node ∈ breadthFirst out fuel [start] [start] ↔ ReflTransGen (Edge out) start node) ∧
      (breadthFirst out fuel [start] [start]).Nodup ∧
      (breadthFirst out fuel [start] [start]).Pairwise (NoFurther out start) := by
  have seenSpace : [start] ⊆ space := by simpa using startSpace
  have search := breadthFirst_from closed (level_start out start) seenSpace
    fun _ => Nat.lt_succ_of_le enough
  refine ⟨?_, search.2⟩
  intro node
  rw [search.1, reaches_iff]
  constructor
  · rintro ⟨far, _, isAt⟩
    exact ⟨far, isAt.1⟩
  · rintro ⟨length, walk⟩
    rcases exists_distance walk with ⟨far, _, isAt⟩
    exact ⟨far, Nat.zero_le far, isAt⟩

end

/-! ## Searching from several starts -/

/-- A list in breadth-first order from several starts: for each start in turn the
nodes it reaches that are not listed before, in order of their distance from it. -/
def BreadthFirstOrder (out : α → List α) : List α → List α → List α → Prop
  | [], _, order => order = []
  | start :: starts, earlier, order =>
    ∃ block later, order = block ++ later ∧ block.Nodup ∧
      (∀ node, node ∈ block ↔ ReflTransGen (Edge out) start node ∧ node ∉ earlier) ∧
      block.Pairwise (NoFurther out start) ∧
      BreadthFirstOrder out starts (earlier ++ block) later

/-- List the nodes a search from each start finds, each once. -/
def sweep (search : α → List α) (order : List α) (start : α) : List α :=
  order ++ fresh order (search start)

theorem fresh_sublist (found successors : List α) :
    (fresh found successors).Sublist successors := by
  induction successors generalizing found with
  | nil => exact Sublist.refl []
  | cons first rest ih =>
    rw [fresh]
    split
    · exact (ih found).cons first
    · exact (ih _).cons_cons first

theorem breadthFirstOrder_sweep {out : α → List α} {starts earlier : List α}
    (searches : ∀ start ∈ starts,
      (∀ node, node ∈ search start ↔ ReflTransGen (Edge out) start node) ∧
        (search start).Nodup ∧ (search start).Pairwise (NoFurther out start)) :
    ∃ order, starts.foldl (sweep search) earlier = earlier ++ order ∧
      BreadthFirstOrder out starts earlier order := by
  induction starts generalizing earlier with
  | nil => exact ⟨[], (append_nil _).symm, rfl⟩
  | cons start rest ih =>
    rcases searches start mem_cons_self with ⟨reaches, once, ordered⟩
    rcases @ih (earlier ++ fresh earlier (search start))
      (fun other member => searches other (mem_cons_of_mem _ member)) with
      ⟨later, swept, laterOrder⟩
    refine ⟨fresh earlier (search start) ++ later, ?_, fresh earlier (search start), later,
      rfl, fresh_nodup _ _, ?_, ordered.sublist (fresh_sublist _ _), laterOrder⟩
    · rw [foldl_cons, sweep, swept, append_assoc]
    · intro node
      rw [mem_fresh_iff, reaches]

/-- The list holds what the starts reach, each node once. -/
theorem BreadthFirstOrder.exact {starts earlier order : List α}
    (isOrder : BreadthFirstOrder out starts earlier order) :
    order.Nodup ∧ ∀ node, node ∈ order ↔
      (∃ start ∈ starts, ReflTransGen (Edge out) start node) ∧ node ∉ earlier := by
  induction starts generalizing earlier order with
  | nil =>
    obtain rfl : order = [] := isOrder
    simp
  | cons start rest ih =>
    rcases isOrder with ⟨block, later, rfl, blockOnce, blockIff, _, laterOrder⟩
    rcases ih laterOrder with ⟨laterOnce, laterIff⟩
    constructor
    · apply blockOnce.append laterOnce
      intro node inBlock inLater
      exact ((laterIff node).mp inLater).2 (mem_append_right _ inBlock)
    intro node
    rw [mem_append, blockIff, laterIff, mem_append, blockIff]
    simp only [mem_cons, exists_eq_or_imp]
    tauto

/-- A start that is listed already adds nothing. -/
theorem sweep_of_mem {order : List α} {start : α} (closed : search start ⊆ order) :
    sweep search order start = order := by
  have nothing : fresh order (search start) = [] := by
    rw [eq_nil_iff_forall_not_mem]
    intro node member
    exact (mem_fresh_iff.mp member).2 (closed (mem_fresh_iff.mp member).1)
  rw [sweep, nothing, append_nil]

/-! ## Depth first -/

/-- Visit the top of the stack if it was not seen, and push its unseen successors. -/
def depthFirst (out : α → List α) : Nat → List α → List α → List α
  | 0, _, seen => seen
  | _ + 1, [], seen => seen
  | fuel + 1, node :: pending, seen =>
    if node ∈ seen then depthFirst out fuel pending seen
    else
      depthFirst out fuel ((out node).filter (· ∉ seen ++ [node]) ++ pending) (seen ++ [node])

/-- Edges out of the nodes of a space that were not seen. -/
def unseenEdges (out : α → List α) (space seen : List α) : Nat :=
  ((space.filter (· ∉ seen)).map fun node => (out node).length).sum

section

theorem unseenEdges_visit {space seen : List α} {node : α} (inside : node ∈ space)
    (unseen : node ∉ seen) :
    unseenEdges out space (seen ++ [node]) + (out node).length ≤ unseenEdges out space seen := by
  have shrinks : ∀ rest : List α,
      unseenEdges out rest (seen ++ [node]) ≤ unseenEdges out rest seen := by
    intro rest
    induction rest with
    | nil => exact Nat.le_refl _
    | cons first rest ih =>
      unfold unseenEdges at ih ⊢
      by_cases old : first ∈ seen
      · simpa [old] using ih
      by_cases same : first = node
      · simp only [filter_cons, mem_append, same, mem_singleton, or_true,
          not_true_eq_false, decide_false, unseen, not_false_eq_true, decide_true, if_true,
          map_cons, sum_cons]
        simp only [mem_append, mem_singleton] at ih
        have step := ih
        split
        · contradiction
        · omega
      · simp only [filter_cons, mem_append, old, same, mem_singleton,
          or_false, not_false_eq_true, decide_true, if_true, map_cons, sum_cons]
        simp only [mem_append, mem_singleton] at ih
        omega
  induction space with
  | nil => cases inside
  | cons first rest ih =>
    by_cases same : first = node
    · subst same
      have shrunk := shrinks rest
      unfold unseenEdges at shrunk ⊢
      simp only [filter_cons, mem_append, mem_singleton, or_true,
        not_true_eq_false, decide_false, unseen, not_false_eq_true, decide_true, if_true,
        map_cons, sum_cons]
      simp only [mem_append, mem_singleton] at shrunk
      split
      · contradiction
      · omega
    · have inRest : node ∈ rest := by
        rcases mem_cons.mp inside with here | inRest
        · exact absurd here.symm same
        · exact inRest
      have later := ih inRest
      unfold unseenEdges at later ⊢
      by_cases old : first ∈ seen
      · simpa [old] using later
      simp only [filter_cons, mem_append, old, same, mem_singleton,
        or_false, not_false_eq_true, decide_true, if_true, map_cons, sum_cons]
      simp only [mem_append, mem_singleton] at later
      omega

variable {fuel : Nat} {pending seen : List α}

/-- What the recursive search lists after `seen` when it is to visit some nodes one after the
other, each followed by its successors. -/
inductive InPreorder (out : α → List α) : List α → List α → List α → Prop
  | nil {seen : List α} : InPreorder out seen [] seen
  | old {seen rest order : List α} {node : α} (member : node ∈ seen)
      (later : InPreorder out seen rest order) : InPreorder out seen (node :: rest) order
  | visit {seen rest middle order : List α} {node : α} (unseen : node ∉ seen)
      (below : InPreorder out (seen ++ [node]) (out node) middle)
      (later : InPreorder out middle rest order) : InPreorder out seen (node :: rest) order

namespace InPreorder

variable {order first second : List α}

omit [DecidableEq α] in
theorem subset (listed : InPreorder out seen pending order) : seen ⊆ order := by
  induction listed with
  | nil => exact Subset.refl _
  | old _ _ ih => exact ih
  | visit _ _ _ below later =>
    exact fun node member => later (below (mem_append_left _ member))

omit [DecidableEq α] in
theorem append (listed : InPreorder out seen (first ++ second) order) :
    ∃ middle, InPreorder out seen first middle ∧ InPreorder out middle second order := by
  induction first generalizing seen with
  | nil => exact ⟨seen, .nil, listed⟩
  | cons node first ih =>
    cases listed with
    | old member later =>
      rcases ih later with ⟨middle, head, tail⟩
      exact ⟨middle, .old member head, tail⟩
    | visit unseen below later =>
      rcases ih later with ⟨middle, head, tail⟩
      exact ⟨middle, .visit unseen below head, tail⟩

omit [DecidableEq α] in
theorem nodup (listed : InPreorder out seen pending order) (once : seen.Nodup) : order.Nodup := by
  induction listed with
  | nil => exact once
  | old _ _ ih => exact ih once
  | visit unseen _ _ below later =>
    exact later (below (nodup_append.mpr ⟨once, nodup_singleton _, by grind⟩))

omit [DecidableEq α] in
theorem sound (listed : InPreorder out seen pending order) :
    ∀ node ∈ order, node ∈ seen ∨ ∃ source ∈ pending, ReflTransGen (Edge out) source node := by
  induction listed with
  | nil => exact fun _ => .inl
  | old _ _ ih => exact fun node member => (ih node member).imp_right fun ⟨source, known, path⟩ =>
      ⟨source, mem_cons_of_mem _ known, path⟩
  | @visit seen rest middle order top unseen _ _ below later =>
    intro node member
    rcases later node member with inMiddle | ⟨source, known, path⟩
    · rcases below node inMiddle with old | ⟨source, edge, path⟩
      · rcases mem_append.mp old with old | new
        · exact .inl old
        · exact .inr ⟨top, mem_cons_self, mem_singleton.mp new ▸ .refl⟩
      · exact .inr ⟨top, mem_cons_self, .head edge path⟩
    · exact .inr ⟨source, mem_cons_of_mem _ known, path⟩

omit [DecidableEq α] in
theorem pending_subset (listed : InPreorder out seen pending order) : pending ⊆ order := by
  induction listed with
  | nil => exact nil_subset _
  | old member later ih => exact cons_subset.mpr ⟨later.subset member, ih⟩
  | visit _ below later _ ih =>
    exact cons_subset.mpr ⟨later.subset (below.subset (by simp)), ih⟩

omit [DecidableEq α] in
/-- What is visited is followed by all it leads to. -/
theorem expanded (listed : InPreorder out seen pending order) :
    ∀ node ∈ order, node ∉ seen → out node ⊆ order := by
  induction listed with
  | nil => exact fun _ member unseen => absurd member unseen
  | old _ _ ih => exact ih
  | @visit seen rest middle order top unseen below later belowIh ih =>
    intro node member new
    by_cases early : node ∈ middle
    · apply Subset.trans _ later.subset
      by_cases here : node = top
      · exact here ▸ below.pending_subset
      · exact belowIh node early (by simp [new, here])
    · exact ih node member early

/-- Nodes that were seen may be left out. -/
theorem of_filter {known : List α} (inside : known ⊆ seen)
    (listed : InPreorder out seen (pending.filter (· ∉ known)) order) :
    InPreorder out seen pending order := by
  induction pending generalizing seen with
  | nil => exact listed
  | cons node pending ih =>
    rw [filter_cons] at listed
    split at listed
    · cases listed with
      | old member later => exact .old member (ih inside later)
      | visit unseen below later =>
        have grown : known ⊆ _ := fun other member =>
          below.subset (mem_append_left _ (inside member))
        exact .visit unseen below (ih grown later)
    · rename_i isKnown
      exact .old (inside (by simpa using isKnown)) (ih inside listed)

end InPreorder

variable (closed : ∀ node ∈ space, out node ⊆ space)

include closed

/-- The explicit stack lists the nodes as the recursive search does. -/
theorem depthFirst_preorder (pendingSpace : pending ⊆ space)
    (enough : pending.length + unseenEdges out space seen ≤ fuel) :
    InPreorder out seen pending (depthFirst out fuel pending seen) := by
  induction fuel generalizing pending seen with
  | zero =>
    obtain rfl : pending = [] := eq_nil_of_length_eq_zero (by omega)
    exact .nil
  | succ fuel ih =>
    cases pending with
    | nil => exact .nil
    | cons first pending =>
      rcases cons_subset.mp pendingSpace with ⟨firstSpace, restSpace⟩
      rw [length_cons] at enough
      rw [depthFirst]
      split
      · rename_i old
        exact .old old (ih restSpace (by omega))
      rename_i unseen
      have visit := @unseenEdges_visit _ out _ _ _ _ firstSpace unseen
      have pushed := length_filter_le (· ∉ seen ++ [first]) (out first)
      have later := @ih ((out first).filter (· ∉ seen ++ [first]) ++ pending) (seen ++ [first])
        (append_subset.mpr
          ⟨fun _ member => closed first firstSpace (mem_of_mem_filter member), restSpace⟩)
        (by rw [length_append]; omega)
      rcases later.append with ⟨middle, below, rest⟩
      exact .visit unseen (.of_filter (Subset.refl _) below) rest

/-- A depth-first search visits the reachable nodes, each once, in the order of the recursive
search. -/
theorem depthFirst_exact {start : α} (startSpace : start ∈ space)
    (enough : 1 + unseenEdges out space [] ≤ fuel) :
    (∀ node, node ∈ depthFirst out fuel [start] [] ↔ ReflTransGen (Edge out) start node) ∧
      (depthFirst out fuel [start] []).Nodup ∧
      InPreorder out [] [start] (depthFirst out fuel [start] []) := by
  have pendingSpace : [start] ⊆ space := by simpa using startSpace
  have listed := depthFirst_preorder closed pendingSpace enough
  refine ⟨?_, listed.nodup nodup_nil, listed⟩
  intro node
  constructor
  · intro member
    rcases listed.sound node member with impossible | ⟨source, isStart, path⟩
    · cases impossible
    · rw [mem_singleton.mp isStart] at path
      exact path
  intro path
  induction path with
  | refl => exact listed.pending_subset (mem_singleton_self start)
  | tail _ edge reached => exact listed.expanded _ reached not_mem_nil edge

end

end Grab.Lib.Traversal
