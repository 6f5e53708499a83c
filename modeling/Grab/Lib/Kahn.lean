import Grab.Lib.Series
import Std.Data.ExtTreeMap

/-!
# Visiting a graph by counting open parents

A node is visited when all of its parents were, and every node keeps the number of its parents
that were not.  Parents are visited first, and the visit reaches all nodes exactly when the graph
has no cycle.
-/

namespace Grab.Lib

open List

universe u

variable {α : Type u} [DecidableEq α]

/-- Take one edge off a child, and queue the child with its last. -/
def release (state : List α × (α → Nat)) (child : α) : List α × (α → Nat) :=
  (if state.2 child - 1 = 0 then state.1 ++ [child] else state.1,
    Function.update state.2 child (state.2 child - 1))

/-- Visit the queued nodes, and list the visited ones. -/
def visit (children : α → List α) : Nat → List α → List α → (α → Nat) → List α
  | 0, walked, _, _ => walked
  | _ + 1, walked, [], _ => walked
  | fuel + 1, walked, current :: ready, remaining =>
    let next := (children current).foldl release (ready, remaining)
    visit children fuel (walked ++ [current]) next.1 next.2

theorem foldl_release {children ready : List α} {remaining : α → Nat} (once : children.Nodup) :
    children.foldl release (ready, remaining) =
      (ready ++ children.filter (fun child => remaining child - 1 = 0),
        fun node => remaining node - if node ∈ children then 1 else 0) := by
  induction children generalizing ready remaining with
  | nil => simp
  | cons child rest ih =>
    rcases nodup_cons.mp once with ⟨fresh, restOnce⟩
    have unchanged : ∀ other ∈ rest,
        Function.update remaining child (remaining child - 1) other = remaining other := by
      intro other member
      apply Function.update_of_ne
      rintro rfl
      exact fresh member
    rw [foldl_cons, release, ih restOnce]
    apply Prod.ext
    · have sameFilter : rest.filter (fun other =>
          Function.update remaining child (remaining child - 1) other - 1 = 0) =
          rest.filter (fun other => remaining other - 1 = 0) := by
        apply filter_congr
        intro other member
        rw [unchanged other member]
      rw [sameFilter, filter_cons]
      by_cases last : remaining child - 1 = 0
      · simp [last]
      · simp [last]
    · funext node
      by_cases here : node = child
      · subst here
        simp [fresh]
      · simp [here]

/-- Counts that a map keeps. -/
theorem getD_insert_eq_update [Ord α] [Std.TransOrd α] [Std.LawfulEqOrd α]
    (counts : Std.ExtTreeMap α Nat compare) (key : α) (count : Nat) :
    (fun node => (counts.insert key count).getD node 0) =
      Function.update (fun node => counts.getD node 0) key count := by
  funext node
  rw [Std.ExtTreeMap.getD_insert, Function.update_apply]
  by_cases here : node = key
  · subst here
    simp
  have apart : compare key node ≠ .eq := by
    intro same
    exact here (Std.LawfulEqCmp.eq_of_compare same).symm
  rw [if_neg here, if_neg apart]

/-- Children and parents of finitely many nodes. -/
structure Links (nodes : List α) (children parents : α → List α) : Prop where
  childrenOnce : ∀ node, (children node).Nodup
  parentsOnce : ∀ node, (parents node).Nodup
  mirror : ∀ parent child, child ∈ children parent ↔ parent ∈ parents child
  inside : ∀ parent child, parent ∈ parents child → parent ∈ nodes ∧ child ∈ nodes

omit [DecidableEq α] in
/-- Following parents ends exactly when there is no cycle. -/
theorem Links.wellFounded_iff {nodes : List α} {children parents : α → List α}
    (links : Links nodes children parents) :
    (WellFounded fun parent child => parent ∈ parents child) ↔
      ∀ node, ¬Relation.TransGen (fun parent child => parent ∈ parents child) node node := by
  constructor
  · intro wellFounded node cycle
    exact wellFounded.transGen.irrefl.irrefl node cycle
  · apply wellFounded_of_acyclic nodes.finite_toSet
    intro parent child edge
    exact (links.inside parent child edge).2

/-- The parents of a node that were not visited. -/
def openParents (parents : α → List α) (walked : List α) (node : α) : List α :=
  (parents node).filter (· ∉ walked)

structure Visiting (nodes : List α) (parents : α → List α) (walked ready : List α)
    (remaining : α → Nat) : Prop where
  once : (walked ++ ready).Nodup
  inside : ∀ node ∈ walked ++ ready, node ∈ nodes
  counts : ∀ node, remaining node = (openParents parents walked node).length
  queued : ∀ node ∈ nodes, remaining node = 0 ↔ node ∈ walked ++ ready
  ordered : ∀ before node rest, walked = before ++ node :: rest →
    ∀ parent ∈ parents node, parent ∈ before

section

variable {nodes : List α} {children parents : α → List α} {walked ready : List α}
  {remaining : α → Nat} {current : α}

theorem openParents_append (once : (parents current).Nodup) (node : α) (walked : List α) :
    openParents parents (walked ++ [node]) current =
      (openParents parents walked current).erase node := by
  have openOnce : (openParents parents walked current).Nodup := once.filter _
  rw [openOnce.erase_eq_filter, openParents, openParents, filter_filter]
  apply filter_congr
  intro parent _
  simp only [mem_append, mem_singleton, not_or, bne, Bool.decide_and]
  rw [Bool.and_comm]
  congr 1
  rw [Bool.eq_iff_iff]
  simp

/-- A node without open parents has only visited ones. -/
theorem Visiting.parents_walked (visiting : Visiting nodes parents walked ready remaining)
    (zero : remaining current = 0) : ∀ parent ∈ parents current, parent ∈ walked := by
  rw [visiting.counts, length_eq_zero_iff, openParents, filter_eq_nil_iff] at zero
  intro parent member
  simpa using zero parent member

variable (links : Links nodes children parents)

include links

variable (visiting : Visiting nodes parents walked (current :: ready) remaining) {roots : List α}

include visiting

/-- A child of a queued node has the node as an open parent. -/
theorem Visiting.mem_children_iff (node : α) :
    node ∈ children current ↔ current ∈ openParents parents walked node := by
  have fresh : current ∉ walked := by
    intro old
    exact (nodup_append.mp visiting.once).2.2 current old current mem_cons_self rfl
  rw [openParents, mem_filter, links.mirror]
  simp [fresh]

theorem Visiting.child_open : ∀ node ∈ children current, 0 < remaining node := by
  intro node isChild
  rw [visiting.counts]
  exact length_pos_of_mem ((visiting.mem_children_iff links node).mp isChild)

/-- Visiting one queued node. -/
theorem Visiting.step :
    Visiting nodes parents (walked ++ [current])
      ((children current).foldl release (ready, remaining)).1
      ((children current).foldl release (ready, remaining)).2 := by
  rw [foldl_release (links.childrenOnce current)]
  have assoc : walked ++ current :: ready = walked ++ [current] ++ ready :=
    (append_cons walked current ready)
  have queuedOld : ∀ node, node ∈ walked ++ [current] ++ ready → remaining node = 0 := by
    intro node member
    rw [← assoc] at member
    exact (visiting.queued node (visiting.inside node member)).mpr member
  have positive : ∀ node ∈ children current, remaining node ≠ 0 :=
    fun node isChild => (visiting.child_open links node isChild).ne'
  constructor
  case once =>
    dsimp only
    rw [← append_assoc, ← assoc]
    apply visiting.once.append ((links.childrenOnce current).filter _)
    intro node old new
    rw [assoc] at old
    exact positive node (mem_of_mem_filter new) (queuedOld node old)
  case inside =>
    intro node member
    dsimp only at member
    rw [← append_assoc, ← assoc, mem_append] at member
    rcases member with old | new
    · exact visiting.inside node old
    · exact (links.inside current node ((links.mirror current node).mp (mem_of_mem_filter new))).2
  case counts =>
    intro node
    dsimp only
    rw [openParents_append (links.parentsOnce node), length_erase, visiting.counts]
    by_cases isChild : node ∈ children current
    · rw [if_pos isChild, if_pos ((visiting.mem_children_iff links node).mp isChild)]
    · rw [if_neg isChild, if_neg (mt (visiting.mem_children_iff links node).mpr isChild)]
      rfl
  case queued =>
    intro node isNode
    dsimp only
    rw [← append_assoc, ← assoc, mem_append, ← visiting.queued node isNode,
      mem_filter, decide_eq_true_iff]
    by_cases isChild : node ∈ children current
    · simp [isChild, positive node isChild]
    · simp [isChild]
  case ordered =>
    intro before node rest split parent isParent
    rcases append_eq_append_iff.mp split with
      ⟨extra, beforeEq, tailEq⟩ | ⟨extra, walkedEq, tailEq⟩
    · cases extra with
      | nil =>
        rw [nil_append, cons.injEq] at tailEq
        rw [beforeEq, append_nil]
        exact visiting.parents_walked (queuedOld current (by simp)) parent (tailEq.1 ▸ isParent)
      | cons first extra => simp at tailEq
    cases extra with
    | nil =>
      rw [nil_append, cons.injEq] at tailEq
      rw [append_nil] at walkedEq
      rw [← walkedEq]
      exact visiting.parents_walked (queuedOld current (by simp)) parent (tailEq.1 ▸ isParent)
    | cons first extra =>
      rw [cons_append, cons.injEq] at tailEq
      rw [tailEq.1] at isParent
      exact visiting.ordered before first extra walkedEq parent isParent

omit visiting

omit links in
/-- Following the parents of a visited node ends. -/
theorem Visiting.founded (visiting : Visiting nodes parents walked ready remaining) :
    ∀ node ∈ walked, Acc (fun parent child => parent ∈ parents child) node := by
  have atPosition : ∀ count before node rest, before.length = count →
      walked = before ++ node :: rest → Acc (fun parent child => parent ∈ parents child) node := by
    intro count
    induction count using Nat.strong_induction_on with
    | _ count ih =>
      intro before node rest lengthEq split
      apply Acc.intro
      intro parent isParent
      rcases append_of_mem (visiting.ordered before node rest split parent isParent) with
        ⟨first, last, rfl⟩
      apply ih first.length (by simp at lengthEq; omega) first parent _ rfl
      rw [split, append_assoc, cons_append]
  intro node member
  rcases append_of_mem member with ⟨before, rest, split⟩
  exact atPosition before.length before node rest rfl split

/-- The visit ends with nothing queued. -/
theorem Visiting.run {fuel : Nat} (visiting : Visiting nodes parents walked ready remaining)
    (enough : walked.length + fuel = nodes.length) :
    ∃ remaining', Visiting nodes parents (visit children fuel walked ready remaining) []
      remaining' := by
  induction fuel generalizing walked ready remaining with
  | zero =>
    have bounded := (visiting.once.subperm visiting.inside).length_le
    rw [length_append] at bounded
    have empty : ready = [] := length_eq_zero_iff.mp (by omega)
    subst empty
    exact ⟨remaining, visiting⟩
  | succ fuel ih =>
    cases ready with
    | nil => exact ⟨remaining, visiting⟩
    | cons current ready =>
      apply ih (visiting.step links)
      rw [length_append, length_singleton]
      omega

/-- All nodes were visited exactly when the parents are well founded. -/
theorem Visiting.complete_iff (nodesOnce : nodes.Nodup)
    (visiting : Visiting nodes parents walked [] remaining) :
    walked.length = nodes.length ↔ WellFounded fun parent child => parent ∈ parents child := by
  have walkedOnce : walked.Nodup := by simpa using visiting.once
  have walkedInside : ∀ node ∈ walked, node ∈ nodes := by simpa using visiting.inside
  constructor
  · intro all
    have perm := (walkedOnce.subperm walkedInside).perm_of_length_le all.ge
    constructor
    intro node
    apply Acc.intro
    intro parent isParent
    exact visiting.founded parent (perm.mem_iff.mpr (links.inside parent node isParent).1)
  · intro wellFounded
    have every : ∀ node, node ∈ nodes → node ∈ walked := by
      intro node
      induction node using wellFounded.induction with
      | _ node ih =>
        intro isNode
        have noneOpen : remaining node = 0 := by
          rw [visiting.counts, length_eq_zero_iff, openParents, filter_eq_nil_iff]
          intro parent isParent
          simpa using ih parent isParent (links.inside parent node isParent).1
        simpa using (visiting.queued node isNode).mp noneOpen
    apply Nat.le_antisymm
    · exact (walkedOnce.subperm walkedInside).length_le
    · exact (nodesOnce.subperm every).length_le

omit links in
theorem Visiting.start (rootsOnce : roots.Nodup)
    (isRoots : ∀ node, node ∈ roots ↔ node ∈ nodes ∧ (parents node).length = 0) :
    Visiting nodes parents [] roots fun node => (parents node).length := by
  constructor
  case once => simpa using rootsOnce
  case inside =>
    intro node member
    exact ((isRoots node).mp (by simpa using member)).1
  case counts =>
    intro node
    simp [openParents]
  case queued =>
    intro node isNode
    rw [nil_append, isRoots]
    exact (and_iff_right isNode).symm
  case ordered =>
    intro before node rest split
    simp at split

/-- A visit from the nodes without parents lists nodes once each, parents first, and all of them
exactly when there is no cycle. -/
theorem visit_spec (nodesOnce : nodes.Nodup) (rootsOnce : roots.Nodup)
    (isRoots : ∀ node, node ∈ roots ↔ node ∈ nodes ∧ (parents node).length = 0) {order : List α}
    (isVisit : order = visit children nodes.length [] roots fun node => (parents node).length) :
    order.Nodup ∧ (∀ node ∈ order, node ∈ nodes) ∧
      (∀ before node rest, order = before ++ node :: rest →
        ∀ parent ∈ parents node, parent ∈ before) ∧
      (order.length = nodes.length ↔
        ∀ node, ¬Relation.TransGen (fun parent child => parent ∈ parents child) node node) := by
  rcases (Visiting.start rootsOnce isRoots).run links (Nat.zero_add nodes.length) with
    ⟨remaining, done⟩
  rw [← isVisit] at done
  refine ⟨by simpa using done.once, by simpa using done.inside, done.ordered, ?_⟩
  rw [done.complete_iff links nodesOnce, links.wellFounded_iff]

end

end Grab.Lib
