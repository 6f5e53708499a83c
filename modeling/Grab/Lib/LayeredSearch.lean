import Grab.Lib.Traversal

/-!
# Breadth-first search with an edge visitor

The search keeps a frontier, the nodes seen and the nodes of the next layer, and
offers every edge it examines to a visitor.  The visitor may give up, and then
the search has no result.

`layers_rule` is the invariant rule: what every offered edge keeps, for the nodes
seen so far, holds at the end for all nodes the start reaches.
-/

namespace Grab.Lib.Layered

open Search Traversal Relation List

universe u

variable {α σ : Type u} [DecidableEq α]

/-- What a search has got: its visitor, the nodes seen and the next layer. -/
structure Progress (α σ : Type u) where
  visitor : σ
  seen : List α
  next : List α

/-- Offer one edge to the visitor, then take its end into the next layer if it was
not seen. -/
def offer (visit : σ → α → α → Option σ) (source : α) (progress : Progress α σ) (target : α) :
    Option (Progress α σ) :=
  (visit progress.visitor source target).map fun visitor =>
    if target ∈ progress.seen then { progress with visitor := visitor }
    else ⟨visitor, progress.seen ++ [target], progress.next ++ [target]⟩

def expand (visit : σ → α → α → Option σ) (out : α → List α) (progress : Progress α σ)
    (node : α) : Option (Progress α σ) :=
  (out node).foldlM (offer visit node) progress

/-- Expand one frontier after the other until there is none. -/
def layers (visit : σ → α → α → Option σ) (out : α → List α) :
    Nat → List α → Progress α σ → Option σ
  | _, [], progress => some progress.visitor
  | 0, _ :: _, _ => none
  | fuel + 1, node :: frontier, progress => do
      let swept ← (node :: frontier).foldlM (expand visit out) { progress with next := [] }
      layers visit out fuel swept.next swept

theorem fresh_append (found first second : List α) :
    fresh found (first ++ second) =
      fresh found first ++ fresh (found ++ fresh found first) second := by
  induction first generalizing found with
  | nil => simp [fresh]
  | cons node rest ih =>
    rw [cons_append, fresh, fresh]
    split
    · exact ih found
    · rw [ih, cons_append, append_assoc, singleton_append]

section Rule

variable {visit : σ → α → α → Option σ} {out : α → List α} {start : α} {Holds : List α → σ → Prop}

/-- The visitor accepts every edge that leaves a node at a distance, and keeps the
condition. -/
def Accepts (visit : σ → α → α → Option σ) (out : α → List α) (start : α)
    (Holds : List α → σ → Prop) : Prop :=
  ∀ distance source target seen visitor, Holds seen visitor → source ∈ seen →
    AtDistance out start distance source → target ∈ out source →
    (target ∉ seen → AtDistance out start (distance + 1) target) →
    ∃ next, visit visitor source target = some next ∧ Holds (seen ++ fresh seen [target]) next

/-- What expanding some nodes of a layer leads to. -/
structure Swept (Holds : List α → σ → Prop) (before : Progress α σ) (targets : List α)
    (after : Progress α σ) : Prop where
  seen : after.seen = before.seen ++ fresh before.seen targets
  next : after.next = before.next ++ fresh before.seen targets
  holds : Holds after.seen after.visitor

variable {distance : Nat} {frontier seen : List α} {before : Progress α σ} {source target : α}
  {space : List α}

omit [DecidableEq α] in
theorem subset_of_frontier {node : α} (level : Level out start distance frontier seen)
    (member : node ∈ frontier) : node ∈ seen :=
  (level.mem_seen node).mpr ⟨distance, Nat.le_refl _, ((level.mem_frontier node).mp member).1⟩

theorem Swept.trans {before middle after : Progress α σ} {first second : List α}
    (head : Swept Holds before first middle) (tail : Swept Holds middle second after) :
    Swept Holds before (first ++ second) after := by
  constructor
  case seen => rw [tail.seen, head.seen, fresh_append, append_assoc]
  case next => rw [tail.next, head.next, head.seen, fresh_append, append_assoc]
  case holds => exact tail.holds

/-- A node that is not seen yet and follows one of the frontier is a step further. -/
theorem atDistance_next {frontier seen before : List α}
    (level : Level out start distance frontier seen) (member : source ∈ frontier)
    (edge : target ∈ out source) (earlier : seen ⊆ before) (unseen : target ∉ before) :
    AtDistance out start (distance + 1) target := by
  apply (level.next.mem_frontier target).mp
  rw [mem_fresh_iff]
  exact ⟨mem_flatMap.mpr ⟨source, member, edge⟩, fun old => unseen (earlier old)⟩

theorem offer_swept (accepts : Accepts visit out start Holds)
    (level : Level out start distance frontier seen) (member : source ∈ frontier)
    (edge : target ∈ out source) (earlier : seen ⊆ before.seen)
    (holds : Holds before.seen before.visitor) :
    ∃ after, offer visit source before target = some after ∧ Swept Holds before [target] after := by
  rcases accepts distance source target before.seen before.visitor holds
    (earlier (subset_of_frontier level member)) ((level.mem_frontier source).mp member) edge
    (atDistance_next level member edge earlier) with ⟨next, visited, kept⟩
  by_cases old : target ∈ before.seen
  · have nothing : fresh before.seen [target] = [] := by simp [fresh, old]
    refine ⟨{ before with visitor := next }, ?_, ?_⟩
    · rw [offer, visited, Option.map_some, if_pos old]
    rw [nothing, append_nil] at kept
    constructor
    case seen => rw [nothing, append_nil]
    case next => rw [nothing, append_nil]
    case holds => exact kept
  · have new : fresh before.seen [target] = [target] := by simp [fresh, old]
    refine ⟨⟨next, before.seen ++ [target], before.next ++ [target]⟩, ?_, ?_⟩
    · rw [offer, visited, Option.map_some, if_neg old]
    rw [new] at kept
    constructor
    case seen => rw [new]
    case next => rw [new]
    case holds => exact kept

theorem Swept.seen_subset {before after : Progress α σ} {targets seen : List α}
    (swept : Swept Holds before targets after) (earlier : seen ⊆ before.seen) :
    seen ⊆ after.seen := by
  rw [swept.seen]
  exact fun node member => mem_append_left _ (earlier member)

theorem Swept.nothing {progress : Progress α σ} (holds : Holds progress.seen progress.visitor) :
    Swept Holds progress [] progress where
  seen := by simp [fresh]
  next := by simp [fresh]
  holds := holds

/-- The edges of one node. -/
theorem expand_swept (accepts : Accepts visit out start Holds) {source : α}
    (level : Level out start distance frontier seen) (member : source ∈ frontier)
    (earlier : seen ⊆ before.seen) (holds : Holds before.seen before.visitor) :
    ∃ after, expand visit out before source = some after ∧
      Swept Holds before (out source) after := by
  have targets : ∀ {targets : List α} {before : Progress α σ}, targets ⊆ out source →
      seen ⊆ before.seen → Holds before.seen before.visitor →
      ∃ after, targets.foldlM (offer visit source) before = some after ∧
        Swept Holds before targets after := by
    intro targets
    induction targets with
    | nil =>
      intro before _ _ holds
      exact ⟨before, rfl, Swept.nothing holds⟩
    | cons target rest ih =>
      intro before inside earlier holds
      rcases offer_swept accepts level member (inside mem_cons_self) earlier holds with
        ⟨middle, offered, head⟩
      rcases ih (fun node inRest => inside (mem_cons_of_mem _ inRest))
        (head.seen_subset earlier) head.holds with ⟨after, folded, tail⟩
      refine ⟨after, ?_, head.trans tail⟩
      rw [foldlM_cons, offered]
      exact folded
  exact targets (Subset.refl _) earlier holds

/-- The edges of some nodes of the frontier. -/
theorem sweep_swept (accepts : Accepts visit out start Holds) {distance : Nat}
    {frontier seen nodes : List α} {before : Progress α σ}
    (level : Level out start distance frontier seen) (inside : nodes ⊆ frontier)
    (earlier : seen ⊆ before.seen) (holds : Holds before.seen before.visitor) :
    ∃ after, nodes.foldlM (expand visit out) before = some after ∧
      Swept Holds before (nodes.flatMap out) after := by
  induction nodes generalizing before with
  | nil => exact ⟨before, rfl, Swept.nothing holds⟩
  | cons node rest ih =>
    rcases expand_swept accepts level (inside mem_cons_self) earlier holds with
      ⟨middle, expanded, head⟩
    rcases ih (fun other inRest => inside (mem_cons_of_mem _ inRest))
      (head.seen_subset earlier) head.holds with ⟨after, folded, tail⟩
    refine ⟨after, ?_, ?_⟩
    · rw [foldlM_cons, expanded]
      exact folded
    · rw [flatMap_cons]
      exact head.trans tail

omit [DecidableEq α] in
/-- After the last layer everything reached is seen. -/
theorem mem_seen_of_last (level : Level out start distance [] seen) (node : α) :
    node ∈ seen ↔ ∃ length, Walk out length start node := by
  rw [level.mem_seen]
  constructor
  · rintro ⟨length, _, walk⟩
    exact ⟨length, walk⟩
  rintro ⟨length, walk⟩
  rcases exists_distance walk with ⟨far, _, isAt⟩
  refine ⟨far, ?_, isAt.1⟩
  by_contra beyond
  exact level.nothing rfl node ⟨far, by omega, isAt⟩

variable (accepts : Accepts visit out start Holds)

include accepts

variable (closed : ∀ node ∈ space, out node ⊆ space)

include closed

/-- From a level on, with fuel for the nodes that are left. -/
theorem layers_from {fuel distance : Nat} (level : Level out start distance frontier before.seen)
    (inSpace : before.seen ⊆ space)
    (enough : frontier ≠ [] → space.length < fuel + before.seen.length)
    (holds : Holds before.seen before.visitor) :
    ∃ visitor seen, layers visit out fuel frontier before = some visitor ∧
      Holds seen visitor ∧ ∀ node, node ∈ seen ↔ ∃ length, Walk out length start node := by
  induction fuel generalizing distance frontier before with
  | zero =>
    have empty : frontier = [] := by
      by_contra nonempty
      have bounded := (level.seenOnce.subperm inSpace).length_le
      have := enough nonempty
      omega
    subst frontier
    exact ⟨before.visitor, before.seen, rfl, holds, mem_seen_of_last level⟩
  | succ fuel ih =>
    cases frontier with
    | nil => exact ⟨before.visitor, before.seen, rfl, holds, mem_seen_of_last level⟩
    | cons first rest =>
      rcases @sweep_swept _ _ _ _ _ _ _ accepts _ _ _ _ { before with next := [] } level
        (Subset.refl _) (Subset.refl _) holds with ⟨after, folded, swept⟩
      have nextEq : after.next = fresh before.seen ((first :: rest).flatMap out) := by
        rw [swept.next, nil_append]
      have nextLevel : Level out start (distance + 1) after.next after.seen := by
        rw [nextEq, swept.seen]
        exact level.next
      have nextSpace : after.seen ⊆ space := by
        rw [swept.seen, append_subset]
        refine ⟨inSpace, ?_⟩
        intro node member
        rcases mem_flatMap.mp (mem_fresh_iff.mp member).1 with ⟨last, inFrontier, edge⟩
        exact closed last (inSpace (subset_of_frontier level inFrontier)) edge
      have nextEnough : after.next ≠ [] → space.length < fuel + after.seen.length := by
        intro nonempty
        have := enough (cons_ne_nil _ _)
        have grown := length_pos_iff.mpr nonempty
        rw [nextEq] at grown
        rw [swept.seen, length_append]
        dsimp only at grown ⊢
        omega
      rcases ih nextLevel nextSpace nextEnough swept.holds with
        ⟨visitor, seen, searched, kept, all⟩
      refine ⟨visitor, seen, ?_, kept, all⟩
      rw [layers, folded]
      exact searched

/-- What every offered edge keeps holds of all nodes reached. -/
theorem layers_rule (inSpace : start ∈ space) {visitor : σ} (holds : Holds [start] visitor) :
    ∃ final seen, layers visit out space.length [start] ⟨visitor, [start], []⟩ = some final ∧
      Holds seen final ∧ ∀ node, node ∈ seen ↔ ∃ length, Walk out length start node := by
  apply layers_from accepts closed (level_start out start)
  · simpa using inSpace
  · intro _
    exact Nat.lt_succ_self space.length
  · exact holds

end Rule

end Grab.Lib.Layered
