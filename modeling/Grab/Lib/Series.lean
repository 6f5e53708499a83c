import Mathlib.Data.Set.Finite.List

/-!
# Putting one graph in series behind a node of another

Every edge out of the anchor is replaced by a way through the inserted graph: from
the anchor to its roots and from its sinks to the old targets.  Reachability among
the old nodes and among the inserted ones stays what it was, and a combination of
acyclic graphs is acyclic.
-/

open Relation

namespace Grab.Lib

universe u

variable {α : Type u}

/-- A finite relation without a cycle is well founded. -/
theorem wellFounded_of_acyclic {relation : α → α → Prop} {nodes : Set α} (finite : nodes.Finite)
    (targets : ∀ source target, relation source target → target ∈ nodes)
    (acyclic : ∀ node, ¬TransGen relation node node) : WellFounded relation := by
  rw [WellFounded.wellFounded_iff_has_min]
  rintro chosen ⟨node, isChosen⟩
  let later : nodes → nodes → Prop := fun first second => TransGen relation first.1 second.1
  have finiteNodes : Finite nodes := finite
  have trans : IsTrans nodes later := ⟨fun _ _ _ => TransGen.trans⟩
  have irrefl : Std.Irrefl later := ⟨fun node => acyclic node.1⟩
  have wellFounded := Finite.wellFounded_of_trans_of_irrefl later
  by_cases loose : ∃ other ∈ chosen, other ∉ nodes
  · rcases loose with ⟨other, otherChosen, outside⟩
    exact ⟨other, otherChosen, fun source _ edge => outside (targets source other edge)⟩
  push Not at loose
  rcases wellFounded.has_min {other : nodes | other.1 ∈ chosen}
    ⟨⟨node, loose node isChosen⟩, isChosen⟩ with ⟨first, firstChosen, minimal⟩
  refine ⟨first.1, firstChosen, ?_⟩
  intro source sourceChosen edge
  exact minimal ⟨source, loose source sourceChosen⟩ sourceChosen (TransGen.single edge)

/-- The edges after an insertion.  `inside` are the inserted nodes. -/
structure Series (host insert : α → α → Prop) (anchor : α) (inside : α → Prop)
    (combined : α → α → Prop) : Prop where
  hostOutside : ∀ source target, host source target → ¬inside source ∧ ¬inside target
  insertInside : ∀ source target, insert source target → inside source ∧ inside target
  anchorOutside : ¬inside anchor
  edges : ∀ source target, combined source target ↔
    (host source target ∧ source ≠ anchor) ∨ insert source target ∨
      (source = anchor ∧ inside target ∧ ∀ other, ¬insert other target) ∨
      (inside source ∧ (∀ other, ¬insert source other) ∧ host anchor target)

namespace Series

variable {host insert combined : α → α → Prop} {anchor : α} {inside : α → Prop}
  (series : Series host insert anchor inside combined)

include series

variable {source target : α}

theorem insert_edge (edge : insert source target) : combined source target :=
  (series.edges source target).mpr (.inr (.inl edge))

/-! ## Into and out of the insertion -/

/-- The anchor comes before every inserted node. -/
theorem anchor_before (wellFounded : WellFounded insert) {node : α} (isInside : inside node) :
    TransGen combined anchor node := by
  induction node using wellFounded.induction with
  | _ node ih =>
    by_cases root : ∀ other, ¬insert other node
    · exact TransGen.single
        ((series.edges anchor node).mpr (.inr (.inr (.inl ⟨rfl, isInside, root⟩))))
    push Not at root
    rcases root with ⟨other, edge⟩
    exact (ih other edge (series.insertInside other node edge).1).tail (series.insert_edge edge)

/-- Every inserted node comes before the old targets of the anchor. -/
theorem before_target (wellFounded : WellFounded (Function.swap insert)) {node target : α}
    (isInside : inside node) (edge : host anchor target) : TransGen combined node target := by
  induction node using wellFounded.induction with
  | _ node ih =>
    by_cases sink : ∀ other, ¬insert node other
    · exact TransGen.single
        ((series.edges node target).mpr (.inr (.inr (.inr ⟨isInside, sink, edge⟩))))
    push Not at sink
    rcases sink with ⟨other, next⟩
    exact TransGen.head (series.insert_edge next)
      (ih other next (series.insertInside node other next).2)

/-! ## Among the old nodes -/

/-- What a path from an old node leads to. -/
theorem from_outside (isOutside : ¬inside source) (path : TransGen combined source target) :
    (¬inside target ∧ TransGen host source target) ∨
      (inside target ∧ ReflTransGen host source anchor) := by
  induction path with
  | @single target edge =>
    rcases (series.edges source target).mp edge with
      ⟨old, _⟩ | new | ⟨rfl, isInside, _⟩ | ⟨isInside, _⟩
    · exact .inl ⟨(series.hostOutside _ _ old).2, TransGen.single old⟩
    · exact absurd (series.insertInside _ _ new).1 isOutside
    · exact .inr ⟨isInside, ReflTransGen.refl⟩
    · exact absurd isInside isOutside
  | @tail middle target _ edge ih =>
    rcases (series.edges middle target).mp edge with
      ⟨old, _⟩ | new | ⟨rfl, isInside, _⟩ | ⟨isInside, _, next⟩
    · rcases ih with ⟨_, reached⟩ | ⟨impossible, _⟩
      · exact .inl ⟨(series.hostOutside _ _ old).2, reached.tail old⟩
      · exact absurd impossible (series.hostOutside _ _ old).1
    · rcases ih with ⟨impossible, _⟩ | ⟨_, reached⟩
      · exact absurd (series.insertInside _ _ new).1 impossible
      · exact .inr ⟨(series.insertInside _ _ new).2, reached⟩
    · rcases ih with ⟨_, reached⟩ | ⟨impossible, _⟩
      · exact .inr ⟨isInside, reached.to_reflTransGen⟩
      · exact absurd impossible series.anchorOutside
    · rcases ih with ⟨impossible, _⟩ | ⟨_, reached⟩
      · exact absurd isInside impossible
      · exact .inl ⟨(series.hostOutside _ _ next).2, TransGen.tail' reached next⟩

/-- Reachability among the old nodes is that of the host. -/
theorem outside_iff (forward : WellFounded insert) (backward : WellFounded (Function.swap insert))
    {some : α} (someInside : inside some) (sourceOutside : ¬inside source)
    (targetOutside : ¬inside target) :
    TransGen combined source target ↔ TransGen host source target := by
  constructor
  · intro path
    rcases series.from_outside sourceOutside path with ⟨_, reached⟩ | ⟨impossible, _⟩
    · exact reached
    · exact absurd impossible targetOutside
  intro path
  have edgePath : ∀ first second, host first second → TransGen combined first second := by
    intro first second edge
    by_cases isAnchor : first = anchor
    · subst isAnchor
      exact (series.anchor_before forward someInside).trans
        (series.before_target backward someInside edge)
    · exact TransGen.single ((series.edges first second).mpr (.inl ⟨edge, isAnchor⟩))
  exact TransGen.closed edgePath source target path

/-! ## Among the inserted nodes -/

/-- What a path from an inserted node leads to. -/
theorem from_inside (acyclic : ¬TransGen host anchor anchor) (isInside : inside source)
    (path : TransGen combined source target) : (inside target ∧ TransGen insert source target) ∨
      (¬inside target ∧ TransGen host anchor target) := by
  induction path with
  | @single target edge =>
    rcases (series.edges source target).mp edge with
      ⟨old, _⟩ | new | ⟨rfl, _⟩ | ⟨_, _, next⟩
    · exact absurd isInside (series.hostOutside _ _ old).1
    · exact .inl ⟨(series.insertInside _ _ new).2, TransGen.single new⟩
    · exact absurd isInside series.anchorOutside
    · exact .inr ⟨(series.hostOutside _ _ next).2, TransGen.single next⟩
  | @tail middle target _ edge ih =>
    rcases (series.edges middle target).mp edge with
      ⟨old, _⟩ | new | ⟨rfl, _⟩ | ⟨_, _, next⟩
    · rcases ih with ⟨impossible, _⟩ | ⟨_, reached⟩
      · exact absurd impossible (series.hostOutside _ _ old).1
      · exact .inr ⟨(series.hostOutside _ _ old).2, reached.tail old⟩
    · rcases ih with ⟨_, reached⟩ | ⟨impossible, _⟩
      · exact .inl ⟨(series.insertInside _ _ new).2, reached.tail new⟩
      · exact absurd (series.insertInside _ _ new).1 impossible
    · rcases ih with ⟨impossible, _⟩ | ⟨_, reached⟩
      · exact absurd impossible series.anchorOutside
      · exact absurd reached acyclic
    · exact .inr ⟨(series.hostOutside _ _ next).2, TransGen.single next⟩

/-- Reachability among the inserted nodes is that of the inserted graph. -/
theorem inside_iff (acyclic : ¬TransGen host anchor anchor) (sourceInside : inside source)
    (targetInside : inside target) :
    TransGen combined source target ↔ TransGen insert source target := by
  constructor
  · intro path
    rcases series.from_inside acyclic sourceInside path with ⟨_, reached⟩ | ⟨impossible, _⟩
    · exact reached
    · exact absurd targetInside impossible
  · exact fun path => TransGen.mono (fun _ _ => series.insert_edge) _ _ path

theorem acyclic (hostAcyclic : ∀ node, ¬TransGen host node node)
    (insertAcyclic : ∀ node, ¬TransGen insert node node) (node : α) :
    ¬TransGen combined node node := by
  intro cycle
  by_cases isInside : inside node
  · exact insertAcyclic node ((series.inside_iff (hostAcyclic anchor) isInside isInside).mp cycle)
  · rcases series.from_outside isInside cycle with ⟨_, reached⟩ | ⟨impossible, _⟩
    · exact hostAcyclic node reached
    · exact isInside impossible

end Series

end Grab.Lib
