import Mathlib.Data.Set.Lattice
import Mathlib.Order.CompletePartialOrder

/-!
# Collecting marked cells

A plane is swept cell by cell and the cells that hold a marked point are collected.  Points, cells
and the regions of cells are arbitrary; what has been swept so far is a set of points.
-/

namespace Grab.Lib

open List

universe u v

variable {α : Type u} {τ : Type v}

/-- What was collected on the way. -/
structure Collected (region : τ → Set α) (marked swept : Set α) (cells : List τ) : Prop where
  inside : ∀ cell ∈ cells, region cell ⊆ swept
  apart : cells.Pairwise fun first second => Disjoint (region first) (region second)
  covered : ∀ point ∈ swept, point ∈ marked → ∃ cell ∈ cells, point ∈ region cell
  needed : ∀ cell ∈ cells, ∃ point ∈ region cell, point ∈ marked

namespace Collected

variable {region : τ → Set α} {marked swept grown : Set α} {cells : List τ} {cell : τ}

theorem nil : Collected region marked ∅ [] where
  inside _ member := absurd member not_mem_nil
  apart := List.Pairwise.nil
  covered _ impossible := impossible.elim
  needed _ member := absurd member not_mem_nil

variable (collected : Collected region marked swept cells)

include collected

theorem congr (same : swept = grown) : Collected region marked grown cells := by
  rw [← same]
  exact collected

/-- A cell without a marked point is passed by. -/
theorem skip (unmarked : ∀ point ∈ region cell, point ∉ marked) :
    Collected region marked (swept ∪ region cell) cells where
  inside other member := (collected.inside other member).trans Set.subset_union_left
  apart := collected.apart
  covered := by
    rintro point (before | here) isMarked
    · exact collected.covered point before isMarked
    · exact absurd isMarked (unmarked point here)
  needed := collected.needed

/-- A cell with a marked point is collected; it lies outside what was swept before. -/
theorem keep (fresh : Disjoint swept (region cell))
    (holds : ∃ point ∈ region cell, point ∈ marked) :
    Collected region marked (swept ∪ region cell) (cells ++ [cell]) where
  inside := by
    intro other member
    rcases mem_append.mp member with before | here
    · exact (collected.inside other before).trans Set.subset_union_left
    · rw [mem_singleton.mp here]
      exact Set.subset_union_right
  apart := by
    rw [pairwise_append]
    refine ⟨collected.apart, pairwise_singleton _ _, ?_⟩
    intro first member second last
    rw [mem_singleton.mp last]
    exact fresh.mono_left (collected.inside first member)
  covered := by
    rintro point (before | here) isMarked
    · rcases collected.covered point before isMarked with ⟨other, member, covers⟩
      exact ⟨other, mem_append_left _ member, covers⟩
    · exact ⟨cell, mem_append_right _ (mem_singleton_self cell), here⟩
  needed := by
    intro other member
    rcases mem_append.mp member with before | here
    · exact collected.needed other before
    · rw [mem_singleton.mp here]
      exact holds

/-- Nothing is collected exactly when nothing swept is marked. -/
theorem eq_nil_iff : cells = [] ↔ ∀ point ∈ swept, point ∉ marked := by
  constructor
  · rintro rfl point inSwept isMarked
    rcases collected.covered point inSwept isMarked with ⟨cell, member, -⟩
    exact absurd member not_mem_nil
  intro unmarked
  apply eq_nil_iff_forall_not_mem.mpr
  intro cell member
  rcases collected.needed cell member with ⟨point, here, isMarked⟩
  exact unmarked point (collected.inside cell member here) isMarked

end Collected

/-! ## Cutting a segment -/

/-- The positions at which a segment is cut into pieces of one length, its end included. -/
def OnGrid (step total position : Nat) : Prop := ∃ count, position = min (count * step) total

namespace OnGrid

variable {step total position : Nat}

theorem zero : OnGrid step total 0 := ⟨0, by simp⟩

variable (onGrid : OnGrid step total position)

include onGrid

theorem le : position ≤ total := by
  rcases onGrid with ⟨count, rfl⟩
  exact Nat.min_le_right _ _

theorem eq_mul (before : position < total) : ∃ count, position = count * step := by
  rcases onGrid with ⟨count, rfl⟩
  exact ⟨count, Nat.min_eq_left (Nat.le_of_lt (by simpa using before))⟩

/-- The next cut is one step further, or the end of the segment. -/
theorem next (before : position < total) :
    OnGrid step total (position + min step (total - position)) := by
  rcases onGrid.eq_mul before with ⟨count, rfl⟩
  refine ⟨count + 1, ?_⟩
  rw [Nat.add_mul, Nat.one_mul]
  omega

end OnGrid

end Grab.Lib
