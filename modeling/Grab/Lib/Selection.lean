import Mathlib.Data.List.Sort

/-!
# Selecting by rank

The item a sorted list has at a place, found by partitioning.  Whatever a partition does on
either side of the place, the items before it are the first ones of the sorted list.
-/

namespace Grab.Lib.Selection

open List

universe u

variable {α : Type u} [LinearOrder α]

def sorted (items : List α) : List α := items.mergeSort fun first second => decide (first ≤ second)

/-- What a partition around a place leaves behind. -/
structure Selected (items : List α) (place : Nat) (result : List α) : Prop where
  perm : result ~ items
  nth : result[place]? = (sorted items)[place]?
  split : ∀ before ∈ result.take place, ∀ after ∈ result.drop place, before ≤ after

variable {items result : List α} {place : Nat}

theorem sorted_perm (items : List α) : sorted items ~ items := mergeSort_perm _ _

theorem sorted_pairwise (items : List α) : (sorted items).Pairwise (· ≤ ·) :=
  pairwise_mergeSort' (r := (· ≤ ·)) items

theorem length_sorted (items : List α) : (sorted items).length = items.length :=
  (sorted_perm items).length_eq

theorem eq_sorted (perm : result ~ items) (ordered : result.Pairwise (· ≤ ·)) :
    result = sorted items :=
  (perm.trans (sorted_perm items).symm).eq_of_pairwise (fun _ _ _ _ => le_antisymm) ordered
    (sorted_pairwise items)

theorem sorted_congr (perm : result ~ items) : sorted result = sorted items :=
  eq_sorted ((sorted_perm result).trans perm) (sorted_pairwise result)

theorem Selected.take_perm (selected : Selected items place result)
    (inside : place ≤ items.length) : result.take place ~ (sorted items).take place := by
  have parts : sorted (result.take place) ++ sorted (result.drop place) = sorted items := by
    apply eq_sorted
    · apply ((sorted_perm _).append (sorted_perm _)).trans
      rw [take_append_drop]
      exact selected.perm
    rw [pairwise_append]
    refine ⟨sorted_pairwise _, sorted_pairwise _, ?_⟩
    intro before isBefore after isAfter
    exact selected.split before ((sorted_perm _).mem_iff.mp isBefore) after
      ((sorted_perm _).mem_iff.mp isAfter)
  have length : (sorted (result.take place)).length = place := by
    rw [length_sorted, length_take, selected.perm.length_eq, Nat.min_eq_left inside]
  rw [← parts, take_left' length]
  exact (sorted_perm _).symm

theorem exists_around {item : α} (found : (sorted items)[place]? = some item) :
    ∃ before after, sorted items = before ++ item :: after ∧ before.length = place ∧
      (∀ other ∈ before, other ≤ item) ∧ ∀ other ∈ after, item ≤ other := by
  obtain ⟨inside, isItem⟩ := List.getElem?_eq_some_iff.mp found
  have parts := take_append_drop place (sorted items)
  rw [drop_eq_getElem_cons inside, isItem] at parts
  have ordered := sorted_pairwise items
  rw [← parts, pairwise_append, pairwise_cons] at ordered
  refine ⟨_, _, parts.symm, ?_, fun other member => ordered.2.2 other member item mem_cons_self,
    ordered.2.1.1⟩
  rw [length_take]
  omega

theorem le_of_places {first second : Nat} {low high : α} (ordered : first ≤ second)
    (isLow : (sorted items)[first]? = some low) (isHigh : (sorted items)[second]? = some high) :
    low ≤ high := by
  obtain ⟨before, after, parts, rfl, below, _⟩ := exists_around isHigh
  rcases Nat.eq_or_lt_of_le ordered with rfl | less
  · rw [isLow] at isHigh
    exact (Option.some.inj isHigh).le
  · rw [parts, getElem?_append_left less] at isLow
    exact below low (mem_of_getElem? isLow)

/-- Sorting everything is one way to select. -/
theorem selected_sorted (items : List α) (place : Nat) : Selected items place (sorted items) where
  perm := sorted_perm items
  nth := rfl
  split := by
    have ordered := sorted_pairwise items
    rw [← take_append_drop place (sorted items), pairwise_append] at ordered
    exact ordered.2.2

/-- Where more than half of the items are, the middle ones are as well. -/
theorem central_of_majority {lowest highest lower upper : α}
    (isLower : (sorted items)[(items.length - 1) / 2]? = some lower)
    (isUpper : (sorted items)[items.length / 2]? = some upper)
    (majority : items.length < 2 * items.countP fun item => lowest ≤ item ∧ item ≤ highest) :
    lowest ≤ lower ∧ upper ≤ highest := by
  let within (item : α) : Bool := lowest ≤ item ∧ item ≤ highest
  have none : ∀ {part : List α}, (∀ item ∈ part, item < lowest ∨ highest < item) →
      part.countP within = 0 := by
    intro part outside
    rw [countP_eq_zero]
    intro item member inside
    obtain ⟨above, below⟩ := of_decide_eq_true inside
    exact (outside item member).elim above.not_gt below.not_gt
  have length := length_sorted items
  rw [← (sorted_perm items).countP_eq] at majority
  change items.length < 2 * (sorted items).countP within at majority
  constructor
  · obtain ⟨before, after, parts, place, below, _⟩ := exists_around isLower
    by_contra outside
    have few : (before ++ [lower]).countP within = 0 := by
      apply none
      simp only [mem_append, mem_singleton]
      rintro item (member | rfl)
      · exact .inl ((below item member).trans_lt (not_le.mp outside))
      · exact .inl (not_le.mp outside)
    rw [← singleton_append, ← append_assoc] at parts
    rw [parts, length_append, length_append, length_singleton] at length
    have most := @countP_le_length _ within after
    rw [parts, countP_append, few] at majority
    omega
  · obtain ⟨before, after, parts, place, _, above⟩ := exists_around isUpper
    by_contra outside
    have few : (upper :: after).countP within = 0 := by
      apply none
      rintro item member
      rcases mem_cons.mp member with rfl | later
      · exact .inr (not_le.mp outside)
      · exact .inr ((not_le.mp outside).trans_le (above item later))
    have most := @countP_le_length _ within before
    rw [parts, countP_append, few] at majority
    omega

end Grab.Lib.Selection
