import Mathlib.Data.Set.Insert
import Mathlib.Data.List.Nodup

/-!
# Edit scripts over sets

A set is kept up to date by replaying edits on it.  `IsDifference` says that a
script reports every difference of two sets exactly once and nothing else, and
`IsReplacement` that it takes away every old element and then brings every new
one; either way the replay arrives at the new set.
-/

namespace Grab.Lib

open List

universe u

inductive Edit (α : Type u) where
  | add (item : α)
  | remove (item : α)
  deriving DecidableEq, Repr

namespace Edit

variable {α : Type u}

/-- One edit on a set. -/
def apply (items : Set α) : Edit α → Set α
  | .add item => insert item items
  | .remove item => items \ {item}

def replay (edits : List (Edit α)) (items : Set α) : Set α := edits.foldl apply items

/-- The script reports each difference between two sets exactly once. -/
structure IsDifference (before after : Set α) (edits : List (Edit α)) : Prop where
  once : edits.Nodup
  added : ∀ item, .add item ∈ edits ↔ item ∈ after ∧ item ∉ before
  removed : ∀ item, .remove item ∈ edits ↔ item ∈ before ∧ item ∉ after

/-- The script removes every old element and then adds every new one. -/
structure IsReplacement (before after : Set α) (edits : List (Edit α)) : Prop where
  once : edits.Nodup
  added : ∀ item, .add item ∈ edits ↔ item ∈ after
  removed : ∀ item, .remove item ∈ edits ↔ item ∈ before
  ordered : ∃ removals additions, edits = removals ++ additions ∧
    (∀ item, .add item ∉ removals) ∧ ∀ item, .remove item ∉ additions

variable {edits : List (Edit α)} {before after : Set α} {items : Set α} {item : α}

/-- An element that is not removed is there at the end if it was there or was
added. -/
theorem mem_replay_of_not_removed (kept : .remove item ∉ edits) :
    item ∈ replay edits items ↔ item ∈ items ∨ .add item ∈ edits := by
  induction edits generalizing items with
  | nil => simp [replay]
  | cons edit rest ih =>
    obtain ⟨headKept, restKept⟩ := ne_and_not_mem_of_not_mem_cons kept
    have inner : item ∈ replay rest (apply items edit) ↔
        item ∈ apply items edit ∨ .add item ∈ rest := ih restKept
    change item ∈ replay rest (apply items edit) ↔ _
    rw [inner]
    cases edit with
    | add other => simp [apply, or_assoc, or_left_comm]
    | remove other =>
      have different : item ≠ other := fun same => headKept (congrArg _ same)
      simp [apply, different]

/-- An element that is not added is there at the end if it was there and was not
removed. -/
theorem mem_replay_of_not_added (notAdded : .add item ∉ edits) :
    item ∈ replay edits items ↔ item ∈ items ∧ .remove item ∉ edits := by
  induction edits generalizing items with
  | nil => simp [replay]
  | cons edit rest ih =>
    obtain ⟨headOther, restOther⟩ := ne_and_not_mem_of_not_mem_cons notAdded
    have inner : item ∈ replay rest (apply items edit) ↔
        item ∈ apply items edit ∧ .remove item ∉ rest := ih restOther
    change item ∈ replay rest (apply items edit) ↔ _
    rw [inner]
    cases edit with
    | add other =>
      have different : item ≠ other := fun same => headOther (congrArg _ same)
      simp [apply, different]
    | remove other => simp [apply, and_assoc]

/-- A script is the difference if, up to order, it removes the elements that go
and adds the elements that come. -/
theorem IsDifference.of_perm {gone come : List α}
    (perm : edits.Perm (gone.map .remove ++ come.map .add)) (goneOnce : gone.Nodup)
    (comeOnce : come.Nodup) (mem_gone : ∀ item, item ∈ gone ↔ item ∈ before ∧ item ∉ after)
    (mem_come : ∀ item, item ∈ come ↔ item ∈ after ∧ item ∉ before) :
    IsDifference before after edits := by
  constructor
  case once =>
    rw [perm.nodup_iff]
    apply Nodup.append
    · exact goneOnce.map fun _ _ same => Edit.remove.inj same
    · exact comeOnce.map fun _ _ same => Edit.add.inj same
    intro edit isRemoval isAddition
    rcases mem_map.mp isRemoval with ⟨item, _, rfl⟩
    rcases mem_map.mp isAddition with ⟨other, _, impossible⟩
    cases impossible
  case added =>
    intro item
    rw [perm.mem_iff, ← mem_come]
    simp
  case removed =>
    intro item
    rw [perm.mem_iff, ← mem_gone]
    simp

theorem IsDifference.replay (difference : IsDifference before after edits) :
    Edit.replay edits before = after := by
  ext item
  by_cases inAfter : item ∈ after
  · have kept : .remove item ∉ edits := fun member =>
      ((difference.removed item).mp member).2 inAfter
    rw [mem_replay_of_not_removed kept, difference.added]
    tauto
  have notAdded : .add item ∉ edits := fun member =>
    inAfter ((difference.added item).mp member).1
  rw [mem_replay_of_not_added notAdded, difference.removed]
  tauto

variable (replacement : IsReplacement before after edits)

include replacement

/-- A replacement takes everything away and then brings everything. -/
theorem IsReplacement.split :
    ∃ removals additions, edits = removals ++ additions ∧
      IsDifference before ∅ removals ∧ IsDifference ∅ after additions := by
  rcases replacement.ordered with ⟨removals, additions, split, noAdd, noRemove⟩
  have once := replacement.once
  rw [split] at once
  refine ⟨removals, additions, split, ⟨once.of_append_left, ?_, ?_⟩, ⟨once.of_append_right, ?_, ?_⟩⟩
  · simp [noAdd]
  · intro item
    have removedIff := replacement.removed item
    rw [split, mem_append] at removedIff
    simpa [noRemove item] using removedIff
  · intro item
    have addedIff := replacement.added item
    rw [split, mem_append] at addedIff
    simpa [noAdd item] using addedIff
  · simp [noRemove]

theorem IsReplacement.replay : Edit.replay edits before = after := by
  rcases replacement.split with ⟨removals, additions, rfl, goes, comes⟩
  rw [Edit.replay, foldl_append]
  change Edit.replay additions (Edit.replay removals before) = after
  rw [goes.replay, comes.replay]

end Edit

end Grab.Lib
