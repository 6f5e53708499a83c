import Grab.Lib.RingBuffer
import Grab.Lib.Selection

/-!
# Clock drift

A window of the last offsets between two clocks, and their median.  The median is selected
around the middle of a copy of the window; of an even number of samples it is the midpoint of
the two central ones, which is computed from their difference.
-/

namespace Grab.Support

open Grab.Lib Selection List

/-- A 64-bit result, or none where it would overflow. -/
def int64 (value : Int) : Option Int :=
  if -2 ^ 63 ≤ value ∧ value < 2 ^ 63 then some value else none

@[ext]
structure Drift where
  samples : List Int
  next : Nat
  filled : Nat

namespace Drift

def empty (capacity : Nat) : Drift := ⟨replicate capacity 0, 0, 0⟩

/-- Record one offset over the oldest. -/
def feed (drift : Drift) (offset : Int) : Drift :=
  ⟨drift.samples.set drift.next offset, (drift.next + 1) % drift.samples.length,
    min (drift.filled + 1) drift.samples.length⟩

/-- `nthElement` rearranges a list around a place. -/
def medianOffset (nthElement : Nat → List Int → List Int) (drift : Drift) : Option Int :=
  let middle := drift.filled / 2
  let ordered := nthElement middle (drift.samples.take drift.filled)
  match ordered[middle]? with
  | none => none
  | some upper =>
    if drift.filled % 2 = 1 then some upper
    else
      match (ordered.take middle).max? with
      | none => none
      | some lower => (int64 (upper - lower)).bind fun width => int64 (lower + width.tdiv 2)

def shift (nthElement : Nat → List Int → List Int) (drift : Drift) : Option Int :=
  if drift.filled = 0 then some 0 else drift.medianOffset nthElement

/-! ## The window -/

/-- The last offsets of those fed, as many as there are cells. -/
def window (capacity : Nat) (fed : List Int) : List Int := fed.drop (fed.length - capacity)

/-- The cells are a ring: the next offset is written behind its newest item, or over the oldest
when it is full. -/
def ofRing (ring : RingBuffer Int) : Drift := ⟨ring.cells, ring.index ring.size, ring.size⟩

/-- Until it is full a ring starts at the first cell. -/
def Fresh (ring : RingBuffer Int) : Prop := ring.size < ring.cells.length → ring.head = 0

variable {ring : RingBuffer Int} {fed items : List Int} {capacity : Nat} {offset : Int}

theorem feed_ofRing (fresh : Fresh ring) (positive : 0 < ring.cells.length) :
    ∃ after, (ofRing ring).feed offset = ofRing after ∧ Fresh after ∧
      after.cells.length = ring.cells.length ∧ after.contents =
        (if ring.size < ring.cells.length then ring.contents else ring.contents.tail) ++
          [offset] := by
  by_cases room : ring.size < ring.cells.length
  · refine ⟨ring.push offset room, ?_, fun _ => fresh room, length_set, ?_⟩
    · have moved : (ring.push offset room).index (ring.size + 1) =
          (ring.index ring.size + 1) % ring.cells.length := by
        rw [RingBuffer.index_push, RingBuffer.index, RingBuffer.index, Nat.mod_add_mod,
          Nat.add_assoc]
      exact Drift.ext rfl moved.symm (Nat.min_eq_left room)
    · rw [RingBuffer.contents_push, if_pos room]
  · have full : ring.size = ring.cells.length := by
      have := ring.fits
      omega
    have nonEmpty : 0 < ring.size := full ▸ positive
    have atHead : ring.index ring.size = ring.head := by
      rw [RingBuffer.index, full, Nat.add_mod_right, Nat.mod_eq_of_lt (RingBuffer.head_lt nonEmpty)]
    refine ⟨ring.overwrite offset, ?_, ?_, length_set, ?_⟩
    · have moved : (ring.overwrite offset).index ring.size =
          (ring.index ring.size + 1) % ring.cells.length := by
        change (ring.index 1 + ring.size) % (ring.cells.set _ _).length = _
        rw [length_set, atHead, full, Nat.add_mod_right, RingBuffer.index, Nat.mod_mod]
      refine Drift.ext (congrArg (ring.cells.set · offset) atHead) moved.symm ?_
      exact (Nat.min_eq_right (full ▸ Nat.le_succ _)).trans full.symm
    · intro less
      change ring.size < (ring.cells.set _ _).length at less
      rw [length_set] at less
      exact absurd less room
    · rw [RingBuffer.contents_overwrite nonEmpty full, if_neg room]

/-- Feeding keeps the window in a ring. -/
theorem foldl_feed (positive : 0 < capacity) (fed : List Int) :
    ∃ ring, fed.foldl feed (empty capacity) = ofRing ring ∧ Fresh ring ∧
      ring.cells.length = capacity ∧ ring.contents = window capacity fed := by
  induction fed using List.reverseRecOn with
  | nil =>
    refine ⟨.blank capacity 0, ?_, fun _ => rfl, length_replicate, ?_⟩
    · exact congrArg (Drift.mk _ · _) (Nat.zero_mod _).symm
    · rw [RingBuffer.contents_blank, window, drop_nil]
  | append_singleton fed offset ih =>
    obtain ⟨ring, isRing, fresh, length, contents⟩ := ih
    obtain ⟨after, fedEq, afterFresh, afterLength, afterContents⟩ :=
      @feed_ofRing ring offset fresh (length ▸ positive)
    refine ⟨after, ?_, afterFresh, afterLength.trans length, ?_⟩
    · rw [foldl_append, isRing]
      exact fedEq
    have size := RingBuffer.length_contents ring
    rw [contents, window, length_drop] at size
    rw [afterContents, contents, length, window, window, length_append, length_singleton]
    split
    · have short : fed.length ≤ capacity - 1 := by omega
      rw [Nat.sub_eq_zero_of_le (by omega), Nat.sub_eq_zero_of_le (by omega)]
      rfl
    · rw [tail_drop, drop_append_of_le_length (by omega), Nat.sub_add_comm (by omega)]

/-- In whatever order, the first cells are the window. -/
theorem stored_perm (positive : 0 < capacity) (fed : List Int) :
    let drift := fed.foldl feed (empty capacity)
    drift.samples.take drift.filled ~ window capacity fed ∧
      drift.filled = (window capacity fed).length := by
  intro drift
  obtain ⟨ring, isRing, fresh, _, contents⟩ := foldl_feed positive fed
  change drift = ofRing ring at isRing
  rw [isRing, ← contents]
  refine ⟨?_, ring.length_contents.symm⟩
  change ring.cells.take ring.size ~ (ring.cells.rotate ring.head).take ring.size
  by_cases room : ring.size < ring.cells.length
  · rw [fresh room, rotate_zero]
  · rw [take_of_length_le (by omega), take_of_length_le (by rw [length_rotate]; omega)]
    exact (rotate_perm _ _).symm

/-! ## The median -/

/-- The central samples in sorted order; they are one when there is an odd number. -/
def lowerCentral (items : List Int) : Int := (sorted items).getD ((items.length - 1) / 2) 0

def upperCentral (items : List Int) : Int := (sorted items).getD (items.length / 2) 0

/-- What the standard library promises of `nth_element`. -/
def Selects (nthElement : Nat → List Int → List Int) : Prop :=
  ∀ place items, place < items.length → Selected items place (nthElement place items)

theorem central (nonEmpty : items ≠ []) :
    (sorted items)[(items.length - 1) / 2]? = some (lowerCentral items) ∧
      (sorted items)[items.length / 2]? = some (upperCentral items) := by
  have positive := length_pos_iff.mpr nonEmpty
  have found : ∀ place < items.length,
      (sorted items)[place]? = some ((sorted items).getD place 0) := by
    intro place inside
    rw [← length_sorted items] at inside
    rw [getD_eq_getElem?_getD, getElem?_eq_getElem inside]
    rfl
  exact ⟨found _ (by omega), found _ (by omega)⟩

theorem central_le (items : List Int) : lowerCentral items ≤ upperCentral items := by
  by_cases empty : items = []
  · simp [empty, lowerCentral, upperCentral, sorted]
  · exact le_of_places (by omega) (central empty).1 (central empty).2

theorem central_of_odd (odd : items.length % 2 = 1) : lowerCentral items = upperCentral items := by
  rw [lowerCentral, upperCentral, show (items.length - 1) / 2 = items.length / 2 by omega]

/-- What is asked of an estimate of the window: it lies between the central samples, is the middle
one of an odd number, and lies wherever more than half of the samples do. -/
structure Estimates (items : List Int) (value : Int) : Prop where
  between : lowerCentral items ≤ value ∧ value ≤ upperCentral items
  middle : items.length % 2 = 1 → value = upperCentral items
  robust : ∀ lowest highest,
    items.length < 2 * items.countP (fun item => lowest ≤ item ∧ item ≤ highest) →
    lowest ≤ value ∧ value ≤ highest

theorem estimates_midpoint (items : List Int) :
    Estimates items (lowerCentral items + (upperCentral items - lowerCentral items).tdiv 2) := by
  have ordered := central_le items
  have between : lowerCentral items ≤
      lowerCentral items + (upperCentral items - lowerCentral items).tdiv 2 ∧
      lowerCentral items + (upperCentral items - lowerCentral items).tdiv 2 ≤
        upperCentral items := by
    rw [Int.tdiv_eq_ediv_of_nonneg (by omega)]
    omega
  refine ⟨between, ?_, ?_⟩
  · intro odd
    have := central_of_odd odd
    omega
  intro lowest highest majority
  have nonEmpty : items ≠ [] := by
    rintro rfl
    simp at majority
  have held := central_of_majority (central nonEmpty).1 (central nonEmpty).2 majority
  omega

variable {nthElement : Nat → List Int → List Int} {ordered : List Int}

theorem max?_take (selected : Selected items (items.length / 2) ordered) (nonEmpty : items ≠ [])
    (even : items.length % 2 = 0) :
    (ordered.take (items.length / 2)).max? = some (lowerCentral items) := by
  have positive := length_pos_iff.mpr nonEmpty
  obtain ⟨before, after, parts, place, below, _⟩ := exists_around (central nonEmpty).1
  have first : (sorted items).take (items.length / 2) = before ++ [lowerCentral items] := by
    rw [parts, ← singleton_append, ← append_assoc]
    apply take_left'
    rw [length_append, length_singleton]
    omega
  have same := selected.take_perm (by omega)
  rw [first] at same
  rw [max?_eq_some_iff]
  constructor
  · rw [same.mem_iff]
    simp
  · intro item member
    rw [same.mem_iff, mem_append, mem_singleton] at member
    exact member.elim (below item) Int.le_of_eq

theorem shift_eq (selects : Selects nthElement) (positive : 0 < capacity)
    (fits : ∀ offset ∈ fed, -2 ^ 63 ≤ offset ∧ offset < 2 ^ 63) : let items := window capacity fed
    (fed.foldl feed (empty capacity)).shift nthElement =
      if upperCentral items - lowerCentral items < 2 ^ 63 then
        some (lowerCentral items + (upperCentral items - lowerCentral items).tdiv 2)
      else none := by
  intro items
  obtain ⟨perm, filled⟩ := stored_perm positive fed
  generalize fed.foldl feed (empty capacity) = drift at *
  change _ ~ items at perm
  change drift.filled = items.length at filled
  have ordered := central_le items
  have between := (estimates_midpoint items).between
  by_cases none : items = []
  · simp [shift, filled, none, lowerCentral, upperCentral, sorted]
  have nonZero : drift.filled ≠ 0 := by simpa [filled] using none
  have within : ∀ {place : Nat} {item : Int}, (sorted items)[place]? = some item →
      -2 ^ 63 ≤ item ∧ item < 2 ^ 63 := fun found => fits _
    (mem_of_mem_drop ((sorted_perm items).mem_iff.mp (mem_of_getElem? found)))
  have lowerFits := within (central none).1
  have upperFits := within (central none).2
  have partitioned := selects (items.length / 2) (drift.samples.take drift.filled)
    (by rw [perm.length_eq]; omega)
  have selected : Selected items (items.length / 2) _ :=
    ⟨partitioned.perm.trans perm, partitioned.nth.trans (by rw [sorted_congr perm]),
      partitioned.split⟩
  rw [shift, if_neg nonZero, medianOffset]
  rw [filled] at *
  rw [selected.nth, (central none).2]
  dsimp only
  split
  · rename_i odd
    rw [central_of_odd odd, Int.sub_self, if_pos (by decide)]
    simp
  rw [max?_take selected none (by omega)]
  dsimp only
  rw [int64]
  split
  · rename_i close
    rw [if_pos close.2, Option.bind_some, int64, if_pos (by omega)]
  · rw [if_neg (by omega)]
    rfl

/-- The estimate is made, and depends on the samples of the window alone, exactly when the central
ones are less than `2 ^ 63` apart. -/
theorem shift_exact (selects : Selects nthElement) (positive : 0 < capacity)
    (fits : ∀ offset ∈ fed, -2 ^ 63 ≤ offset ∧ offset < 2 ^ 63) :
    let items := window capacity fed
    (∃ value, (fed.foldl feed (empty capacity)).shift nthElement = some value ∧
        Estimates items value ∧ ∀ nthOther others, Selects nthOther →
          (∀ offset ∈ others, -2 ^ 63 ≤ offset ∧ offset < 2 ^ 63) →
          window capacity others ~ items →
          (others.foldl feed (empty capacity)).shift nthOther = some value) ↔
      upperCentral items - lowerCentral items < 2 ^ 63 := by
  intro items
  rw [shift_eq selects positive fits]
  constructor
  · rintro ⟨value, isValue, _⟩
    by_contra far
    rw [if_neg far] at isValue
    cases isValue
  intro close
  refine ⟨_, if_pos close, estimates_midpoint items, ?_⟩
  intro nthOther others selectsOther othersFit same
  rw [shift_eq selectsOther positive othersFit, lowerCentral, upperCentral, sorted_congr same,
    same.length_eq]
  exact if_pos close

theorem shift_exact_three :
    (∃ value, ([5, -2, 9, 7].foldl feed (empty 3)).shift (fun _ => sorted) = some value ∧
        Estimates (window 3 [5, -2, 9, 7]) value ∧ ∀ nthOther others, Selects nthOther →
          (∀ offset ∈ others, -2 ^ 63 ≤ offset ∧ offset < 2 ^ 63) →
          window 3 others ~ window 3 [5, -2, 9, 7] →
          (others.foldl feed (empty 3)).shift nthOther = some value) ↔
      upperCentral (window 3 [5, -2, 9, 7]) - lowerCentral (window 3 [5, -2, 9, 7]) < 2 ^ 63 :=
  shift_exact (fun _ _ _ => selected_sorted _ _) (by decide) (by decide)

/-- Two samples at the ends of the range: their difference overflows. -/
theorem shift_far :
    ¬∃ value, ([-2 ^ 63, 2 ^ 63 - 1].foldl feed (empty 2)).shift (fun _ => sorted) =
      some value := by
  have inOrder : sorted [(-9223372036854775808 : Int), 9223372036854775807] = _ :=
    (eq_sorted (Perm.refl _) (by simp)).symm
  have far := @shift_eq [-2 ^ 63, 2 ^ 63 - 1] 2 (fun _ => sorted)
    (fun _ _ _ => selected_sorted _ _) (by decide) (by decide)
  rintro ⟨value, isValue⟩
  rw [far] at isValue
  simp [window, lowerCentral, upperCentral, inOrder] at isValue

end Drift

end Grab.Support
