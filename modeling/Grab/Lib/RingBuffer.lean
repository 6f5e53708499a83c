import Mathlib.Data.List.Rotate
import Mathlib.Data.Nat.ModEq

/-!
# Ring buffers

A fixed number of cells, the position of the oldest item and the number of items.  `contents`
is the queue the cells stand for; each operation is described by what it does to it.
-/

namespace Grab.Lib

open List

universe u

structure RingBuffer (α : Type u) where
  cells : List α
  head : Nat
  size : Nat
  fits : size ≤ cells.length
  started : cells = [] ∨ head < cells.length

namespace RingBuffer

variable {α : Type u}

/-- The cell of the item `offset` places behind the oldest. -/
def index (ring : RingBuffer α) (offset : Nat) : Nat := (ring.head + offset) % ring.cells.length

/-- Items from the oldest to the newest. -/
def contents (ring : RingBuffer α) : List α := (ring.cells.rotate ring.head).take ring.size

/-- `count` cells that hold nothing of interest. -/
def blank (count : Nat) (filler : α) : RingBuffer α where
  cells := List.replicate count filler
  head := 0
  size := 0
  fits := Nat.zero_le _
  started := by
    cases count with
    | zero => exact .inl rfl
    | succ count => exact .inr (by rw [length_replicate]; exact Nat.succ_pos count)

/-- Write the cell behind the newest item. -/
def push (ring : RingBuffer α) (item : α) (room : ring.size < ring.cells.length) :
    RingBuffer α where
  cells := ring.cells.set (ring.index ring.size) item
  head := ring.head
  size := ring.size + 1
  fits := by
    rw [length_set]
    exact room
  started := by
    rw [length_set, set_eq_nil_iff]
    exact ring.started

/-- The cell of the newest item. -/
def back? (ring : RingBuffer α) : Option α := ring.cells[ring.index (ring.size - 1)]?

/-- Overwrite the newest item. -/
def setBack (ring : RingBuffer α) (item : α) : RingBuffer α where
  cells := ring.cells.set (ring.index (ring.size - 1)) item
  head := ring.head
  size := ring.size
  fits := by
    rw [length_set]
    exact ring.fits
  started := by
    rw [length_set, set_eq_nil_iff]
    exact ring.started

/-- Take the oldest item and blank its cell. -/
def pop (ring : RingBuffer α) (filler : α) : RingBuffer α where
  cells := ring.cells.set ring.head filler
  head := (ring.head + 1) % ring.cells.length
  size := ring.size - 1
  fits := by
    rw [length_set]
    exact Nat.le_trans (Nat.sub_le _ _) ring.fits
  started := by
    rw [length_set, set_eq_nil_iff]
    rcases ring.started with empty | inside
    · exact .inl empty
    · exact .inr (Nat.mod_lt _ (Nat.zero_lt_of_lt inside))

variable {ring : RingBuffer α} {item : α} {offset : Nat}

theorem index_lt (positive : 0 < ring.cells.length) (offset : Nat) :
    ring.index offset < ring.cells.length :=
  Nat.mod_lt _ positive

/-- Different offsets below the capacity have different cells. -/
theorem index_injective {first second : Nat} (firstInside : first < ring.cells.length)
    (secondInside : second < ring.cells.length) (same : ring.index first = ring.index second) :
    first = second := by
  have congruent : first ≡ second [MOD ring.cells.length] :=
    Nat.ModEq.add_left_cancel' ring.head same
  exact Nat.ModEq.eq_of_lt_of_lt congruent firstInside secondInside

/-- Writing one cell changes one item. -/
theorem getElem?_set_index {cells : List α} (same : cells.length = ring.cells.length)
    {place other : Nat} (inside : place < ring.cells.length) (below : other < ring.cells.length) :
    (cells.set (ring.index place) item)[ring.index other]? =
      if other = place then some item else cells[ring.index other]? := by
  split
  · rename_i here
    rw [here, getElem?_set_self]
    rw [same]
    exact index_lt (Nat.zero_lt_of_lt inside) _
  · rename_i apart
    exact getElem?_set_ne fun same => apart (index_injective inside below same).symm

theorem length_contents (ring : RingBuffer α) : ring.contents.length = ring.size := by
  rw [contents, List.length_take, length_rotate]
  exact Nat.min_eq_left ring.fits

theorem getElem?_contents (inside : offset < ring.size) :
    ring.contents[offset]? = ring.cells[ring.index offset]? := by
  rw [contents, getElem?_take_of_lt inside,
    getElem?_rotate (Nat.lt_of_lt_of_le inside ring.fits), index, Nat.add_comm]

/-- A queue is known by its length and its items. -/
theorem contents_eq {items : List α} (length : items.length = ring.size)
    (same : ∀ offset, offset < ring.size → ring.cells[ring.index offset]? = items[offset]?) :
    ring.contents = items := by
  apply ext_getElem?
  intro offset
  by_cases inside : offset < ring.size
  · rw [getElem?_contents inside]
    exact same offset inside
  · rw [getElem?_eq_none (by rw [length_contents]; omega), getElem?_eq_none (by omega)]

theorem contents_blank (count : Nat) (filler : α) : (blank count filler).contents = [] := take_zero

variable (room : ring.size < ring.cells.length)

theorem index_push (offset : Nat) : (ring.push item room).index offset = ring.index offset := by
  rw [index, index, push, length_set]

theorem contents_push : (ring.push item room).contents = ring.contents ++ [item] := by
  apply contents_eq
  · rw [length_append, length_contents]
    rfl
  intro offset inside
  rw [index_push]
  change (ring.cells.set (ring.index ring.size) item)[ring.index offset]? = _
  have below : offset < ring.size + 1 := inside
  rw [getElem?_set_index rfl room (by omega)]
  split
  · rename_i newest
    rw [newest, ← length_contents, getElem?_concat_length]
  · have older : offset < ring.size := by omega
    rw [← getElem?_contents older, getElem?_append_left (by rw [length_contents]; exact older)]

variable (nonEmpty : 0 < ring.size)

include nonEmpty

theorem back?_eq : ring.back? = ring.contents.getLast? := by
  rw [back?, ← getElem?_contents (by omega), getLast?_eq_getElem?, length_contents]

theorem contents_setBack : (ring.setBack item).contents = ring.contents.dropLast ++ [item] := by
  have fits := ring.fits
  apply contents_eq
  · rw [length_append, length_dropLast, length_contents]
    change ring.size - 1 + 1 = ring.size
    omega
  intro offset inside
  have below : offset < ring.size := inside
  have sameIndex : (ring.setBack item).index offset = ring.index offset := by
    rw [index, index, setBack, length_set]
  rw [sameIndex]
  change (ring.cells.set (ring.index (ring.size - 1)) item)[ring.index offset]? = _
  have shorter : ring.contents.dropLast.length = ring.size - 1 := by
    rw [length_dropLast, length_contents]
  rw [getElem?_set_index rfl (by omega) (by omega)]
  split
  · rename_i newest
    rw [newest, ← shorter, getElem?_concat_length]
  rw [← getElem?_contents below, getElem?_append_left (by omega), getElem?_dropLast, if_pos]
  rw [length_contents]
  omega

/-- The head is the position of a cell as soon as there is an item. -/
theorem head_lt : ring.head < ring.cells.length := by
  have fits := ring.fits
  rcases ring.started with empty | inside
  · rw [empty, length_nil] at fits
    omega
  · exact inside

theorem index_zero : ring.index 0 = ring.head := by
  rw [index, Nat.add_zero, Nat.mod_eq_of_lt (head_lt nonEmpty)]

theorem cells_head : ring.cells[ring.head]? = ring.contents.head? := by
  rw [head?_eq_getElem?, getElem?_contents nonEmpty, index_zero nonEmpty]

theorem contents_pop {filler : α} : (ring.pop filler).contents = ring.contents.tail := by
  have fits := ring.fits
  apply contents_eq
  · rw [length_tail, length_contents]
    rfl
  intro offset inside
  have below : offset < ring.size - 1 := inside
  have shifted : (ring.pop filler).index offset = ring.index (offset + 1) := by
    rw [index, index, pop, length_set, Nat.mod_add_mod, Nat.add_assoc, Nat.add_comm 1 offset]
  rw [shifted]
  change (ring.cells.set ring.head filler)[ring.index (offset + 1)]? = _
  rw [← index_zero nonEmpty, getElem?_set_index rfl (by omega) (by omega), if_neg (by omega),
    ← getElem?_contents (by omega), getElem?_tail]

omit nonEmpty

/-! ## Overwriting and removing -/

/-- Give up the oldest item; its cell keeps what it holds. -/
def advance (ring : RingBuffer α) : RingBuffer α where
  cells := ring.cells
  head := ring.index 1
  size := ring.size - 1
  fits := Nat.le_trans (Nat.sub_le _ _) ring.fits
  started := ring.started.imp_right fun inside => Nat.mod_lt _ (Nat.zero_lt_of_lt inside)

/-- Write a newest item over the oldest. -/
def overwrite (ring : RingBuffer α) (item : α) : RingBuffer α where
  cells := ring.cells.set ring.head item
  head := ring.index 1
  size := ring.size
  fits := by
    rw [length_set]
    exact ring.fits
  started := by
    rw [length_set, set_eq_nil_iff]
    exact ring.started.imp_right fun inside => Nat.mod_lt _ (Nat.zero_lt_of_lt inside)

/-- The cells after `count` items from an offset on were copied one place forward. -/
def shifted (ring : RingBuffer α) (offset : Nat) : Nat → List α
  | 0 => ring.cells
  | count + 1 =>
    let cells := ring.shifted offset count
    match cells[ring.index (offset + count + 1)]? with
    | some item => cells.set (ring.index (offset + count)) item
    | none => cells

theorem length_shifted (offset count : Nat) :
    (ring.shifted offset count).length = ring.cells.length := by
  induction count with
  | zero => rfl
  | succ count before =>
    rw [shifted]
    split
    · rw [length_set, before]
    · exact before

/-- Remove the item at an offset by moving the newer ones forward. -/
def removeAt (ring : RingBuffer α) (offset : Nat) : RingBuffer α where
  cells := ring.shifted offset (ring.size - 1 - offset)
  head := ring.head
  size := ring.size - 1
  fits := by
    rw [length_shifted]
    exact Nat.le_trans (Nat.sub_le _ _) ring.fits
  started := by
    rw [← length_eq_zero_iff, length_shifted, length_eq_zero_iff]
    exact ring.started

theorem getElem?_shifted {offset place : Nat} (below : place < ring.cells.length) (count : Nat)
    (inside : offset + count < ring.cells.length) : (ring.shifted offset count)[ring.index place]? =
      if offset ≤ place ∧ place < offset + count then ring.cells[ring.index (place + 1)]?
      else ring.cells[ring.index place]? := by
  induction count generalizing place with
  | zero => rw [shifted, if_neg (by omega)]
  | succ count before =>
    have next := before inside (by omega)
    have here := before below (by omega)
    rw [if_neg (by omega)] at next
    have found := getElem?_eq_getElem (index_lt (Nat.zero_lt_of_lt below) (offset + count + 1))
    rw [shifted, ← Nat.add_assoc] at *
    rw [next, found]
    rw [getElem?_set_index (length_shifted _ _) (by omega) below]
    split
    · rename_i same
      rw [if_pos (by omega), ← found, same]
    rename_i apart
    rw [here]
    by_cases moved : offset ≤ place ∧ place < offset + count
    · rw [if_pos moved, if_pos (by omega)]
    · rw [if_neg moved, if_neg (by omega)]

theorem index_advance (offset : Nat) : ring.advance.index offset = ring.index (offset + 1) := by
  change (ring.index 1 + offset) % ring.cells.length = _
  rw [index, index, Nat.mod_add_mod, Nat.add_assoc, Nat.add_comm 1 offset]

include nonEmpty

theorem contents_advance : ring.advance.contents = ring.contents.tail := by
  apply contents_eq
  · rw [length_tail, length_contents]
    rfl
  intro offset inside
  have below : offset < ring.size - 1 := inside
  rw [index_advance, getElem?_tail, getElem?_contents (by omega)]
  rfl

theorem contents_overwrite (full : ring.size = ring.cells.length) (item : α) :
    (ring.overwrite item).contents = ring.contents.tail ++ [item] := by
  have shorter : ring.contents.tail.length = ring.size - 1 := by
    rw [length_tail, length_contents]
  apply contents_eq
  · rw [length_append, shorter]
    exact Nat.sub_add_cancel nonEmpty
  intro offset inside
  have below : offset < ring.size := inside
  have moved : (ring.overwrite item).index offset = ring.index (offset + 1) := by
    change (ring.index 1 + offset) % (ring.cells.set _ _).length = _
    rw [length_set]
    exact index_advance offset
  rw [moved]
  change (ring.cells.set ring.head item)[ring.index (offset + 1)]? = _
  by_cases newest : offset = ring.size - 1
  · have wraps : ring.index (offset + 1) = ring.index 0 := by
      rw [index, index, newest, Nat.sub_add_cancel nonEmpty, full, Nat.add_mod_right, Nat.add_zero]
    rw [wraps, ← index_zero nonEmpty, getElem?_set_index rfl (by omega) (by omega), if_pos rfl,
      newest, ← shorter, getElem?_concat_length]
  · rw [← index_zero nonEmpty, getElem?_set_index rfl (by omega) (by omega), if_neg (by omega),
      getElem?_append_left (by omega), getElem?_tail, getElem?_contents (by omega)]

theorem contents_removeAt (inside : offset < ring.size) :
    (ring.removeAt offset).contents = ring.contents.eraseIdx offset := by
  have fits := ring.fits
  apply contents_eq
  · rw [length_eraseIdx_of_lt (by rw [length_contents]; exact inside), length_contents]
    rfl
  intro place below
  have below : place < ring.size - 1 := below
  have same : (ring.removeAt offset).index place = ring.index place := by
    rw [index, index, removeAt, length_shifted]
  rw [same, getElem?_eraseIdx]
  change (ring.shifted offset (ring.size - 1 - offset))[ring.index place]? = _
  rw [getElem?_shifted (by omega) _ (by omega)]
  split
  · rw [if_neg (by omega), getElem?_contents (by omega)]
  · rw [if_pos (by omega), getElem?_contents (by omega)]

end RingBuffer

end Grab.Lib
