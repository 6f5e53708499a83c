import Mathlib.Data.List.Induction
import Mathlib.Algebra.Order.BigOperators.Group.List
import Mathlib.Algebra.Ring.Nat

/-!
# Compressed rows

Values tagged with a row number are grouped by a counting sort: the degree of
each row is counted, running totals of the degrees become row offsets, and each
value is written to the next free slot of its row.  `row_build` says that the
slice between two offsets is the list of values of that row in input order.
-/

namespace Grab.Lib.Rows

open List

universe u

variable {β : Type u} [Inhabited β] {entries done rest : List (Nat × β)} {state : List Nat × List β}
  {count index : Nat}

/-- Offsets and the slots they delimit: row `i` occupies the slots from
`offsets[i]` up to `offsets[i + 1]`. -/
structure Table (β : Type u) where
  offsets : List Nat
  slots : List β
  deriving DecidableEq, Repr

/-- Number of entries of each row; entries past the last row are ignored. -/
def degrees (count : Nat) (entries : List (Nat × β)) : List Nat :=
  entries.foldl
    (fun counts entry =>
      if entry.1 < count then counts.modify entry.1 (· + 1) else counts)
    (List.replicate count 0)

/-- Running totals, ending with the grand total. -/
def offsetsFrom : Nat → List Nat → List Nat
  | total, [] => [total]
  | total, degree :: rest => total :: offsetsFrom (total + degree) rest

/-- Write one value at the cursor of its row and advance the cursor. -/
def place (count : Nat) (state : List Nat × List β) (entry : Nat × β) : List Nat × List β :=
  if entry.1 < count then
    (state.1.modify entry.1 (· + 1), state.2.set (state.1.getD entry.1 0) entry.2)
  else
    state

def build (count : Nat) (entries : List (Nat × β)) : Table β :=
  let offsets := offsetsFrom 0 (degrees count entries)
  let filled := entries.foldl (place count)
    (offsets.take count, List.replicate (degrees count entries).sum default)
  ⟨offsets, filled.2⟩

/-- The slots of one row; empty for a row number past the last row. -/
def row (rows : Table β) (index : Nat) : List β :=
  let first := rows.offsets.getD index 0
  (rows.slots.drop first).take (rows.offsets.getD (index + 1) 0 - first)

/-- The values tagged with a row number, in input order. -/
def valuesOf (entries : List (Nat × β)) (index : Nat) : List β :=
  (entries.filter fun entry => entry.1 == index).map Prod.snd

omit [Inhabited β] in
theorem mem_valuesOf_iff {entries : List (Nat × β)} {value : β} :
    value ∈ valuesOf entries index ↔ (index, value) ∈ entries := by
  simp only [valuesOf, mem_map, mem_filter, beq_iff_eq]
  constructor
  · rintro ⟨⟨key, tagged⟩, ⟨member, rfl⟩, rfl⟩
    exact member
  · intro member
    exact ⟨(index, value), ⟨member, rfl⟩, rfl⟩

omit [Inhabited β] in
theorem valuesOf_append_singleton (entries : List (Nat × β)) (entry : Nat × β) (index : Nat) :
    valuesOf (entries ++ [entry]) index =
      valuesOf entries index ++ if entry.1 = index then [entry.2] else [] := by
  by_cases same : entry.1 = index <;> simp [valuesOf, same]

omit [Inhabited β] in
theorem valuesOf_length_le_append (first second : List (Nat × β)) (index : Nat) :
    (valuesOf first index).length ≤ (valuesOf (first ++ second) index).length := by
  simp [valuesOf]

omit [Inhabited β] in
theorem degrees_append_singleton (count : Nat) (entries : List (Nat × β)) (entry : Nat × β) :
    degrees count (entries ++ [entry]) =
      if entry.1 < count then (degrees count entries).modify entry.1 (· + 1)
      else degrees count entries := by
  simp [degrees]

omit [Inhabited β] in
theorem length_degrees (count : Nat) (entries : List (Nat × β)) :
    (degrees count entries).length = count := by
  induction entries using List.reverseRecOn with
  | nil => simp [degrees]
  | append_singleton entries entry ih =>
    rw [degrees_append_singleton]
    split <;> simp [ih]

omit [Inhabited β] in
theorem getElem?_degrees (inside : index < count) (entries : List (Nat × β)) :
    (degrees count entries)[index]? = some (valuesOf entries index).length := by
  induction entries using List.reverseRecOn with
  | nil => simp [degrees, valuesOf, inside]
  | append_singleton entries entry ih =>
    rw [degrees_append_singleton, valuesOf_append_singleton, length_append]
    by_cases same : entry.1 = index
    · rw [if_pos (same ▸ inside), getElem?_modify, ih]
      simp [same]
    by_cases bounded : entry.1 < count
    · rw [if_pos bounded, getElem?_modify, ih]
      simp [same]
    · rw [if_neg bounded, ih]
      simp [same]

theorem getElem?_offsetsFrom (total : Nat) {degrees : List Nat} (inside : index ≤ degrees.length) :
    (offsetsFrom total degrees)[index]? = some (total + (degrees.take index).sum) := by
  induction degrees generalizing total index with
  | nil =>
    obtain rfl : index = 0 := by simpa using inside
    simp [offsetsFrom]
  | cons degree rest ih =>
    cases index with
    | zero => simp [offsetsFrom]
    | succ index =>
      have bounded : index ≤ rest.length := by simpa using inside
      have inner := ih (total + degree) bounded
      simpa [offsetsFrom, Nat.add_assoc] using inner

/-- First slot of a row. -/
def start (degrees : List Nat) (index : Nat) : Nat := (degrees.take index).sum

theorem start_succ {degrees : List Nat} {index degree : Nat}
    (found : degrees[index]? = some degree) :
    start degrees (index + 1) = start degrees index + degree := by
  simp [start, take_add_one, found]

theorem start_mono (degrees : List Nat) {first second : Nat} (le : first ≤ second) :
    start degrees first ≤ start degrees second := by
  have split : degrees.take second = degrees.take first ++ (degrees.take second).drop first := by
    conv_lhs => rw [← take_append_drop first (degrees.take second), take_take]
    rw [Nat.min_eq_left le]
  rw [start, start, split, sum_append]
  exact Nat.le_add_right _ _

theorem start_length (degrees : List Nat) : start degrees degrees.length = degrees.sum := by
  simp [start]

/-- Distinct rows occupy disjoint slots. -/
theorem start_disjoint {degrees : List Nat} {first second firstDegree secondDegree : Nat}
    (firstFound : degrees[first]? = some firstDegree)
    (secondFound : degrees[second]? = some secondDegree) (distinct : first ≠ second)
    {i j : Nat} (firstSlot : i < firstDegree) (secondSlot : j < secondDegree) :
    start degrees first + i ≠ start degrees second + j := by
  have firstEnd := start_succ firstFound
  have secondEnd := start_succ secondFound
  rcases Nat.lt_or_gt_of_ne distinct with less | greater
  · have := start_mono degrees (show first + 1 ≤ second from less)
    omega
  · have := start_mono degrees (show second + 1 ≤ first from greater)
    omega

/-- What the filling loop has established after a prefix of the entries. -/
structure Filled (count : Nat) (degrees : List Nat) (done : List (Nat × β))
    (state : List Nat × List β) : Prop where
  slotsLength : state.2.length = degrees.sum
  cursor : ∀ index < count,
    state.1[index]? = some (start degrees index + (valuesOf done index).length)
  slots : ∀ index < count, ∀ position value,
    (valuesOf done index)[position]? = some value →
      state.2[start degrees index + position]? = some value

omit [Inhabited β] in
theorem Filled.place {entry : Nat × β} (split : entries = done ++ entry :: rest)
    (filled : Filled count (degrees count entries) done state) :
    Filled count (degrees count entries) (done ++ [entry]) (Rows.place count state entry) := by
  have degreeOf : ∀ index < count, (degrees count entries)[index]? =
      some (valuesOf entries index).length := fun index inside =>
    getElem?_degrees inside entries
  have doneLe : ∀ index, (valuesOf (done ++ [entry]) index).length ≤
      (valuesOf entries index).length := fun index => by
    rw [split, show done ++ entry :: rest = (done ++ [entry]) ++ rest by simp]
    exact valuesOf_length_le_append _ _ index
  by_cases bounded : entry.1 < count
  · have cursorEq := filled.cursor entry.1 bounded
    have slotEq : state.1.getD entry.1 0 =
        start (degrees count entries) entry.1 + (valuesOf done entry.1).length := by
      simp [getD_eq_getElem?_getD, cursorEq]
    have room : (valuesOf done entry.1).length < (valuesOf entries entry.1).length := by
      have le := doneLe entry.1
      rw [valuesOf_append_singleton, if_pos rfl, length_append] at le
      exact le
    have inSlots : start (degrees count entries) entry.1 + (valuesOf done entry.1).length <
        (degrees count entries).sum := by
      have rowEnd := start_succ (degreeOf entry.1 bounded)
      have le := start_mono (degrees count entries) (show entry.1 + 1 ≤ count from bounded)
      have total := start_length (degrees count entries)
      rw [length_degrees] at total
      omega
    rw [Rows.place, if_pos bounded, slotEq]
    refine ⟨by simpa using filled.slotsLength, ?_, ?_⟩
    · intro index inside
      rw [getElem?_modify, filled.cursor index inside, valuesOf_append_singleton]
      by_cases same : entry.1 = index <;> simp [same, Nat.add_assoc]
    intro index inside position value found
    rw [valuesOf_append_singleton] at found
    by_cases same : entry.1 = index
    · subst index
      rw [if_pos rfl] at found
      rcases Nat.lt_trichotomy position (valuesOf done entry.1).length with
        less | equal | greater
      · rw [getElem?_append_left less] at found
        rw [getElem?_set_ne (by omega)]
        exact filled.slots entry.1 inside position value found
      · subst position
        rw [getElem?_append_right (Nat.le_refl _)] at found
        rw [getElem?_set_self (by rw [filled.slotsLength]; exact inSlots)]
        simpa using found
      · rw [getElem?_append_right (Nat.le_of_lt greater)] at found
        have : position - (valuesOf done entry.1).length ≠ 0 := by omega
        simp [this] at found
    · rw [if_neg same, append_nil] at found
      have positionLt : position < (valuesOf entries index).length := by
        have before := (List.getElem?_eq_some_iff.mp found).1
        have le := doneLe index
        rw [valuesOf_append_singleton, if_neg same, append_nil] at le
        omega
      rw [getElem?_set_ne (start_disjoint (degreeOf entry.1 bounded)
        (degreeOf index inside) same room positionLt)]
      exact filled.slots index inside position value found
  · rw [Rows.place, if_neg bounded]
    have valuesEq : ∀ index < count, valuesOf (done ++ [entry]) index = valuesOf done index := by
      intro index inside
      rw [valuesOf_append_singleton, if_neg (by omega), append_nil]
    refine ⟨filled.slotsLength, ?_, ?_⟩
    · intro index inside
      rw [valuesEq index inside]
      exact filled.cursor index inside
    · intro index inside
      rw [valuesEq index inside]
      exact filled.slots index inside

omit [Inhabited β] in
/-- The filling loop, from any prefix of the entries to their end. -/
theorem Filled.foldl (split : entries = done ++ rest)
    (filled : Filled count (degrees count entries) done state) :
    Filled count (degrees count entries) entries (rest.foldl (Rows.place count) state) := by
  induction rest generalizing done state with
  | nil =>
    rw [append_nil] at split
    rw [split] at filled ⊢
    exact filled
  | cons entry rest ih =>
    exact ih (by rw [split, append_assoc, singleton_append]) (filled.place split)

/-- The counting sort groups the values by row and keeps their order. -/
theorem row_build (inside : index < count) (entries : List (Nat × β)) :
    row (build count entries) index = valuesOf entries index := by
  have degreesLength := length_degrees count entries
  have initial : Filled count (degrees count entries) ([] : List (Nat × β))
      ((offsetsFrom 0 (degrees count entries)).take count,
        List.replicate (degrees count entries).sum default) := by
    refine ⟨by simp, ?_, by simp [valuesOf]⟩
    intro row rowInside
    rw [getElem?_take_of_lt rowInside, getElem?_offsetsFrom 0 (by omega)]
    simp [start, valuesOf]
  have filled := initial.foldl (nil_append entries).symm
  have first : (offsetsFrom 0 (degrees count entries)).getD index 0 =
      start (degrees count entries) index := by
    simp [getD_eq_getElem?_getD, getElem?_offsetsFrom 0
      (show index ≤ (degrees count entries).length by omega), start]
  have last : (offsetsFrom 0 (degrees count entries)).getD (index + 1) 0 =
      start (degrees count entries) index + (valuesOf entries index).length := by
    rw [← start_succ (getElem?_degrees inside entries)]
    simp [getD_eq_getElem?_getD, getElem?_offsetsFrom 0
      (show index + 1 ≤ (degrees count entries).length by omega), start]
  simp only [row, build, first, last, Nat.add_sub_cancel_left]
  apply ext_getElem?
  intro position
  by_cases before : position < (valuesOf entries index).length
  · rw [getElem?_take_of_lt before, getElem?_drop, getElem?_eq_getElem before]
    exact filled.slots index inside position _ (getElem?_eq_getElem before)
  · rw [getElem?_eq_none (Nat.le_of_not_lt before)]
    apply getElem?_eq_none
    exact (length_take_le _ _).trans (Nat.le_of_not_lt before)

end Grab.Lib.Rows
