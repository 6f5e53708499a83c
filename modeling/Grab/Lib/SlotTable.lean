import Mathlib.Data.List.Nodup
import Mathlib.Data.List.ReduceOption

/-!
# Tables with reusable slots

Items with distinct keys stand in a list of cells; a list of free slots names cells to reuse.
Entering an item into a free or a new cell, replacing it and taking it out keep the table sound
and change what it holds by that item only.
-/

namespace Grab.Lib

open List Option

universe u v

variable {α : Type u} {κ : Type v} {key : α → κ} {cells : List (Option α)} {free : List Nat}
  {slot : Nat} {item other old : α}

/-- No two cells hold items of one key, and the free slots are vacant cells, each named once. -/
structure SlotTable (key : α → κ) (cells : List (Option α)) (free : List Nat) : Prop where
  unique : ∀ {first second : Nat} {left right : α}, cells[first]? = some (some left) →
    cells[second]? = some (some right) → key left = key right → first = second
  once : free.Nodup
  vacant : ∀ slot ∈ free, cells[slot]? = some none

namespace SlotTable

theorem mem_cells_iff : some item ∈ cells ↔ ∃ slot : Nat, cells[slot]? = some (some item) :=
  mem_iff_getElem?

variable {cell : Option α}

theorem lt_of_getElem? (here : cells[slot]? = some cell) : slot < cells.length :=
  (List.getElem?_eq_some_iff.mp here).1

theorem nil : SlotTable key ([] : List (Option α)) [] where
  unique here := by cases here
  once := nodup_nil
  vacant _ member := absurd member not_mem_nil

/-! ## What a table holds -/

/-- Holding is independent of the cell a different item is written to. -/
theorem mem_set_of_ne {index : Nat} (elsewhere : index ≠ slot)
    (here : cells[index]? = some (some item)) : some item ∈ cells.set slot cell := by
  rw [mem_cells_iff]
  refine ⟨index, ?_⟩
  rw [getElem?_set_ne (Ne.symm elsewhere)]
  exact here

/-- An item in a table after a cell was written stood elsewhere before or is what was written. -/
theorem mem_set_cases (member : some item ∈ cells.set slot cell) :
    cell = some item ∨ ∃ index : Nat, index ≠ slot ∧ cells[index]? = some (some item) := by
  rw [mem_cells_iff] at member
  rcases member with ⟨index, here⟩
  by_cases same : index = slot
  · subst same
    have inside := lt_of_getElem? here
    rw [length_set] at inside
    rw [getElem?_set_self inside, some.injEq] at here
    exact .inl here
  · rw [getElem?_set_ne (Ne.symm same)] at here
    exact .inr ⟨index, same, here⟩

variable (table : SlotTable key cells free)

include table

theorem mem_vacate (here : cells[slot]? = some (some old)) :
    some item ∈ cells.set slot none ↔ some item ∈ cells ∧ key item ≠ key old := by
  constructor
  · intro member
    rcases mem_set_cases member with written | ⟨index, elsewhere, there⟩
    · cases written
    · exact ⟨mem_cells_iff.mpr ⟨index, there⟩, fun same => elsewhere (table.unique there here same)⟩
  rintro ⟨member, different⟩
  rcases mem_cells_iff.mp member with ⟨index, there⟩
  apply mem_set_of_ne _ there
  rintro rfl
  rw [here] at there
  cases there
  exact different rfl

theorem mem_replace (here : cells[slot]? = some (some old)) (same : key item = key old) :
    some other ∈ cells.set slot (some item) ↔
      other = item ∨ some other ∈ cells ∧ key other ≠ key item := by
  constructor
  · intro member
    rcases mem_set_cases member with written | ⟨index, elsewhere, there⟩
    · cases written
      exact .inl rfl
    · refine .inr ⟨mem_cells_iff.mpr ⟨index, there⟩, ?_⟩
      intro sameKey
      exact elsewhere (table.unique there here (sameKey.trans same))
  · rintro (rfl | ⟨member, different⟩)
    · rw [mem_cells_iff]
      exact ⟨slot, getElem?_set_self (lt_of_getElem? here)⟩
    · rcases mem_cells_iff.mp member with ⟨index, there⟩
      apply mem_set_of_ne _ there
      rintro rfl
      rw [here] at there
      cases there
      exact different same.symm

omit table in
theorem mem_fill (vacant : cells[slot]? = some none) :
    some other ∈ cells.set slot (some item) ↔ other = item ∨ some other ∈ cells := by
  constructor
  · intro member
    rcases mem_set_cases member with written | ⟨index, _, there⟩
    · cases written
      exact .inl rfl
    · exact .inr (mem_cells_iff.mpr ⟨index, there⟩)
  rintro (rfl | member)
  · rw [mem_cells_iff]
    exact ⟨slot, getElem?_set_self (lt_of_getElem? vacant)⟩
  rcases mem_cells_iff.mp member with ⟨index, there⟩
  apply mem_set_of_ne _ there
  rintro rfl
  rw [vacant] at there
  cases there

/-! ## Operations keep a table sound -/

/-- Writing an item whose key stands in no other cell keeps the keys apart. -/
theorem unique_set (apart : ∀ {index : Nat} {item held : α}, cell = some item → index ≠ slot →
      cells[index]? = some (some held) → key held ≠ key item) {first second : Nat} {left right : α}
    (inFirst : (cells.set slot cell)[first]? = some (some left))
    (inSecond : (cells.set slot cell)[second]? = some (some right)) (same : key left = key right) :
    first = second := by
  have written : ∀ {index : Nat} {item : α}, (cells.set slot cell)[index]? = some (some item) →
      index = slot ∧ cell = some item ∨ index ≠ slot ∧ cells[index]? = some (some item) := by
    intro index item here
    by_cases atSlot : index = slot
    · subst atSlot
      have inside := lt_of_getElem? here
      rw [length_set] at inside
      rw [getElem?_set_self inside, some.injEq] at here
      exact .inl ⟨rfl, here⟩
    · rw [getElem?_set_ne (Ne.symm atSlot)] at here
      exact .inr ⟨atSlot, here⟩
  rcases written inFirst with ⟨rfl, isLeft⟩ | ⟨firstElsewhere, firstHere⟩
  · rcases written inSecond with ⟨rfl, _⟩ | ⟨secondElsewhere, secondHere⟩
    · rfl
    · exact absurd same.symm (apart isLeft secondElsewhere secondHere)
  · rcases written inSecond with ⟨rfl, isRight⟩ | ⟨_, secondHere⟩
    · exact absurd same (apart isRight firstElsewhere firstHere)
    · exact table.unique firstHere secondHere same

theorem vacate (here : cells[slot]? = some (some old)) :
    SlotTable key (cells.set slot none) (free ++ [slot]) := by
  constructor
  case unique =>
    apply table.unique_set
    intro _ _ _ written
    cases written
  case once =>
    rw [nodup_append]
    refine ⟨table.once, nodup_singleton slot, ?_⟩
    rintro index inFree _ isSlot rfl
    rw [mem_singleton.mp isSlot] at inFree
    rw [table.vacant slot inFree] at here
    cases here
  case vacant =>
    intro index member
    by_cases same : index = slot
    · subst same
      exact getElem?_set_self (lt_of_getElem? here)
    rw [getElem?_set_ne (Ne.symm same)]
    rcases mem_append.mp member with inFree | isSlot
    · exact table.vacant index inFree
    · exact absurd (mem_singleton.mp isSlot) same

theorem replace (here : cells[slot]? = some (some old)) (same : key item = key old) :
    SlotTable key (cells.set slot (some item)) free := by
  constructor
  case unique =>
    apply table.unique_set
    intro index written held isItem elsewhere there sameKey
    cases isItem
    exact elsewhere (table.unique there here (sameKey.trans same))
  case once => exact table.once
  case vacant =>
    intro index inFree
    have vacant := table.vacant index inFree
    rw [getElem?_set_ne]
    · exact vacant
    · rintro rfl
      rw [here] at vacant
      cases vacant

/-- Fill the free slot named last. -/
theorem reuse (last : free.getLast? = some slot)
    (fresh : ∀ held, some held ∈ cells → key held ≠ key item) :
    SlotTable key (cells.set slot (some item)) free.dropLast := by
  have split : free = free.dropLast ++ [slot] := by
    rw [getLast?_eq_some_iff] at last
    rcases last with ⟨front, rfl⟩
    rw [dropLast_concat]
  have once := table.once
  rw [split, nodup_append] at once
  constructor
  case unique =>
    apply table.unique_set
    intro index written held isItem _ there
    cases isItem
    exact fresh held (mem_cells_iff.mpr ⟨index, there⟩)
  case once => exact once.1
  case vacant =>
    intro index inFront
    rw [getElem?_set_ne]
    · exact table.vacant index ((dropLast_sublist free).subset inFront)
    · rintro rfl
      exact once.2.2 slot inFront slot (mem_singleton_self slot) rfl

theorem append (fresh : ∀ held, some held ∈ cells → key held ≠ key item) :
    SlotTable key (cells ++ [some item]) free := by
  have placed : ∀ {index : Nat} {held : α}, (cells ++ [some item])[index]? = some (some held) →
      index = cells.length ∧ held = item ∨ cells[index]? = some (some held) := by
    intro index held here
    by_cases inside : index < cells.length
    · rw [getElem?_append_left inside] at here
      exact .inr here
    have bound := lt_of_getElem? here
    rw [length_append, length_singleton] at bound
    have atEnd : index = cells.length := by omega
    subst atEnd
    rw [getElem?_concat_length] at here
    cases here
    exact .inl ⟨rfl, rfl⟩
  constructor
  case unique =>
    intro first second left right inFirst inSecond same
    rcases placed inFirst with ⟨rfl, rfl⟩ | firstHere
    · rcases placed inSecond with ⟨rfl, _⟩ | secondHere
      · rfl
      · exact absurd same.symm (fresh right (mem_cells_iff.mpr ⟨second, secondHere⟩))
    · rcases placed inSecond with ⟨rfl, rfl⟩ | secondHere
      · exact absurd same (fresh left (mem_cells_iff.mpr ⟨first, firstHere⟩))
      · exact table.unique firstHere secondHere same
  case once => exact table.once
  case vacant =>
    intro index inFree
    have vacant := table.vacant index inFree
    rw [getElem?_append_left (lt_of_getElem? vacant)]
    exact vacant

omit table

/-- Take every item out and name every slot. -/
theorem clear (cells : List (Option α)) :
    SlotTable key (cells.map fun _ => none) (List.range cells.length).reverse := by
  constructor
  case unique =>
    intro first second left right inFirst
    rw [getElem?_map, map_eq_some_iff] at inFirst
    rcases inFirst with ⟨_, _, impossible⟩
    cases impossible
  case once =>
    rw [nodup_reverse]
    exact nodup_range
  case vacant =>
    intro index inFree
    rw [mem_reverse, mem_range] at inFree
    rw [getElem?_map, getElem?_eq_getElem inFree]
    rfl

/-! ## Every vacant cell is named -/

/-- The free slots name every vacant cell. -/
def Complete (cells : List (Option α)) (free : List Nat) : Prop :=
  ∀ slot, cells[slot]? = some none → slot ∈ free

variable (complete : Complete cells free)

include complete

theorem Complete.vacate : Complete (cells.set slot none) (free ++ [slot]) := by
  intro index vacant
  by_cases same : index = slot
  · subst same
    exact mem_concat_self
  · rw [getElem?_set_ne (Ne.symm same)] at vacant
    exact mem_append_left _ (complete index vacant)

theorem Complete.replace : Complete (cells.set slot (some item)) free := by
  intro index vacant
  by_cases same : index = slot
  · subst same
    have inside := lt_of_getElem? vacant
    rw [length_set] at inside
    rw [getElem?_set_self inside] at vacant
    cases vacant
  · rw [getElem?_set_ne (Ne.symm same)] at vacant
    exact complete index vacant

theorem Complete.reuse (last : free.getLast? = some slot) :
    Complete (cells.set slot (some item)) free.dropLast := by
  intro index vacant
  rw [getLast?_eq_some_iff] at last
  rcases last with ⟨front, rfl⟩
  rw [dropLast_concat]
  rcases mem_append.mp (complete.replace index vacant) with inFront | isLast
  · exact inFront
  rw [mem_singleton.mp isLast] at vacant
  have inside := lt_of_getElem? vacant
  rw [length_set] at inside
  rw [getElem?_set_self inside] at vacant
  cases vacant

theorem Complete.append : Complete (cells ++ [some item]) free := by
  intro index vacant
  by_cases inside : index < cells.length
  · rw [getElem?_append_left inside] at vacant
    exact complete index vacant
  have bound := lt_of_getElem? vacant
  rw [length_append, length_singleton] at bound
  obtain rfl : index = cells.length := by omega
  rw [getElem?_concat_length] at vacant
  cases vacant

omit complete

theorem Complete.clear (cells : List (Option α)) :
    Complete (cells.map fun _ => (none : Option α)) (List.range cells.length).reverse := by
  intro index vacant
  have inside := lt_of_getElem? vacant
  rw [length_map] at inside
  rw [mem_reverse, mem_range]
  exact inside

/-- The items of a table, each once. -/
theorem nodup (table : SlotTable key cells free) : cells.reduceOption.Nodup := by
  have apart : ∀ {first second : Nat} {held : α}, cells[first]? = some (some held) →
      cells[second]? = some (some held) → first = second :=
    fun inFirst inSecond => table.unique inFirst inSecond rfl
  clear table
  induction cells with
  | nil => exact nodup_nil
  | cons cell rest later =>
    have restNodup : rest.reduceOption.Nodup := by
      apply later
      intro first second held inFirst inSecond
      have shifted : first + 1 = second + 1 := apart inFirst inSecond
      omega
    cases cell with
    | none => exact restNodup
    | some item =>
      rw [reduceOption_cons_of_some, nodup_cons]
      refine ⟨?_, restNodup⟩
      rw [reduceOption_mem_iff, mem_cells_iff]
      rintro ⟨index, there⟩
      have impossible : 0 = index + 1 := apart rfl there
      omega

end SlotTable

end Grab.Lib
