import Grab.Codec.RoundTrip
import Mathlib.Data.List.MinMax

/-!
# Unfiltering inverts filtering

The forward filters of the format, on the bytes of an image: a scanline is the number of its
filter and, for every byte, what is left of it after the prediction from its neighbours, modulo
256.  The unfiltering loops restore the bytes whichever filter each row has.
-/

namespace Grab.Codec

open Grab.Lib Grab.Lib.Checked List Option

/-! ## The filters of the format -/

/-- The first of left, up and up-left that is nearest to `left + up - upLeft`. -/
def nearest (left up upLeft : Nat) : Nat :=
  ([left, up, upLeft].argmin fun value : Nat => ((left : Int) + up - upLeft - value).natAbs).getD 0

/-- What a filter predicts for a byte from its neighbours. -/
def prediction (filter : FilterType) (left up upLeft : Nat) : Nat :=
  match filter with
  | .none => 0
  | .sub => left
  | .up => up
  | .average => (left + up) / 2
  | .paeth => nearest left up upLeft

/-- The bytes of an image, row after row. -/
structure Plane where
  width : Nat
  height : Nat
  bytes : ByteVector
  size : bytes.length = width * height

namespace Plane

variable (plane : Plane) (pixelBytes : Nat)

def byte (y x : Nat) : UInt8 := plane.bytes.getD (y * plane.width + x) 0

/-! The byte one pixel to the left, the byte above, and the byte above the one to the left; zero
at the edges of the image. -/

def left (y x : Nat) : UInt8 :=
  if pixelBytes ≤ x then plane.byte y (x - pixelBytes) else 0

def up (y x : Nat) : UInt8 :=
  if 0 < y then plane.byte (y - 1) x else 0

def upLeft (y x : Nat) : UInt8 :=
  if 0 < y ∧ pixelBytes ≤ x then plane.byte (y - 1) (x - pixelBytes) else 0

/-- What is left of a byte after the prediction, modulo 256. -/
def filteredByte (filter : FilterType) (y x : Nat) : UInt8 :=
  plane.byte y x - UInt8.ofNat (prediction filter (plane.left pixelBytes y x).toNat
    (plane.up y x).toNat (plane.upLeft pixelBytes y x).toNat)

def filterRow (filter : FilterType) (y : Nat) : ByteVector :=
  filter.toByte :: (List.range plane.width).map (plane.filteredByte pixelBytes filter y)

/-- The scanlines of an image whose rows have the given filters. -/
def filterScanlines (filters : Nat → FilterType) : ByteVector :=
  ((List.range plane.height).map fun y => plane.filterRow pixelBytes (filters y) y).flatten

end Plane

/-- The layout of scanlines with as many bytes a pixel. -/
structure DecodeLayout.OfPlane (layout : DecodeLayout) (plane : Plane) (pixelBytes : Nat) :
    Prop where
  row : layout.sourceRowBytes = plane.width
  filteredRow : layout.filteredRowBytes = plane.width + 1
  filtered : layout.filteredBytes = (plane.width + 1) * plane.height
  pixel : layout.filterPixelBytes = pixelBytes
  small : layout.filteredBytes ≤ maxSize

/-! ## The code predicts what the format says -/

/-- The first of three values that is nearest. -/
theorem argmin_three (distance : Nat → Nat) (first second third : Nat) :
    ([first, second, third].argmin distance).getD 0 =
      if distance first ≤ distance second ∧ distance first ≤ distance third then first
      else if distance second ≤ distance third then second
      else third := by
  rw [argmin_cons, argmin_cons, argmin_cons, argmin_nil]
  dsimp only
  by_cases nearer : distance third < distance second
  · rw [if_pos nearer, if_neg (show ¬distance second ≤ distance third by omega)]
    dsimp only
    split
    · rw [if_neg (by omega), getD_some]
    · rw [if_pos (by omega), getD_some]
  rw [if_neg nearer, if_pos (show distance second ≤ distance third by omega)]
  dsimp only
  split
  · rw [if_neg (by omega), getD_some]
  · rw [if_pos (by omega), getD_some]

theorem paethPredictor_eq (left up upLeft : UInt8) :
    (paethPredictor left up upLeft).toNat = nearest left.toNat up.toNat upLeft.toNat := by
  rw [nearest, argmin_three]
  simp only [paethPredictor, apply_ite UInt8.toNat]

theorem filterPredictor_eq (filter : FilterType) (left up upLeft : UInt8) :
    filterPredictor filter left up upLeft =
      UInt8.ofNat (prediction filter left.toNat up.toNat upLeft.toNat) := by
  cases filter with
  | none | average => rfl
  | sub | up => exact UInt8.ofNat_toNat.symm
  | paeth =>
    rw [prediction, ← paethPredictor_eq, UInt8.ofNat_toNat]
    rfl

/-- The sum of what is left of a byte and the prediction is the byte. -/
theorem reconstructByte_sub (byte predictor : UInt8) :
    reconstructByte (byte - predictor) predictor = byte := by
  unfold reconstructByte byteModulo
  rw [← UInt8.toNat_inj]
  simp [UInt8.toNat_sub]
  have := byte.toNat_lt
  have := predictor.toNat_lt
  omega

theorem parseFilterType_toByte (filter : FilterType) :
    parseFilterType filter.toByte = some filter := by
  cases filter <;> rfl

/-! ## The scanlines -/

section

variable {plane : Plane} {pixelBytes : Nat} {filters : Nat → FilterType} {raw : ByteVector}
  {y x : Nat}

theorem uniform_filterRows :
    ∀ scanline ∈ (List.range plane.height).map fun y =>
        plane.filterRow pixelBytes (filters y) y,
      scanline.length = plane.width + 1 := by
  intro scanline member
  rcases mem_map.mp member with ⟨y, _, rfl⟩
  simp [Plane.filterRow]

theorem length_filterScanlines :
    (plane.filterScanlines pixelBytes filters).length = (plane.width + 1) * plane.height := by
  rw [Plane.filterScanlines, length_flatten_of_uniform uniform_filterRows, length_map, length_range]

theorem getElem?_filterScanlines (row : y < plane.height) (column : x < plane.width + 1) :
    (plane.filterScanlines pixelBytes filters)[y * (plane.width + 1) + x]? =
      (plane.filterRow pixelBytes (filters y) y)[x]? := by
  apply getElem?_flatten_of_uniform uniform_filterRows column
  rw [getElem?_map, getElem?_range row]
  rfl

theorem filterScanlines_filter {y : Nat} (row : y < plane.height) :
    (plane.filterScanlines pixelBytes filters)[y * (plane.width + 1)]? = some (filters y).toByte :=
  getElem?_filterScanlines row (Nat.succ_pos _)

theorem filterScanlines_byte (row : y < plane.height) (column : x < plane.width) :
    (plane.filterScanlines pixelBytes filters)[y * (plane.width + 1) + 1 + x]? =
      some (plane.filteredByte pixelBytes (filters y) y x) := by
  rw [Nat.add_assoc, getElem?_filterScanlines row (by omega), Plane.filterRow, Nat.add_comm 1,
    getElem?_cons_succ, getElem?_map, getElem?_range column]
  rfl

theorem Plane.getElem?_bytes (row : y < plane.height) (column : x < plane.width) :
    plane.bytes[y * plane.width + x]? = some (plane.byte y x) := by
  have inside : y * plane.width + x < plane.bytes.length := by
    rw [plane.size]
    exact cell_lt row column
  rw [Plane.byte, getD_eq_getElem?_getD, getElem?_eq_getElem inside, getD_some]

/-- A neighbour that is restored already is the byte of the image. -/
theorem byteAt_restored {done place : Nat} {inside : Prop} [Decidable inside]
    (restored : Restored plane.bytes done raw) (before : inside → place < done) :
    byteAt inside raw place = if inside then plane.bytes.getD place 0 else 0 := by
  unfold byteAt
  by_cases holds : inside
  · rw [if_pos holds, if_pos holds, getD_eq_getElem?_getD, getD_eq_getElem?_getD,
      restored.same place (before holds)]
  · rw [if_neg holds, if_neg holds]

/-- The bytes to the left and above are restored before a byte is, so the loop predicts what
the filter predicted. -/
theorem neighbours_restored (positive : 0 < pixelBytes) (column : x < plane.width)
    (restored : Restored plane.bytes (y * plane.width + x) raw) :
    byteAt (pixelBytes ≤ x) raw (y * plane.width + x - pixelBytes) = plane.left pixelBytes y x ∧
      byteAt (0 < y) raw (y * plane.width - plane.width + x) = plane.up y x ∧
      byteAt (0 < y ∧ pixelBytes ≤ x) raw (y * plane.width - plane.width + x - pixelBytes) =
        plane.upLeft pixelBytes y x := by
  have rowAbove : 0 < y → (y - 1) * plane.width + plane.width = y * plane.width := by
    intro below
    rw [← Nat.succ_mul, Nat.succ_eq_add_one, Nat.sub_add_cancel below]
  rw [← Nat.sub_one_mul]
  refine ⟨?_, ?_, ?_⟩
  · rw [byteAt_restored restored (by omega), Plane.left]
    split
    · rename_i inside
      rw [Nat.add_sub_assoc inside, Plane.byte]
    · rfl
  · rw [byteAt_restored restored fun below => by have := rowAbove below; omega]
    rfl
  rw [byteAt_restored restored fun both => by have := rowAbove both.1; omega, Plane.upLeft]
  split
  · rename_i both
    rw [Nat.add_sub_assoc both.2, Plane.byte]
  · rfl

/-- One scanline restores one row. -/
theorem unfilterRow_filterScanlines {layout : DecodeLayout} (positive : 0 < pixelBytes)
    (shape : layout.OfPlane plane pixelBytes) {y : Nat} (row : y < plane.height)
    (restored : Restored plane.bytes (y * plane.width) raw) :
    Returns (Restored plane.bytes ((y + 1) * plane.width))
      (unfilterRow (plane.filterScanlines pixelBytes filters) layout y raw) := by
  have whole := @length_filterScanlines plane pixelBytes filters
  have room : (plane.width + 1) * plane.height ≤ maxSize := shape.filtered ▸ shape.small
  have start : y * (plane.width + 1) + 0 < (plane.width + 1) * plane.height :=
    cell_lt row (Nat.succ_pos _)
  have narrower : y * plane.width ≤ y * (plane.width + 1) := Nat.mul_le_mul_left y (Nat.le_succ _)
  unfold unfilterRow
  rw [shape.row, shape.filteredRow, mulSize_ok (by omega), ok_bind, mulSize_ok (by omega),
    ok_bind, itemAt_ok (filterScanlines_filter row), ok_bind, parseFilterType_toByte]
  change Meets False _ (times _ raw plane.width)
  rw [Nat.succ_mul]
  apply Meets.times (fun x => Restored plane.bytes (y * plane.width + x)) restored
  intro x before column soFar
  have read := @filterScanlines_byte plane pixelBytes filters y x row column
  rw [← shape.filteredRow] at read
  have written := unfilterByte_eq (shape.row ▸ shape.filteredRow)
    (shape.filteredRow ▸ whole) (whole ▸ room)
    (by rw [shape.row, soFar.size, plane.size]) row (shape.row ▸ column) (filters y) read
  rcases neighbours_restored positive column soFar with ⟨leftEq, upEq, upLeftEq⟩
  rw [shape.filteredRow, shape.row, shape.pixel, leftEq, upEq, upLeftEq, filterPredictor_eq,
    Plane.filteredByte, reconstructByte_sub] at written
  exact Meets.of_ok written (soFar.set (plane.getElem?_bytes row column))

end

/-- Unfiltering the filtered scanlines of an image restores its bytes, whichever filter each of
its rows has. -/
theorem unfilterScanlines_filterScanlines (plane : Plane) (pixelBytes : Nat)
    (positive : 0 < pixelBytes) (filters : Nat → FilterType) (layout : DecodeLayout)
    (shape : layout.OfPlane plane pixelBytes) (height : UInt32)
    (count : height.toNat = plane.height) :
    unfilterScanlines (plane.filterScanlines pixelBytes filters) layout height =
      .ok plane.bytes := by
  have room : (plane.width + 1) * plane.height ≤ maxSize := shape.filtered ▸ shape.small
  have rawSmall : plane.width * plane.height ≤ maxSize :=
    Nat.le_trans (Nat.mul_le_mul_right _ (Nat.le_succ _)) room
  unfold unfilterScanlines
  rw [require_ok (length_filterScanlines.trans shape.filtered.symm), ok_bind, count, shape.row,
    mulSize_ok rawSmall, ok_bind]
  apply Returns.eq_ok
  apply Meets.weaken
  · apply Meets.times (fun y => Restored plane.bytes (y * plane.width))
    · constructor
      case size => rw [length_replicate, plane.size]
      case same =>
        intro position below
        rw [Nat.zero_mul] at below
        exact absurd below (Nat.not_lt_zero _)
    · intro y before row soFar
      exact unfilterRow_filterScanlines positive shape row soFar
  · intro raw restored
    rw [Nat.mul_comm, ← plane.size] at restored
    exact restored.eq_target

/-- Two rows of two bytes, filtered by `sub` and `paeth`. -/
def smallPlane : Plane where
  width := 2
  height := 2
  bytes := [10, 200, 7, 255]
  size := rfl

def smallLayout : DecodeLayout where
  sourceRowBytes := 2
  filteredRowBytes := 3
  filteredBytes := 6
  filterPixelBytes := 1
  outputStride := 2
  outputBytes := 4
  outputFormat := .gray

theorem unfilterScanlines_smallPlane :
    smallLayout.OfPlane smallPlane 1 ∧
      unfilterScanlines
        (smallPlane.filterScanlines 1 fun y => if y = 0 then .sub else .paeth) smallLayout 2 =
          .ok [10, 200, 7, 255] := by
  have shape : smallLayout.OfPlane smallPlane 1 := ⟨rfl, rfl, rfl, rfl, by decide⟩
  exact ⟨shape, unfilterScanlines_filterScanlines smallPlane 1 (by decide) _ smallLayout shape 2
    rfl⟩

end Grab.Codec
