import Grab.Capture.TileDiffer
import Mathlib.Algebra.Ring.Nat

/-!
# Dirty tiles are exact

Two images of one size and format, each with storage for its active pixels, are compared without
leaving the storage.  The dirty tiles are the tiles of the clipped grid that hold a pixel that
differs.  Everything else is invalidated as a whole.
-/

namespace Grab.Capture

open Grab.Lib Grab.Lib.Checked Grab.Codec List

/-! ## Storage -/

/-- The storage of an image contains its active pixels. -/
structure HasStorage (image : Image) : Prop where
  row : image.width.toNat * bytesPerPixel image.format ≤ image.stride.toNat
  rows : 0 < image.height.toNat → (image.height.toNat - 1) * image.stride.toNat +
    image.width.toNat * bytesPerPixel image.format ≤ image.pixels.length

theorem bytesPerPixel_le (format : PixelFormat) : bytesPerPixel format ≤ 4 := by
  cases format <;> decide

/-- Sizes made of two 32-bit factors and one more row fit 64 bits. -/
theorem mul_add_le_maxSize {row stride rest : Nat} (rowFits : row < 2 ^ 32)
    (strideFits : stride < 2 ^ 32) (restFits : rest ≤ stride) : row * stride + rest ≤ maxSize := by
  have product : row * stride ≤ (2 ^ 32 - 1) * (2 ^ 32 - 1) := Nat.mul_le_mul (by omega) (by omega)
  unfold maxSize
  omega

/-- The layout check never wraps and finds out whether the storage is there. -/
theorem hasValidLayout_returns (image : Image) :
    Returns (fun valid => valid = true ↔ HasStorage image) (hasValidLayout image) := by
  have width := image.width.toNat_lt
  have height := image.height.toNat_lt
  have stride := image.stride.toNat_lt
  have rowSmall : image.width.toNat * bytesPerPixel image.format ≤ 2 ^ 32 * 4 :=
    Nat.mul_le_mul (Nat.le_of_lt width) (bytesPerPixel_le _)
  have rowFits : image.width.toNat * bytesPerPixel image.format ≤ maxSize := by
    unfold maxSize
    omega
  unfold hasValidLayout
  rw [mulSize_ok rowFits, ok_bind]
  generalize rowBytes : image.width.toNat * bytesPerPixel image.format = bytes at rowFits ⊢
  split
  case isTrue short =>
    apply Meets.ok
    simp only [Bool.false_eq_true, false_iff]
    intro storage
    have row := storage.row
    omega
  case isFalse wide =>
    rw [Nat.not_lt] at wide
    split
    case isTrue flat =>
      apply Meets.ok
      simp only [true_iff]
      constructor
      case row => rw [rowBytes]; exact wide
      case rows => omega
    case isFalse tall =>
      have lastRow : image.height.toNat - 1 < 2 ^ 32 := by omega
      have total := mul_add_le_maxSize lastRow stride wide
      have guarded : ¬(image.stride.toNat ≠ 0 ∧
          (maxSize - bytes) / image.stride.toNat < image.height.toNat - 1) := by
        rintro ⟨positive, tooFar⟩
        rw [Nat.div_lt_iff_lt_mul (Nat.pos_of_ne_zero positive)] at tooFar
        omega
      rw [subSize_ok rowFits, ok_bind, if_neg guarded, mulSize_ok (by omega), ok_bind,
        addSize_ok total, ok_bind]
      apply Meets.ok
      rw [decide_eq_true_iff]
      constructor
      · intro fits
        constructor
        case row => rw [rowBytes]; exact wide
        case rows => intro _; rw [rowBytes]; exact fits
      intro storage
      have rows := storage.rows (Nat.pos_of_ne_zero tall)
      rw [rowBytes] at rows
      exact rows

theorem haveValidLayouts_returns (previous current : Image) :
    Returns (fun valid => valid = true ↔ HasStorage previous ∧ HasStorage current)
      (haveValidLayouts previous current) := by
  apply (hasValidLayout_returns previous).bind
  intro previousValid previousStorage
  cases previousValid with
  | true =>
    apply (hasValidLayout_returns current).weaken
    intro valid storage
    rw [storage]
    exact (and_iff_right (previousStorage.mp rfl)).symm
  | false =>
    apply Meets.ok
    apply iff_of_false Bool.false_ne_true
    intro both
    cases previousStorage.mpr both.1

/-! ## Pixels and slices -/

def pixel (image : Image) (x y : Nat) : List UInt8 :=
  (image.pixels.drop (y * image.stride.toNat + x * bytesPerPixel image.format)).take
    (bytesPerPixel image.format)

/-- The active pixels of an image. -/
def active (image : Image) : Set (Nat × Nat) :=
  {point | point.1 < image.width.toNat ∧ point.2 < image.height.toNat}

/-- Where two images differ. -/
def differing (previous current : Image) : Set (Nat × Nat) :=
  {point | pixel previous point.1 point.2 ≠ pixel current point.1 point.2}

theorem take_eq_take_iff {β : Type} {first second : List β} {count : Nat} :
    first.take count = second.take count ↔ ∀ k, k < count → first[k]? = second[k]? := by
  constructor
  · intro same k below
    rw [← getElem?_take_of_lt below, same, getElem?_take_of_lt below]
  intro same
  apply ext_getElem?
  intro k
  by_cases below : k < count
  · rw [getElem?_take_of_lt below, getElem?_take_of_lt below]
    exact same k below
  · rw [getElem?_take_eq_none (by omega), getElem?_take_eq_none (by omega)]

/-- Two slices are the same exactly when their pieces are. -/
theorem slice_eq_slice_iff {β : Type} {first second : List β} {start other count size : Nat} :
    (first.drop start).take (count * size) = (second.drop other).take (count * size) ↔
      ∀ piece, piece < count → (first.drop (start + piece * size)).take size =
        (second.drop (other + piece * size)).take size := by
  simp only [take_eq_take_iff, getElem?_drop]
  constructor
  · intro same piece inside k below
    have within : piece * size + k < count * size := by
      calc
        piece * size + k < piece * size + size := Nat.add_lt_add_left below _
        _ = (piece + 1) * size := by rw [Nat.add_mul, Nat.one_mul]
        _ ≤ count * size := Nat.mul_le_mul_right size inside
    rw [Nat.add_assoc, Nat.add_assoc]
    exact same _ within
  · intro same k below
    have positive : 0 < size := by
      rcases Nat.eq_zero_or_pos size with rfl | positive
      · exact absurd below (Nat.not_lt_zero k)
      · exact positive
    have piece : k / size < count := Nat.div_lt_of_lt_mul (by rwa [Nat.mul_comm])
    have found := same (k / size) piece (k % size) (Nat.mod_lt k positive)
    rw [Nat.add_assoc, Nat.add_assoc, Nat.div_add_mod'] at found
    exact found

/-- The bytes of `width` pixels of a row from column `x` on. -/
def stretch (image : Image) (x y width : Nat) : List UInt8 :=
  (image.pixels.drop (y * image.stride.toNat + x * bytesPerPixel image.format)).take
    (width * bytesPerPixel image.format)

/-- Stretches of two images of one format are the same exactly when their pixels are. -/
theorem stretch_eq_stretch_iff {previous current : Image}
    (format : previous.format = current.format) (x y width : Nat) :
    stretch previous x y width = stretch current x y width ↔
      ∀ column, column < width → pixel previous (x + column) y = pixel current (x + column) y := by
  unfold stretch
  rw [format, slice_eq_slice_iff]
  apply forall₂_congr
  intro column _
  unfold pixel
  rw [format, Nat.add_mul, ← Nat.add_assoc, ← Nat.add_assoc]

/-- A row of a tile is inside the storage. -/
theorem rowSlice_ok {image : Image} (storage : HasStorage image) {x y width : Nat}
    (row : y < image.height.toNat) (columns : x + width ≤ image.width.toNat) :
    rowSlice image y (x * bytesPerPixel image.format) (width * bytesPerPixel image.format) =
      .ok (stretch image x y width) := by
  have bytes : x * bytesPerPixel image.format + width * bytesPerPixel image.format ≤
      image.width.toNat * bytesPerPixel image.format := by
    rw [← Nat.add_mul]
    exact Nat.mul_le_mul_right _ columns
  have wide := storage.row
  have rows := storage.rows (by omega)
  have height := image.height.toNat_lt
  have offset : y * image.stride.toNat + x * bytesPerPixel image.format ≤ maxSize :=
    mul_add_le_maxSize (by omega) image.stride.toNat_lt (by omega)
  have above : y * image.stride.toNat ≤ (image.height.toNat - 1) * image.stride.toNat :=
    Nat.mul_le_mul_right _ (by omega)
  unfold rowSlice
  rw [mulSize_ok (by omega), ok_bind, addSize_ok offset, ok_bind]
  apply subspan_ok
  omega

/-! ## One tile -/

/-- The pixels of a block of columns and rows. -/
def block (x y width height : Nat) : Set (Nat × Nat) :=
  {point | (x ≤ point.1 ∧ point.1 < x + width) ∧ y ≤ point.2 ∧ point.2 < y + height}

/-- The images and the tile size that `diff` compares tile by tile. -/
structure Comparable (previous current : Image) (tileSize : Size) : Prop where
  width : previous.width = current.width
  height : previous.height = current.height
  format : previous.format = current.format
  tileWidth : tileSize.width ≠ 0
  tileHeight : tileSize.height ≠ 0
  widthFits : current.width.toNat ≤ maximumCoordinate
  heightFits : current.height.toNat ≤ maximumCoordinate
  previousStorage : HasStorage previous
  currentStorage : HasStorage current

section

variable {previous current : Image} {tileSize : Size}

theorem addUint32_ok {left right : Nat} (fits : left + right ≤ maximumCoordinate) :
    addUint32 left right = .ok (left + right) := by
  apply if_pos
  unfold maximumCoordinate at fits
  unfold maxUint32
  omega

theorem tileChanged_returns (comparable : Comparable previous current tileSize)
    {x y width height : Nat} (columns : x + width ≤ current.width.toNat)
    (rows : y + height ≤ current.height.toNat) :
    Returns (fun changed => changed = true ↔
        ∃ point ∈ block x y width height, point ∈ differing previous current)
      (tileChanged previous current x y width height) := by
  have format := comparable.format
  have sameWidth : previous.width.toNat = current.width.toNat := by rw [comparable.width]
  have sameHeight : previous.height.toNat = current.height.toNat := by rw [comparable.height]
  have fits : current.width.toNat * bytesPerPixel current.format ≤ maxSize := by
    have wide := comparable.currentStorage.row
    have stride := current.stride.toNat_lt
    unfold maxSize
    omega
  have byteX : x * bytesPerPixel current.format ≤ maxSize :=
    Nat.le_trans (Nat.mul_le_mul_right _ (by omega)) fits
  have byteWidth : width * bytesPerPixel current.format ≤ maxSize :=
    Nat.le_trans (Nat.mul_le_mul_right _ (by omega)) fits
  unfold tileChanged
  rw [mulSize_ok byteX, ok_bind, mulSize_ok byteWidth, ok_bind]
  -- the rows looked at so far are the same in both images
  apply Meets.loop (fun row => row ≤ height ∧ ∀ point ∈ block x y width row,
    point ∉ differing previous current) (fun row => height - row)
  case enough => omega
  case holds =>
    refine ⟨Nat.zero_le _, ?_⟩
    rintro point ⟨-, below, above⟩
    omega
  case round =>
    rintro row ⟨within, same⟩
    unfold tileRow
    split
    case isTrue done =>
      apply Meets.ok
      simp only [Bool.false_eq_true, false_iff]
      rintro ⟨point, inside, differs⟩
      rw [Nat.le_antisymm within done] at same
      exact same point inside differs
    case isFalse more =>
      rw [Nat.not_le] at more
      have heightFits := comparable.heightFits
      have previousRow : rowSlice previous (y + row) (x * bytesPerPixel previous.format)
          (width * bytesPerPixel previous.format) = .ok (stretch previous x (y + row) width) :=
        rowSlice_ok comparable.previousStorage (by omega) (by omega)
      have currentRow : rowSlice current (y + row) (x * bytesPerPixel current.format)
          (width * bytesPerPixel current.format) = .ok (stretch current x (y + row) width) :=
        rowSlice_ok comparable.currentStorage (by omega) columns
      have pixels := stretch_eq_stretch_iff format x (y + row) width
      rw [format] at previousRow
      rw [addUint32_ok (by omega), ok_bind, previousRow, ok_bind, currentRow, ok_bind]
      split
      case isTrue differs =>
        apply Meets.ok
        simp only [true_iff]
        have exists_column : ∃ column, column < width ∧
            pixel previous (x + column) (y + row) ≠ pixel current (x + column) (y + row) := by
          by_contra none
          apply differs
          apply pixels.mpr
          intro column inside
          by_contra other
          exact none ⟨column, inside, other⟩
        rcases exists_column with ⟨column, inside, other⟩
        refine ⟨(x + column, y + row), ⟨⟨?_, ?_⟩, ?_, ?_⟩, other⟩ <;> dsimp only <;> omega
      case isFalse alike =>
        apply Meets.ok
        refine ⟨⟨by omega, ?_⟩, by omega⟩
        rintro ⟨column, line⟩ ⟨⟨left, right⟩, above, below⟩
        dsimp only at left right above below
        by_cases last : line = y + row
        · intro differs
          have equal := pixels.mp (not_not.mp alike) (column - x) (by omega)
          rw [Nat.add_sub_cancel' left] at equal
          rw [last] at differs
          exact differs equal
        apply same
        refine ⟨⟨left, right⟩, above, ?_⟩
        omega

end

/-! ## The grid -/

/-- The points of a tile. -/
def region (tile : Rectangle) : Set (Nat × Nat) := {point | tile.contains point.1 point.2}

/-- A tile of the regular grid, clipped to the image. -/
def GridTile (tileSize : Size) (image : Image) (tile : Rectangle) : Prop :=
  ∃ column row,
    column * tileSize.width.toNat < image.width.toNat ∧
    row * tileSize.height.toNat < image.height.toNat ∧
    tile = {
      x := (column * tileSize.width.toNat : Nat)
      y := (row * tileSize.height.toNat : Nat)
      width := min tileSize.width.toNat (image.width.toNat - column * tileSize.width.toNat)
      height := min tileSize.height.toNat (image.height.toNat - row * tileSize.height.toNat) }

/-- The dirty tiles found in the swept part of the image. -/
structure Dirty (previous current : Image) (tileSize : Size) (swept : Set (Nat × Nat))
    (tiles : List Rectangle) : Prop where
  collected : Collected region (differing previous current) swept tiles
  grid : ∀ tile ∈ tiles, GridTile tileSize current tile

theorem toInt32_of_le {value : Nat} (fits : value ≤ maximumCoordinate) : toInt32 value = value :=
  if_pos fits

theorem region_eq_block (x y width height : Nat) :
    region { x := (x : Int), y := (y : Int), width, height } = block x y width height := by
  ext ⟨column, row⟩
  simp only [region, block, Rectangle.contains, Set.mem_ofPred_eq]
  omega

/-- The part of the image swept when the columns before `x` of a row of tiles are done. -/
def sweptBefore (image : Image) (x y height : Nat) : Set (Nat × Nat) :=
  block 0 0 image.width.toNat y ∪ block 0 y x height

theorem sweptBefore_zero (image : Image) (y height : Nat) :
    sweptBefore image 0 y height = block 0 0 image.width.toNat y := by
  ext ⟨column, row⟩
  simp only [sweptBefore, block, Set.mem_union, Set.mem_ofPred_eq]
  omega

theorem sweptBefore_width (image : Image) (y height : Nat) :
    sweptBefore image image.width.toNat y height = block 0 0 image.width.toNat (y + height) := by
  ext ⟨column, row⟩
  simp only [sweptBefore, block, Set.mem_union, Set.mem_ofPred_eq]
  omega

theorem sweptBefore_add (image : Image) (x y width height : Nat) :
    sweptBefore image (x + width) y height =
      sweptBefore image x y height ∪ block x y width height := by
  ext ⟨column, row⟩
  simp only [sweptBefore, block, Set.mem_union, Set.mem_ofPred_eq]
  omega

theorem disjoint_sweptBefore_block (image : Image) (x y width height : Nat) :
    Disjoint (sweptBefore image x y height) (block x y width height) := by
  rw [Set.disjoint_left]
  rintro ⟨column, row⟩
  simp only [sweptBefore, block, Set.mem_union, Set.mem_ofPred_eq]
  omega

section

variable {previous current : Image} {tileSize : Size}
  (comparable : Comparable previous current tileSize)

include comparable

theorem diffColumns_returns {y : Nat} (onGrid : OnGrid tileSize.height.toNat current.height.toNat y)
    (before : y < current.height.toNat) {tiles : List Rectangle}
    (dirty : Dirty previous current tileSize (block 0 0 current.width.toNat y) tiles) :
    Returns (Dirty previous current tileSize (block 0 0 current.width.toNat
        (y + min tileSize.height.toNat (current.height.toNat - y))))
      (loop (diffColumn previous current tileSize.width.toNat y
        (min tileSize.height.toNat (current.height.toNat - y)))
        (current.width.toNat + 1) (0, tiles)) := by
  have widthFits := comparable.widthFits
  have heightFits := comparable.heightFits
  have tileWidth : 0 < tileSize.width.toNat :=
    Nat.pos_of_ne_zero fun zero => comparable.tileWidth (UInt32.toNat_inj.mp zero)
  generalize heightEq : min tileSize.height.toNat (current.height.toNat - y) = height
  -- columns before `x` of this row of tiles are done
  apply Meets.loop (fun state => OnGrid tileSize.width.toNat current.width.toNat state.1 ∧
    Dirty previous current tileSize (sweptBefore current state.1 y height) state.2)
    (fun state => current.width.toNat - state.1)
  case enough => exact Nat.lt_succ_of_le (Nat.sub_le _ _)
  case holds =>
    constructor
    · exact OnGrid.zero
    · rw [sweptBefore_zero]
      exact dirty
  case round =>
    rintro ⟨x, found⟩ ⟨column, swept⟩
    dsimp only at column swept
    unfold diffColumn
    dsimp only
    split
    case isTrue done =>
      apply Meets.ok
      dsimp only
      rw [← sweptBefore_width, ← Nat.le_antisymm column.le done]
      exact swept
    case isFalse more =>
      rw [Nat.not_le] at more
      have heightInside : y + height ≤ current.height.toNat := by omega
      have next := column.next more
      generalize widthEq : min tileSize.width.toNat (current.width.toNat - x) = width at next
      have widthInside : x + width ≤ current.width.toNat := by omega
      have further : 0 < width := by omega
      rw [subSize_ok (Nat.le_of_lt more), ok_bind, widthEq]
      apply (tileChanged_returns comparable widthInside heightInside).bind
      intro changed found
      rw [addUint32_ok (by omega), ok_bind, toInt32_of_le (by omega), toInt32_of_le (by omega)]
      cases changed with
      | true =>
        apply Meets.ok
        refine ⟨⟨next, ?_⟩, by dsimp only; omega⟩
        constructor
        case collected =>
          rw [sweptBefore_add, ← region_eq_block]
          apply swept.collected.keep
          · rw [region_eq_block]
            exact disjoint_sweptBefore_block _ _ _ _ _
          · rw [region_eq_block]
            exact found.mp rfl
        case grid =>
          intro tile member
          rcases mem_append.mp member with old | new
          · exact swept.grid tile old
          rcases column.eq_mul more with ⟨columns, rfl⟩
          rcases onGrid.eq_mul before with ⟨rows, rfl⟩
          refine ⟨columns, rows, more, before, ?_⟩
          rw [mem_singleton.mp new, widthEq, heightEq]
      | false =>
        apply Meets.ok
        refine ⟨⟨next, ?_⟩, by dsimp only; omega⟩
        constructor
        case collected =>
          rw [sweptBefore_add, ← region_eq_block]
          apply swept.collected.skip
          rw [region_eq_block]
          intro point inside differs
          have impossible := found.mpr ⟨point, inside, differs⟩
          cases impossible
        case grid => exact swept.grid

theorem diffRows_returns :
    Returns (Dirty previous current tileSize (active current))
      (loop (diffRow previous current tileSize) (current.height.toNat + 1) (0, [])) := by
  have heightFits := comparable.heightFits
  have tileHeight : 0 < tileSize.height.toNat :=
    Nat.pos_of_ne_zero fun zero => comparable.tileHeight (UInt32.toNat_inj.mp zero)
  have whole : block 0 0 current.width.toNat current.height.toNat = active current := by
    ext ⟨column, row⟩
    simp only [block, active, Set.mem_ofPred_eq]
    omega
  -- the rows of pixels before `y` are done
  apply Meets.loop (fun state => OnGrid tileSize.height.toNat current.height.toNat state.1 ∧
    Dirty previous current tileSize (block 0 0 current.width.toNat state.1) state.2)
    (fun state => current.height.toNat - state.1)
  case enough => exact Nat.lt_succ_of_le (Nat.sub_le _ _)
  case holds =>
    refine ⟨OnGrid.zero, ?_, ?_⟩
    · apply Collected.nil.congr
      ext point
      simp [block]
    · intro tile member
      cases member
  case round =>
    rintro ⟨y, found⟩ ⟨onGrid, swept⟩
    dsimp only at onGrid swept
    unfold diffRow
    dsimp only
    split
    case isTrue done =>
      apply Meets.ok
      dsimp only
      rw [← whole, ← Nat.le_antisymm onGrid.le done]
      exact swept
    case isFalse more =>
      rw [Nat.not_le] at more
      rw [subSize_ok (Nat.le_of_lt more), ok_bind]
      apply (diffColumns_returns comparable onGrid more swept).bind
      intro tiles dirty
      rw [addUint32_ok (by omega), ok_bind]
      apply Meets.ok
      refine ⟨⟨onGrid.next more, dirty⟩, ?_⟩
      dsimp only
      omega

/-! ## The whole comparison -/

/-- The dirty tiles are pairwise disjoint tiles of the grid, hold all pixels that differ and each
one of them, and there is none exactly when the images show the same. -/
structure TilesExact (previous current : Image) (tileSize : Size)
    (result : TileDiffResult) : Prop where
  grid : ∀ tile ∈ result.dirtyTiles, GridTile tileSize current tile
  inside : ∀ tile ∈ result.dirtyTiles, region tile ⊆ active current
  apart : result.dirtyTiles.Pairwise fun first second => Disjoint (region first) (region second)
  covered : ∀ point ∈ active current, point ∈ differing previous current →
    ∃ tile ∈ result.dirtyTiles, point ∈ region tile
  needed : ∀ tile ∈ result.dirtyTiles, ∃ point ∈ region tile, point ∈ differing previous current
  unchanged : result.kind = .noChange ↔ ∀ point ∈ active current, point ∉ differing previous current
  compared : result.kind ≠ .fullInvalidation

theorem diffTiles_returns :
    Returns (TilesExact previous current tileSize) (diffTiles previous current tileSize) := by
  unfold diffTiles
  apply (diffRows_returns comparable).bind
  intro tiles dirty
  have collected := dirty.collected
  split
  case isTrue empty =>
    apply Meets.ok
    refine { collected with grid := ?grid, unchanged := ?unchanged, compared := ?compared }
    case grid => exact dirty.grid
    case unchanged => exact iff_of_true rfl (collected.eq_nil_iff.mp empty)
    case compared => simp
  case isFalse some =>
    apply Meets.ok
    refine { collected with grid := ?grid, unchanged := ?unchanged, compared := ?compared }
    case grid => exact dirty.grid
    case unchanged =>
      apply iff_of_false
      · simp
      · exact fun same => some (collected.eq_nil_iff.mpr same)
    case compared => simp

omit comparable

/-- No comparison leaves the storage of an image or wraps a size.  Images of one size and format
with storage for their pixels, whose coordinates fit a rectangle, are compared exactly for every
tile size but zero; all others are invalidated as a whole. -/
theorem diff_exact (previous current : Image) (tileSize : Size) :
    Returns (fun result =>
        (Comparable previous current tileSize → TilesExact previous current tileSize result) ∧
        (¬Comparable previous current tileSize →
          result.kind = .fullInvalidation ∧ result.dirtyTiles = []))
      (diff previous current tileSize) := by
  have invalidated : ∀ reason : String, ¬Comparable previous current tileSize →
      Returns (fun result =>
        (Comparable previous current tileSize → TilesExact previous current tileSize result) ∧
        (¬Comparable previous current tileSize →
          result.kind = .fullInvalidation ∧ result.dirtyTiles = []))
        (.ok (fullInvalidation reason) : Computed TileDiffResult) := by
    intro reason incomparable
    apply Meets.ok
    exact ⟨fun comparable => absurd comparable incomparable, fun _ => ⟨rfl, rfl⟩⟩
  unfold diff
  split
  case isTrue mismatch =>
    apply invalidated
    intro comparable
    rcases mismatch with width | height | format
    · exact width comparable.width
    · exact height comparable.height
    · exact format comparable.format
  case isFalse same =>
    rw [not_or, not_or, not_not, not_not, not_not] at same
    split
    case isTrue zero =>
      apply invalidated
      intro comparable
      rcases zero with width | height
      · exact comparable.tileWidth width
      · exact comparable.tileHeight height
    case isFalse nonZero =>
      rw [not_or] at nonZero
      split
      case isTrue large =>
        apply invalidated
        intro comparable
        rcases large with width | height
        · exact absurd comparable.widthFits (Nat.not_le_of_lt width)
        · exact absurd comparable.heightFits (Nat.not_le_of_lt height)
      case isFalse small =>
        rw [not_or, Nat.not_lt, Nat.not_lt] at small
        apply (haveValidLayouts_returns previous current).bind
        intro valid storage
        cases valid with
        | true =>
          rcases storage.mp rfl with ⟨previousStored, currentStored⟩
          have comparable : Comparable previous current tileSize :=
            { width := same.1
              height := same.2.1
              format := same.2.2
              tileWidth := nonZero.1
              tileHeight := nonZero.2
              widthFits := small.1
              heightFits := small.2
              previousStorage := previousStored
              currentStorage := currentStored }
          apply (diffTiles_returns comparable).weaken
          intro result tiles
          exact ⟨fun _ => tiles, fun incomparable => absurd comparable incomparable⟩
        | false =>
          apply invalidated
          intro comparable
          have both := storage.mpr ⟨comparable.previousStorage, comparable.currentStorage⟩
          cases both

/-- A column of gray pixels, one row higher than a rectangle can address. -/
def tallColumn (pixels : List UInt8) : Image where
  width := 1
  height := 2147483648
  stride := 1
  format := .gray
  pixels := pixels

theorem hasStorage_tallColumn {pixels : List UInt8} (enough : 2147483648 ≤ pixels.length) :
    HasStorage (tallColumn pixels) where
  row := by
    change 1 * 1 ≤ 1
    exact Nat.le_refl 1
  rows _ := by
    have height : (tallColumn pixels).height.toNat = 2147483648 := rfl
    have stride : (tallColumn pixels).stride.toNat = 1 := rfl
    have row : (tallColumn pixels).width.toNat * bytesPerPixel (tallColumn pixels).format = 1 := rfl
    have size : (tallColumn pixels).pixels.length = pixels.length := rfl
    rw [height, stride, row, size]
    omega

theorem pixel_tallColumn (shade : UInt8) (rest : List UInt8) :
    pixel (tallColumn (shade :: rest)) 0 0 = [shade] :=
  rfl

/-- Two columns of different shades have equal sizes and formats and valid storage, their first
pixels differ, and no dirty tile is reported. -/
theorem tallColumns_invalidated :
    ∃ previous current : List UInt8,
      HasStorage (tallColumn previous) ∧ HasStorage (tallColumn current) ∧
        (0, 0) ∈ active (tallColumn current) ∧
        (0, 0) ∈ differing (tallColumn previous) (tallColumn current) ∧
        diff (tallColumn previous) (tallColumn current) { width := 1, height := 1 } =
          .ok (fullInvalidation "image dimensions exceed rectangle coordinates") := by
  have exists_rest : ∃ rest : List UInt8, 2147483648 ≤ rest.length :=
    ⟨List.replicate 2147483648 0, Nat.le_of_eq length_replicate.symm⟩
  rcases exists_rest with ⟨rest, enough⟩
  have longer : ∀ shade : UInt8, 2147483648 ≤ (shade :: rest).length := by
    intro shade
    rw [length_cons]
    omega
  refine ⟨0 :: rest, 1 :: rest, hasStorage_tallColumn (longer 0),
    hasStorage_tallColumn (longer 1), ⟨Nat.one_pos, ?_⟩, ?_, ?_⟩
  · have tall : (0, 0).2 < (2147483648 : UInt32).toNat := by decide
    exact tall
  · intro same
    rw [pixel_tallColumn, pixel_tallColumn] at same
    cases same
  have tall : maximumCoordinate < (2147483648 : UInt32).toNat := by decide
  unfold diff
  rw [if_neg (by rintro (other | other | other) <;> exact other rfl), if_neg (by decide)]
  exact if_pos (.inr tall)

end

end Grab.Capture
