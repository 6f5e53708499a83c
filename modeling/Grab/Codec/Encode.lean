import Grab.Codec.Safety

/-!
# What the encoder compresses

Validation fixes the sizes, and the scanlines are the rows of the image without their padding,
in the channel order of the file, each behind the filter `none`.
-/

namespace Grab.Codec

open Grab.Lib Grab.Lib.Checked List

/-! ## Rows as the decoder returns them -/

/-- A blue-green-red pixel in red-green-blue order; alpha stays behind. -/
def reorderPixel : List UInt8 → List UInt8
  | blue :: green :: red :: alpha => red :: green :: blue :: alpha
  | other => other

/-- The first `count` pixels of a row, `size` bytes each, reordered. -/
def reorderPixels (size : Nat) : Nat → List UInt8 → List UInt8
  | 0, _ => []
  | count + 1, row => reorderPixel (row.take size) ++ reorderPixels size count (row.drop size)

/-- A row without its padding, in the channel order of a PNG file. -/
def pixelRow (image : Image) (y : UInt32) : List UInt8 :=
  let size := bytesPerPixel image.format
  match image.format with
  | .gray | .rgb | .rgba => (image.row y).take (image.width.toNat * size)
  | .bgr | .bgra => reorderPixels size image.width.toNat (image.row y)

/-- The format with the same channels in the order of a PNG file. -/
def fileFormat : PixelFormat → PixelFormat
  | .gray => .gray
  | .rgb | .bgr => .rgb
  | .rgba | .bgra => .rgba

theorem length_reorderPixel (pixel : List UInt8) : (reorderPixel pixel).length = pixel.length := by
  unfold reorderPixel
  split <;> rfl

variable {row : List UInt8} {image : Image} {y : UInt32} {layout : EncodeLayout} {byte : UInt8}

theorem length_reorderPixels {size count : Nat} (long : count * size ≤ row.length) :
    (reorderPixels size count row).length = count * size := by
  induction count generalizing row with
  | zero => rw [reorderPixels, length_nil, Nat.zero_mul]
  | succ count kept =>
    rw [Nat.succ_mul] at long ⊢
    rw [reorderPixels, length_append, length_reorderPixel, List.length_take, kept]
    · omega
    · rw [length_drop]
      omega

/-- The pixels of a row in the order the encoder appends them. -/
theorem reorderPixels_succ (size count : Nat) (row : List UInt8) :
    reorderPixels size (count + 1) row =
      reorderPixels size count row ++ reorderPixel ((row.drop (count * size)).take size) := by
  induction count generalizing row with
  | zero =>
    rw [Nat.zero_mul, drop_zero]
    simp only [reorderPixels, append_nil, nil_append]
  | succ count step =>
    rw [reorderPixels, step (row.drop size), drop_drop, ← append_assoc, Nat.succ_mul,
      Nat.add_comm size]
    rfl

theorem length_pixelRow
    (long : image.width.toNat * bytesPerPixel image.format ≤ (image.row y).length) :
    (pixelRow image y).length = image.width.toNat * bytesPerPixel image.format := by
  unfold pixelRow
  cases format : image.format with
  | gray | rgb | rgba =>
    rw [format] at long
    exact length_take_of_le long
  | bgr | bgra =>
    rw [format] at long
    exact length_reorderPixels long

/-! ## Appending a row -/

theorem sourceByteAt_ok {offset : Nat} (found : row[offset]? = some byte) :
    sourceByteAt row offset = .ok byte := by
  have inside : offset + 1 ≤ row.length := (List.getElem?_eq_some_iff.mp found).1
  have front : ((row.drop offset).take 1)[0]? = some byte := by
    rw [getElem?_take_of_lt Nat.zero_lt_one, getElem?_drop]
    exact found
  unfold sourceByteAt
  rw [subspan_ok inside, ok_bind, itemAt_ok front]

variable (scanlines : ByteVector)

/-- The reordering loop appends the whole row, when each pixel it reads is the reordered one. -/
theorem appendPixels_ok {pixel : Nat → Checked Error (List UInt8)} {count : Nat}
    (positive : 0 < layout.sourcePixelBytes)
    (whole : layout.sourceRowBytes = count * layout.sourcePixelBytes)
    (fits : layout.sourceRowBytes ≤ maxSize)
    (reads : ∀ offset, offset + layout.sourcePixelBytes ≤ layout.sourceRowBytes →
      pixel offset = .ok (reorderPixel ((row.drop offset).take layout.sourcePixelBytes))) :
    appendPixels pixel layout scanlines =
      .ok (scanlines ++ reorderPixels layout.sourcePixelBytes count row) := by
  apply Returns.eq_ok
  apply Meets.loop
    (fun (round : Nat × ByteVector) => ∃ index, index ≤ count ∧
      round.1 = index * layout.sourcePixelBytes ∧
      round.2 = scanlines ++ reorderPixels layout.sourcePixelBytes index row)
    (fun round => layout.sourceRowBytes - round.1)
  · rintro ⟨offset, output⟩ ⟨index, below, rfl, rfl⟩
    dsimp only
    by_cases inside : index * layout.sourcePixelBytes < layout.sourceRowBytes
    · have more : index < count := by
        rw [whole] at inside
        exact Nat.lt_of_mul_lt_mul_right inside
      have next : index * layout.sourcePixelBytes + layout.sourcePixelBytes ≤
          layout.sourceRowBytes := by
        rw [whole, ← Nat.succ_mul]
        exact Nat.mul_le_mul_right _ more
      rw [if_pos inside, reads _ next, ok_bind, addSize_ok (by omega), ok_bind]
      refine ⟨⟨index + 1, more, (Nat.succ_mul _ _).symm, ?_⟩, by dsimp only; omega⟩
      rw [reorderPixels_succ, append_assoc]
    · have last : index = count := by
        apply Nat.le_antisymm below
        rw [whole] at inside
        exact Nat.le_of_mul_le_mul_right (Nat.not_lt.mp inside) positive
      rw [if_neg inside, last]
      rfl
  · dsimp only
    omega
  · exact ⟨0, Nat.zero_le _, (Nat.zero_mul _).symm, (append_nil _).symm⟩

theorem sourceByteAt_drop {row rest : List UInt8} {offset index : Nat}
    (seen : row.drop offset = rest) (found : rest[index]? = some byte) :
    sourceByteAt row (offset + index) = .ok byte := by
  apply sourceByteAt_ok
  rw [← getElem?_drop, seen, found]

variable {count : Nat} (whole : layout.sourceRowBytes = count * layout.sourcePixelBytes)
  (fits : layout.sourceRowBytes ≤ maxSize) (long : layout.sourceRowBytes ≤ row.length)

include whole fits long

theorem appendBgrRow_ok (three : layout.sourcePixelBytes = 3) :
    appendBgrRow scanlines row layout =
      .ok (scanlines ++ reorderPixels layout.sourcePixelBytes count row) := by
  apply appendPixels_ok scanlines (by omega) whole fits
  intro offset inside
  have remaining : 3 ≤ (row.drop offset).length := by
    rw [length_drop]
    omega
  rw [three] at inside ⊢
  match seen : row.drop offset, remaining with
  | blue :: green :: red :: rest, _ =>
    have front : sourceByteAt row (offset + 0) = .ok blue := sourceByteAt_drop seen rfl
    rw [Nat.add_zero] at front
    rw [addSize_ok (by omega), ok_bind, sourceByteAt_drop seen rfl, ok_bind,
      addSize_ok (by omega), ok_bind, sourceByteAt_drop seen rfl, ok_bind,
      front, ok_bind]
    rfl

theorem appendBgraRow_ok (four : layout.sourcePixelBytes = 4) :
    appendBgraRow scanlines row layout =
      .ok (scanlines ++ reorderPixels layout.sourcePixelBytes count row) := by
  apply appendPixels_ok scanlines (by omega) whole fits
  intro offset inside
  have remaining : 4 ≤ (row.drop offset).length := by
    rw [length_drop]
    omega
  rw [four] at inside ⊢
  match seen : row.drop offset, remaining with
  | blue :: green :: red :: alpha :: rest, _ =>
    have front : sourceByteAt row (offset + 0) = .ok blue := sourceByteAt_drop seen rfl
    rw [Nat.add_zero] at front
    rw [addSize_ok (by omega), ok_bind, sourceByteAt_drop seen rfl, ok_bind,
      addSize_ok (by omega), ok_bind, sourceByteAt_drop seen rfl, ok_bind,
      front, ok_bind, addSize_ok (by omega), ok_bind,
      sourceByteAt_drop seen rfl, ok_bind]
    rfl

omit whole fits long

/-! ## Validated images -/

def fileColorType : PixelFormat → PngColorType
  | .gray => .grayscale
  | .rgb | .bgr => .truecolor
  | .rgba | .bgra => .truecolorAlpha

/-- What validation establishes of an image and its layout. -/
structure EncodeLayout.Describes (layout : EncodeLayout) (image : Image) : Prop where
  wide : image.width ≠ 0
  high : image.height ≠ 0
  row : layout.sourceRowBytes = image.width.toNat * bytesPerPixel image.format
  encoded : layout.pngRowBytes = image.width.toNat * bytesPerPixel image.format
  pixel : layout.sourcePixelBytes = bytesPerPixel image.format
  color : layout.colorType = fileColorType image.format
  stride : layout.sourceRowBytes ≤ image.stride.toNat
  pixels : image.height.toNat * image.stride.toNat ≤ image.pixels.length
  pixelsFit : image.height.toNat * image.stride.toNat ≤ maxSize
  small : (layout.pngRowBytes + 1) * image.height.toNat ≤ maxDecodedBytes

theorem EncodeLayout.Describes.row_pos (describes : layout.Describes image) :
    0 < layout.sourceRowBytes := by
  rw [describes.row]
  apply Nat.mul_pos
  · apply Nat.pos_of_ne_zero
    intro zero
    exact describes.wide (UInt32.toNat_inj.mp zero)
  · cases image.format <;> decide

theorem encodedRow_eq_ok {format : PixelFormat} {width : Nat} {encoded : PngColorType × Nat}
    (returned : encodedRow format width = .ok encoded) :
    encoded = (fileColorType format, width * bytesPerPixel format) := by
  unfold encodedRow mulSize at returned
  cases format with
  | gray | rgb | bgr | rgba | bgra =>
    dsimp only at returned
    split at returned
    · exact (Except.ok.inj returned).symm
    · cases returned

theorem validateEncodeImage_describes (returned : validateEncodeImage image = .ok layout) :
    layout.Describes image := by
  have one : 1 ≤ maxSize := by decide
  unfold validateEncodeImage at returned
  rcases bind_eq_ok.mp returned with ⟨_, nonEmpty, returned⟩
  rcases bind_eq_ok.mp returned with ⟨sourceRowBytes, row, returned⟩
  rcases bind_eq_ok.mp returned with ⟨_, stride, returned⟩
  rcases bind_eq_ok.mp returned with ⟨requiredPixels, required, returned⟩
  rcases bind_eq_ok.mp returned with ⟨_, pixels, returned⟩
  rcases bind_eq_ok.mp returned with ⟨encoded, encodedRow, returned⟩
  rcases bind_eq_ok.mp returned with ⟨filteredRowBytes, filteredRow, returned⟩
  rcases bind_eq_ok.mp returned with ⟨filteredBytes, filtered, returned⟩
  rcases bind_eq_ok.mp returned with ⟨_, small, returned⟩
  cases encodedRow_eq_ok encodedRow
  rcases checkedMul_eq_some.mp (expect_eq_ok.mp required) with ⟨fits, rfl⟩
  cases (checkedMul_eq_some.mp (expect_eq_ok.mp row)).2
  cases ((checkedAdd_eq_some one).mp (expect_eq_ok.mp filteredRow)).2
  cases (checkedMul_eq_some.mp (expect_eq_ok.mp filtered)).2
  cases returned
  have sides := require_eq_ok.mp nonEmpty
  simp only [Image.empty, Bool.or_eq_false_iff, beq_eq_false_iff_ne] at sides
  exact {
    wide := sides.1
    high := sides.2
    row := rfl
    encoded := rfl
    pixel := rfl
    color := rfl
    stride := require_eq_ok.mp stride
    pixels := require_eq_ok.mp pixels
    pixelsFit := fits
    small := require_eq_ok.mp small }

/-- A row of a buffer that holds all rows. -/
theorem row_inside (inside : y < image.height)
    (pixels : image.height.toNat * image.stride.toNat ≤ image.pixels.length)
    (fits : image.height.toNat * image.stride.toNat ≤ maxSize) :
    image.row y = (image.pixels.drop (y.toNat * image.stride.toNat)).take image.stride.toNat ∧
      (image.row y).length = image.stride.toNat := by
  have below : y.toNat < image.height.toNat := UInt32.lt_iff_toNat_lt.mp inside
  have last : y.toNat * image.stride.toNat + image.stride.toNat ≤
      image.height.toNat * image.stride.toNat := by
    rw [← Nat.succ_mul]
    exact Nat.mul_le_mul_right _ below
  have noWrap : ¬(image.stride.toNat ≠ 0 ∧ maxSize / image.stride.toNat < y.toNat) := by
    rintro ⟨positive, wraps⟩
    rw [Nat.div_lt_iff_lt_mul (Nat.pos_of_ne_zero positive)] at wraps
    omega
  have same : image.row y =
      (image.pixels.drop (y.toNat * image.stride.toNat)).take image.stride.toNat := by
    unfold Image.row
    rw [if_neg (UInt32.not_le.mpr inside), if_neg noWrap, if_neg (by omega)]
  refine ⟨same, ?_⟩
  rw [same, List.length_take, length_drop]
  omega

theorem EncodeLayout.Describes.length_row (describes : layout.Describes image)
    (inside : y < image.height) : (image.row y).length = image.stride.toNat :=
  (row_inside inside describes.pixels describes.pixelsFit).2

theorem ofNat_lt_height {y : Nat} (below : y < image.height.toNat) :
    UInt32.ofNat y < image.height := by
  have number : (UInt32.ofNat y).toNat = y :=
    UInt32.toNat_ofNat_of_lt (Nat.lt_trans below image.height.toNat_lt)
  rw [UInt32.lt_iff_toNat_lt, number]
  exact below

/-! ## Scanlines -/

/-- The rows of an image as the decoder returns them. -/
def pixelRows (image : Image) : List (List UInt8) :=
  (List.range image.height.toNat).map fun y => pixelRow image (UInt32.ofNat y)

/-- The scanlines of rows, each behind the filter `none`. -/
def scanlinesOf (rows : List (List UInt8)) : ByteVector :=
  rows.flatMap fun row => FilterType.none.toByte :: row

/-- The loop body of `make_filtered_scanlines` appends one scanline. -/
theorem appendRow_ok (describes : layout.Describes image) (inside : y < image.height)
    (scanlines : ByteVector) :
    (match image.format with
      | .gray | .rgb | .rgba => appendDirectRow scanlines (image.row y) layout.pngRowBytes
      | .bgr => appendBgrRow scanlines (image.row y) layout
      | .bgra => appendBgraRow scanlines (image.row y) layout) =
        .ok (scanlines ++ pixelRow image y) := by
  have length := describes.length_row inside
  have stride := describes.stride
  have encoded := describes.encoded
  have long : layout.sourceRowBytes ≤ (image.row y).length := by omega
  have fits : layout.sourceRowBytes ≤ maxSize := by
    have := image.stride.toNat_lt
    unfold maxSize
    omega
  have row := describes.row
  have pixel := describes.pixel
  unfold pixelRow
  cases format : image.format with
  | gray | rgb | rgba =>
    rw [format] at row encoded
    simp only [appendDirectRow]
    rw [subspan_ok (by omega), ok_bind, drop_zero, encoded]
    rfl
  | bgr =>
    rw [format] at row pixel
    rw [← pixel] at row
    simp only
    rw [appendBgrRow_ok scanlines row fits long pixel, pixel]
  | bgra =>
    rw [format] at row pixel
    rw [← pixel] at row
    simp only
    rw [appendBgraRow_ok scanlines row fits long pixel, pixel]

theorem makeFilteredScanlines_ok (describes : layout.Describes image) :
    makeFilteredScanlines image layout = .ok (scanlinesOf (pixelRows image)) := by
  apply Returns.eq_ok
  apply Meets.times (fun count (scanlines : ByteVector) =>
    scanlines = scanlinesOf ((List.range count).map fun y => pixelRow image (UInt32.ofNat y)))
  · rfl
  rintro y scanlines below rfl
  have inside := ofNat_lt_height below
  have nonEmpty : image.row (UInt32.ofNat y) ≠ [] := by
    intro empty
    have length := describes.length_row inside
    rw [empty, length_nil] at length
    have stride := describes.stride
    have positive := describes.row_pos
    omega
  dsimp only
  rw [require_ok nonEmpty, ok_bind]
  apply Meets.of_ok (appendRow_ok describes inside _)
  simp only [scanlinesOf, range_succ, map_append, flatMap_append, map_cons,
    map_nil, flatMap_cons, flatMap_nil, append_nil, append_assoc,
    singleton_append]

end Grab.Codec
