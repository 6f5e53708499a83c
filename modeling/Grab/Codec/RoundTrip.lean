import Grab.Codec.Encode
import Grab.Codec.Frame

/-!
# Decoding what was encoded

The decoder reads the frame back, inflates the scanlines and unfilters them.  The unfiltering
loops keep the invariant that the bytes already written are those of the rows.
-/

namespace Grab.Codec

open Grab.Lib Grab.Lib.Checked List

/-! ## Rows of one width -/

section

variable {α : Type} {rows : List (List α)} {width : Nat}
  (uniform : ∀ row ∈ rows, row.length = width) {row : List α}

include uniform

theorem getElem?_flatten_of_uniform {y x : Nat} (column : x < width) (found : rows[y]? = some row) :
    rows.flatten[y * width + x]? = row[x]? := by
  induction rows generalizing y with
  | nil => cases found
  | cons first rest reads =>
    have firstWidth : first.length = width := uniform first mem_cons_self
    rw [flatten_cons]
    cases y with
    | zero =>
      cases found
      rw [Nat.zero_mul, Nat.zero_add, getElem?_append_left (by omega)]
    | succ y =>
      rw [Nat.succ_mul, getElem?_append_right (by omega)]
      have shifted : y * width + width + x - first.length = y * width + x := by omega
      rw [shifted]
      exact reads (fun row member => uniform row (mem_cons_of_mem _ member)) found

theorem length_flatten_of_uniform : rows.flatten.length = width * rows.length := by
  induction rows with
  | nil => rfl
  | cons first rest summed =>
    rw [flatten_cons, length_append, uniform first mem_cons_self,
      summed (fun row member => uniform row (mem_cons_of_mem _ member)),
      length_cons, Nat.mul_succ, Nat.add_comm]

theorem take_drop_flatten_of_uniform {y : Nat} (found : rows[y]? = some row) :
    (rows.flatten.drop (y * width)).take width = row := by
  induction rows generalizing y with
  | nil => cases found
  | cons first rest reads =>
    have firstWidth : first.length = width := uniform first mem_cons_self
    rw [flatten_cons]
    cases y with
    | zero =>
      cases found
      rw [Nat.zero_mul, drop_zero, ← firstWidth, take_left]
    | succ y =>
      have behind : (first ++ rest.flatten).drop width = rest.flatten := by
        rw [← firstWidth, drop_left]
      rw [Nat.succ_mul, Nat.add_comm, ← drop_drop, behind]
      exact reads (fun row member => uniform row (mem_cons_of_mem _ member)) found

end

/-! ## Unfiltering -/

theorem scanlinesOf_eq_flatten (rows : List (List UInt8)) :
    scanlinesOf rows = (rows.map fun row => FilterType.none.toByte :: row).flatten :=
  flatMap_def

section

variable {rows : List (List UInt8)} {width : Nat} (uniform : ∀ row ∈ rows, row.length = width)

include uniform

theorem uniform_scanlines :
    ∀ scanline ∈ rows.map fun row => FilterType.none.toByte :: row,
      scanline.length = width + 1 := by
  intro scanline member
  rcases mem_map.mp member with ⟨row, rowMember, rfl⟩
  rw [length_cons, uniform row rowMember]

theorem length_scanlinesOf : (scanlinesOf rows).length = (width + 1) * rows.length := by
  rw [scanlinesOf_eq_flatten, length_flatten_of_uniform (uniform_scanlines uniform), length_map]

variable {row : List UInt8} {y : Nat}

omit uniform in
theorem scanline_found (found : rows[y]? = some row) :
    (rows.map fun row => FilterType.none.toByte :: row)[y]? =
      some (FilterType.none.toByte :: row) := by
  rw [getElem?_map, found]
  rfl

theorem scanlinesOf_filter (found : rows[y]? = some row) :
    (scanlinesOf rows)[y * (width + 1)]? = some FilterType.none.toByte := by
  rw [scanlinesOf_eq_flatten]
  exact getElem?_flatten_of_uniform (uniform_scanlines uniform) (Nat.succ_pos width)
    (scanline_found found)

theorem scanlinesOf_byte {y x : Nat} (column : x < width) (found : rows[y]? = some row) :
    (scanlinesOf rows)[y * (width + 1) + 1 + x]? = row[x]? := by
  have read := getElem?_flatten_of_uniform (uniform_scanlines uniform)
    (show x + 1 < width + 1 by omega) (scanline_found found)
  rw [getElem?_cons_succ, ← Nat.add_assoc, Nat.add_right_comm] at read
  rw [scanlinesOf_eq_flatten]
  exact read

end

/-- The first `done` bytes are those of the target. -/
structure Restored (target : ByteVector) (done : Nat) (raw : ByteVector) : Prop where
  size : raw.length = target.length
  same : ∀ position, position < done → raw[position]? = target[position]?

variable {target raw : ByteVector} {png : ParsedPng}

theorem Restored.set {done : Nat} {byte : UInt8} (restored : Restored target done raw)
    (found : target[done]? = some byte) : Restored target (done + 1) (raw.set done byte) := by
  have inside : done < target.length := (List.getElem?_eq_some_iff.mp found).1
  constructor
  case size =>
    rw [length_set]
    exact restored.size
  case same =>
    intro position below
    by_cases here : position = done
    · subst here
      rw [getElem?_set_self (restored.size ▸ inside), found]
    · rw [getElem?_set_ne (Ne.symm here)]
      exact restored.same position (by omega)

theorem Restored.eq_target (restored : Restored target target.length raw) : raw = target := by
  apply ext_getElem?
  intro position
  by_cases below : position < target.length
  · exact restored.same position below
  · rw [getElem?_eq_none (by rw [restored.size]; omega), getElem?_eq_none (by omega)]

theorem reconstructByte_zero (filtered : UInt8) : reconstructByte filtered 0 = filtered := by
  have below : filtered.toNat < 256 := filtered.toNat_lt
  unfold reconstructByte byteModulo
  rw [UInt8.toNat_zero, Nat.add_zero, Nat.mod_eq_of_lt below, UInt8.ofNat_toNat]

section

variable {rows : List (List UInt8)} {layout : DecodeLayout}
  (scanlines : Scanlines (scanlinesOf rows) layout rows.length)

include scanlines

variable (uniform : ∀ row ∈ rows, row.length = layout.sourceRowBytes)

include uniform

/-- One scanline of the encoder restores one row. -/
theorem unfilterRow_restores {y : Nat} {raw : ByteVector} (below : y < rows.length)
    (restored : Restored rows.flatten (y * layout.sourceRowBytes) raw) :
    Returns (Restored rows.flatten ((y + 1) * layout.sourceRowBytes))
      (unfilterRow (scanlinesOf rows) layout y raw) := by
  have found : rows[y]? = some rows[y] := getElem?_eq_getElem below
  have whole := length_flatten_of_uniform uniform
  have room : (scanlinesOf rows).length ≤ maxSize := Nat.le_trans scanlines.small (by decide)
  have filter := scanlinesOf_filter uniform found
  rw [← scanlines.filteredRow] at filter
  have start := (List.getElem?_eq_some_iff.mp filter).1
  have narrower : y * layout.sourceRowBytes ≤ y * layout.filteredRowBytes := by
    rw [scanlines.filteredRow]
    exact Nat.mul_le_mul_left y (Nat.le_succ _)
  unfold unfilterRow
  rw [mulSize_ok (by omega), ok_bind, mulSize_ok (by omega), ok_bind, itemAt_ok filter, ok_bind]
  change Meets False _ (times _ raw layout.sourceRowBytes)
  rw [Nat.succ_mul]
  apply Meets.times (fun x => Restored rows.flatten (y * layout.sourceRowBytes + x)) restored
  intro x before column soFar
  rcases unfilterByte_ok scanlines (soFar.size.trans whole) below column .none with
    ⟨filtered, predictor, read, unpredicted, written⟩
  rw [unpredicted rfl, reconstructByte_zero] at written
  rw [scanlines.filteredRow, scanlinesOf_byte uniform column found,
    ← getElem?_flatten_of_uniform uniform column found] at read
  exact Meets.of_ok written (soFar.set read)

theorem unfilterScanlines_restores {height : UInt32}
    (filtered : layout.filteredBytes = (scanlinesOf rows).length)
    (count : rows.length = height.toNat) :
    unfilterScanlines (scanlinesOf rows) layout height = .ok rows.flatten := by
  have whole := length_flatten_of_uniform uniform
  have rawSmall : layout.sourceRowBytes * rows.length ≤ maxSize := by
    apply Nat.le_trans _ (Nat.le_trans scanlines.small (by decide))
    rw [scanlines.whole, scanlines.filteredRow]
    exact Nat.mul_le_mul_right _ (Nat.le_succ _)
  unfold unfilterScanlines
  rw [require_ok filtered.symm, ok_bind, ← count, mulSize_ok rawSmall, ok_bind]
  apply Returns.eq_ok
  apply Meets.weaken
  · apply Meets.times (fun y => Restored rows.flatten (y * layout.sourceRowBytes))
    · constructor
      case size => rw [length_replicate, whole]
      case same =>
        intro position below
        rw [Nat.zero_mul] at below
        exact absurd below (Nat.not_lt_zero _)
    · intro y before below soFar
      exact unfilterRow_restores scanlines uniform below soFar
  · intro raw restored
    rw [Nat.mul_comm, ← whole] at restored
    exact restored.eq_target

end

/-! ## Decoding an encoded image -/

/-- The sizes and the format of the file of an image. -/
def fileLayout (image : Image) : DecodeLayout :=
  let channels := bytesPerPixel image.format
  let row := image.width.toNat * channels
  { sourceRowBytes := row
    filteredRowBytes := row + 1
    filteredBytes := (row + 1) * image.height.toNat
    filterPixelBytes := channels
    outputStride := row
    outputBytes := image.height.toNat * row
    outputFormat := fileFormat image.format }

theorem sourceChannels_fileColorType (format : PixelFormat) :
    sourceChannels (fileColorType format) = some (bytesPerPixel format) := by
  cases format <;> rfl

theorem decodedFormat_fileColorType {format : PixelFormat}
    (color : png.ihdr.colorType = fileColorType format) :
    decodedFormat png = some (fileFormat format, bytesPerPixel format) := by
  unfold decodedFormat
  rw [color]
  cases format <;> rfl

variable {image : Image} {layout : EncodeLayout} {zlib : Zlib} {y : UInt32}

theorem decodeLayoutFor_fileLayout (describes : layout.Describes image)
    (width : png.ihdr.width = image.width) (height : png.ihdr.height = image.height)
    (color : png.ihdr.colorType = fileColorType image.format) :
    decodeLayoutFor png = .ok (fileLayout image) := by
  have one : 1 ≤ maxSize := by decide
  have decodedFit : maxDecodedBytes ≤ maxSize := by decide
  have strideSmall : image.stride.toNat ≤ maxUint32 := Nat.le_of_lt_succ image.stride.toNat_lt
  have strideFit : maxUint32 + 1 ≤ maxSize := by decide
  have row := describes.row
  have encoded := describes.encoded
  have stride := describes.stride
  have small := describes.small
  rw [encoded] at small
  have output : image.height.toNat * (image.width.toNat * bytesPerPixel image.format) ≤
      (image.width.toNat * bytesPerPixel image.format + 1) * image.height.toNat := by
    rw [Nat.mul_comm]
    exact Nat.mul_le_mul_right _ (Nat.le_succ _)
  have rowComputed := checkedMul_eq_some.mpr
    ⟨show image.width.toNat * bytesPerPixel image.format ≤ maxSize by omega, rfl⟩
  have filteredRowComputed := (checkedAdd_eq_some one).mpr
    ⟨show image.width.toNat * bytesPerPixel image.format + 1 ≤ maxSize by omega, rfl⟩
  have filteredComputed := checkedMul_eq_some.mpr ⟨Nat.le_trans small decodedFit, rfl⟩
  have outputComputed := checkedMul_eq_some.mpr
    ⟨Nat.le_trans output (Nat.le_trans small decodedFit), rfl⟩
  unfold decodeLayoutFor
  rw [color, sourceChannels_fileColorType, decodedFormat_fileColorType color, width, height]
  simp only [expect, ok_bind, rowComputed, filteredRowComputed, filteredComputed, outputComputed]
  rw [require_ok (by omega), ok_bind]
  rfl

theorem zlibInflateExact_compressed (inverts : zlib.Inverts) (needsHeader : zlib.NeedsHeader)
    {scanlines compressed : ByteVector} (returned : zlibCompress zlib scanlines = .ok compressed)
    (small : compressed.length ≤ maxChunkBytes) (scanlinesSmall : scanlines.length ≤ maxSize) :
    zlibInflateExact zlib compressed scanlines.length = .ok scanlines := by
  unfold zlibCompress at returned
  rcases bind_eq_ok.mp returned with ⟨_, _, returned⟩
  rcases bind_eq_ok.mp returned with ⟨_, _, returned⟩
  rcases bind_eq_ok.mp returned with ⟨_, _, returned⟩
  rcases bind_eq_ok.mp returned with ⟨_, status, returned⟩
  cases returned
  have restored := inverts _ _ (require_eq_ok.mp status) scanlines.length (Nat.le_refl _)
  generalize zlib.compress2 (zlib.compressBound scanlines.length) scanlines = written
    at restored small
  have nonEmpty : written.bytes ≠ [] := by
    intro empty
    have refused := needsHeader scanlines.length
    rw [empty] at restored
    rw [restored] at refused
    cases refused
  have room : maxChunkBytes ≤ maxSize := by decide
  unfold zlibInflateExact
  rw [require_ok nonEmpty, ok_bind, require_ok (by omega), ok_bind]
  dsimp only
  rw [restored, within_ok (Nat.le_refl _), ok_bind, require_ok (by simp), ok_bind]
  rfl

theorem encodePng_eq_ok {bytes : ByteVector} (encoded : encodePng zlib image = .ok bytes) :
    ∃ layout compressed, EncodeLayout.Describes layout image ∧
      zlibCompress zlib (scanlinesOf (pixelRows image)) = .ok compressed ∧
      compressed.length ≤ maxChunkBytes ∧
      bytes = pngFile zlib (headerBytes image.width image.height (fileColorType image.format))
        compressed := by
  unfold encodePng at encoded
  rcases bind_eq_ok.mp encoded with ⟨layout, validated, encoded⟩
  have describes := validateEncodeImage_describes validated
  rw [makeFilteredScanlines_ok describes, ok_bind] at encoded
  rcases bind_eq_ok.mp encoded with ⟨compressed, compresses, encoded⟩
  rcases bind_eq_ok.mp encoded with ⟨withHeader, header, encoded⟩
  rcases bind_eq_ok.mp encoded with ⟨withData, data, ends⟩
  rcases appendChunk_eq_ok.mp header with ⟨_, rfl⟩
  rcases appendChunk_eq_ok.mp data with ⟨small, rfl⟩
  rcases appendChunk_eq_ok.mp ends with ⟨_, rfl⟩
  refine ⟨layout, compressed, describes, compresses, small, ?_⟩
  rw [describes.color, pngFile, headerBytes, append_assoc, append_assoc]

theorem length_pixelRows (image : Image) : (pixelRows image).length = image.height.toNat := by
  rw [pixelRows, length_map, length_range]

theorem pixelRows_uniform (describes : layout.Describes image) :
    ∀ row ∈ pixelRows image, row.length = image.width.toNat * bytesPerPixel image.format := by
  intro row member
  rcases mem_map.mp member with ⟨y, inRange, rfl⟩
  apply length_pixelRow
  rw [describes.length_row (ofNat_lt_height (mem_range.mp inRange)), ← describes.row]
  exact describes.stride

theorem getElem?_pixelRows (inside : y < image.height) :
    (pixelRows image)[y.toNat]? = some (pixelRow image y) := by
  have below : y.toNat < image.height.toNat := UInt32.lt_iff_toNat_lt.mp inside
  rw [pixelRows, getElem?_map, getElem?_range below]
  simp only [Option.map_some, UInt32.ofNat_toNat]

/-- The image the decoder returns for the file of an image. -/
def fileImage (image : Image) : Image where
  width := image.width
  height := image.height
  stride := UInt32.ofNat (image.width.toNat * bytesPerPixel image.format)
  format := fileFormat image.format
  pixels := (pixelRows image).flatten

theorem decodePng_pngFile (inverts : zlib.Inverts) (needsHeader : zlib.NeedsHeader)
    {compressed : ByteVector} (describes : layout.Describes image)
    (compresses : zlibCompress zlib (scanlinesOf (pixelRows image)) = .ok compressed)
    (small : compressed.length ≤ maxChunkBytes) :
    decodePng zlib (pngFile zlib
      (headerBytes image.width image.height (fileColorType image.format)) compressed) =
        .ok (fileImage image) := by
  have uniform := pixelRows_uniform describes
  have supported : fileColorType image.format ≠ .grayscaleAlpha := by
    cases image.format <;> decide
  have direct : fileColorType image.format ≠ .palette := by
    cases image.format <;> decide
  have size : (scanlinesOf (pixelRows image)).length = (fileLayout image).filteredBytes := by
    rw [length_scanlinesOf uniform, length_pixelRows]
    rfl
  have scanlines : Scanlines (scanlinesOf (pixelRows image)) (fileLayout image)
      (pixelRows image).length := {
    filteredRow := rfl
    whole := length_scanlinesOf uniform
    small := by
      rw [size]
      change (_ + 1) * _ ≤ _
      rw [← describes.encoded]
      exact describes.small }
  have fits : (scanlinesOf (pixelRows image)).length ≤ maxSize :=
    Nat.le_trans scanlines.small (by decide)
  unfold decodePng
  rw [parsePng_pngFile (parseIhdr_headerBytes describes.wide describes.high supported) direct
    (by rw [show (headerBytes _ _ _).length = 13 from rfl]; decide) small, ok_bind,
    decodeLayoutFor_fileLayout describes rfl rfl rfl, ok_bind, ← size,
    zlibInflateExact_compressed inverts needsHeader compresses small fits, ok_bind,
    unfilterScanlines_restores scanlines uniform size.symm (length_pixelRows image), ok_bind]
  unfold imageFromRaw pixelsFromRaw
  rw [if_neg direct, ok_bind]
  rfl

theorem stride_fileImage (describes : layout.Describes image) :
    (fileImage image).stride.toNat = image.width.toNat * bytesPerPixel image.format := by
  apply UInt32.toNat_ofNat_of_lt
  rw [← describes.row]
  exact Nat.lt_of_le_of_lt describes.stride image.stride.toNat_lt

/-- Every row of the decoded image is the row of the source without its padding, reordered. -/
theorem row_fileImage (describes : layout.Describes image) (inside : y < image.height) :
    (fileImage image).row y = pixelRow image y := by
  have uniform := pixelRows_uniform describes
  have stride := stride_fileImage describes
  have whole : (fileImage image).pixels.length =
      (fileImage image).height.toNat * (fileImage image).stride.toNat := by
    rw [stride]
    change (pixelRows image).flatten.length = _
    rw [length_flatten_of_uniform uniform, length_pixelRows, Nat.mul_comm]
    rfl
  have fits : (fileImage image).height.toNat * (fileImage image).stride.toNat ≤ maxSize := by
    rw [stride, ← describes.row]
    exact Nat.le_trans (Nat.mul_le_mul_left _ describes.stride) describes.pixelsFit
  have insideFile : y < (fileImage image).height := inside
  rw [(row_inside insideFile (Nat.le_of_eq whole.symm) fits).1, stride]
  exact take_drop_flatten_of_uniform uniform (getElem?_pixelRows inside)

/-- What was encoded decodes to the same picture: the same sides, tight rows in the channel
order of the file, and every row that of the source without padding. -/
theorem decodePng_encodePng {zlib : Zlib} (inverts : zlib.Inverts)
    (needsHeader : zlib.NeedsHeader) {image : Image} {bytes : ByteVector}
    (encoded : encodePng zlib image = .ok bytes) :
    ∃ decoded, decodePng zlib bytes = .ok decoded ∧
      decoded.width = image.width ∧ decoded.height = image.height ∧
      decoded.stride.toNat = image.width.toNat * bytesPerPixel image.format ∧
      decoded.format = fileFormat image.format ∧
      ∀ y, y < image.height → decoded.row y = pixelRow image y := by
  rcases encodePng_eq_ok encoded with ⟨layout, compressed, describes, compresses, small, rfl⟩
  refine ⟨fileImage image, decodePng_pngFile inverts needsHeader describes compresses small,
    rfl, rfl, stride_fileImage describes, rfl, ?_⟩
  intro y inside
  exact row_fileImage describes inside

/-- One blue-green-red pixel in a padded row. -/
def bgrPixel : Image where
  width := 1
  height := 1
  stride := 4
  format := .bgr
  pixels := [0x01, 0x02, 0x03, 0xEE]

theorem pixelZlib_inverts : pixelZlib.Inverts := by
  intro capacity source compressed room enough
  simp only [pixelZlib] at compressed ⊢
  split at compressed
  · rename_i same
    rw [if_pos same, if_pos ⟨rfl, same.1 ▸ enough⟩, same.1]
  · cases compressed

theorem pixelZlib_needsHeader : pixelZlib.NeedsHeader := by
  intro capacity
  simp only [pixelZlib]
  rw [if_neg]
  rintro ⟨impossible, _⟩
  cases impossible

theorem decodePng_encodePng_bgr :
    encodePng pixelZlib bgrPixel = .ok pixelPng ∧
      ∃ decoded, decodePng pixelZlib pixelPng = .ok decoded ∧
        decoded.format = .rgb ∧ decoded.row 0 = [0x03, 0x02, 0x01] := by
  have encoded : encodePng pixelZlib bgrPixel = .ok pixelPng := by decide +kernel
  rcases decodePng_encodePng pixelZlib_inverts pixelZlib_needsHeader encoded with
    ⟨decoded, returned, _, _, _, format, rows⟩
  exact ⟨encoded, decoded, returned, format, rows 0 (by decide)⟩

end Grab.Codec
