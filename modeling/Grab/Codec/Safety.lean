import Grab.Codec.Png

/-!
# Decoding is safe

`decode_png` on any input the address space can hold: no read leaves its buffer, no size
wraps, the chunk loop ends, and an image that is returned is well formed.
-/

namespace Grab.Codec

open Grab.Lib Grab.Lib.Checked List

/-- The bytes a span can hold. -/
abbrev ByteSpan := { bytes : ByteVector // bytes.length ≤ maxSize }

/-! ## The chunk loop -/

/-- A header that was read has no empty side. -/
def ParseState.Sound (state : ParseState) : Prop :=
  state.seenIhdr = true → state.png.ihdr.width ≠ 0 ∧ state.png.ihdr.height ≠ 0

theorem ParseState.sound_initial : ParseState.Sound {} := by
  intro seen
  cases seen

theorem parseIhdr_safe (data : ByteVector) :
    Safe (fun ihdr => ihdr.width ≠ 0 ∧ ihdr.height ≠ 0) (parseIhdr data) := by
  unfold parseIhdr
  apply (Safe.require _).bind
  intro _ size
  have long : data.length = 13 := size
  have byteAt (offset : Nat) (below : offset < 13) : ∃ byte, data[offset]? = some byte :=
    ⟨_, getElem?_eq_getElem (by omega)⟩
  rcases byteAt 8 (by omega) with ⟨bitDepth, bitDepthAt⟩
  rcases byteAt 9 (by omega) with ⟨colorByte, colorAt⟩
  rcases byteAt 10 (by omega) with ⟨compression, compressionAt⟩
  rcases byteAt 11 (by omega) with ⟨filter, filterAt⟩
  rcases byteAt 12 (by omega) with ⟨interlace, interlaceAt⟩
  rw [readBe32_inside (by simp only [pngUint32Bytes]; omega),
    readBe32_inside (by simp only [pngUint32Bytes]; omega),
    readByte_inside bitDepthAt, readByte_inside colorAt, readByte_inside compressionAt,
    readByte_inside filterAt, readByte_inside interlaceAt]
  simp only [ok_bind, expect]
  apply (Safe.expect _ _).bind
  intro colorType _
  apply (Safe.require _).bind
  intro _ nonzero
  apply (Safe.require _).bind
  intro _ _
  apply (Safe.require _).bind
  intro _ _
  apply (Safe.require _).bind
  intro _ _
  exact not_or.mp nonzero

/-- What the chunks after the header leave alone. -/
def ParseState.SameHeader (state next : ParseState) : Prop :=
  next.png.ihdr = state.png.ihdr ∧ next.seenIhdr = state.seenIhdr

theorem ParseState.Sound.of_sameHeader {state next : ParseState} (sound : state.Sound)
    (same : state.SameHeader next) : next.Sound := by
  intro seen
  rw [same.1]
  exact sound (same.2.symm.trans seen)

variable (state : ParseState) (data : ByteVector)

theorem parsePlte_safe : Safe state.SameHeader (parsePlte state data) := by
  unfold parsePlte
  apply (Safe.require _).bind
  intro _ _
  apply (Safe.require _).bind
  intro _ _
  exact ⟨rfl, rfl⟩

theorem parseTrns_safe : Safe state.SameHeader (parseTrns state data) := by
  unfold parseTrns
  apply (Safe.require _).bind
  intro _ _
  apply (Safe.require _).bind
  intro _ _
  apply (Safe.require _).bind
  intro _ _
  apply (Safe.require _).bind
  intro _ _
  exact ⟨rfl, rfl⟩

theorem appendIdat_safe : Safe state.SameHeader (appendIdat state data) := by
  unfold appendIdat
  apply (Safe.require _).bind
  intro _ _
  apply (Safe.require _).bind
  intro _ _
  exact ⟨rfl, rfl⟩

variable {type : ChunkType}

theorem isCriticalChunk_safe (four : type.length = 4) :
    Safe (fun _ => True) (isCriticalChunk type) := by
  unfold isCriticalChunk
  rw [itemAt_ok (getElem?_eq_getElem (by omega))]
  exact trivial

variable {state : ParseState} {png : ParsedPng} {raw : ByteVector} {layout : DecodeLayout}
  {inflated : ByteVector} {height y x : Nat}

/-- Past a header, a chunk handler that keeps the header keeps the state sound. -/
theorem sound_of_handler {handler : Checked Error ParseState} (sound : state.Sound)
    (safe : Safe state.SameHeader handler) :
    Safe (fun (outcome : ParseState × Bool) =>
      outcome.1.Sound ∧ (outcome.2 = true → outcome.1.seenIhdr = true))
      (handler >>= fun next => pure (next, false)) := by
  apply safe.bind
  intro next same
  exact ⟨sound.of_sameHeader same, nofun⟩

theorem processChunk_safe (data : ByteVector) (sound : state.Sound) (four : type.length = 4) :
    Safe (fun outcome => outcome.1.Sound ∧ (outcome.2 = true → outcome.1.seenIhdr = true))
      (processChunk state type data) := by
  unfold processChunk
  apply (Safe.require _).bind
  intro _ _
  split
  · apply (Safe.require _).bind
    intro _ _
    apply (parseIhdr_safe data).bind
    intro ihdr nonzero
    exact ⟨fun _ => nonzero, nofun⟩
  apply (Safe.require _).bind
  intro _ seen
  split
  · exact sound_of_handler sound (parsePlte_safe state data)
  split
  · exact sound_of_handler sound (parseTrns_safe state data)
  split
  · exact sound_of_handler sound (appendIdat_safe state data)
  split
  · apply (Safe.require _).bind
    intro _ _
    exact ⟨sound, fun _ => seen⟩
  · apply (isCriticalChunk_safe four).bind
    intro critical _
    apply (Safe.require _).bind
    intro _ _
    exact ⟨sound, nofun⟩

/-- A parsed file has no empty side. -/
def ParsedPng.NonEmpty (png : ParsedPng) : Prop := png.ihdr.width ≠ 0 ∧ png.ihdr.height ≠ 0

theorem parseChunk_safe (zlib : Zlib) {bytes : ByteVector} {offset : Nat}
    (fits : bytes.length ≤ maxSize) (sound : state.Sound) :
    Safe (fun outcome =>
      match outcome with
      | .inl (next, after) => after.Sound ∧ offset < next
      | .inr png => png.NonEmpty) (parseChunk zlib bytes state offset) := by
  unfold parseChunk
  apply (Safe.require _).bind
  intro _ header
  have header : offset + 12 ≤ bytes.length := hasBytes_iff.mp header
  rw [readBe32_inside (show offset + 4 ≤ bytes.length by omega)]
  simp only [ok_bind, expect]
  generalize (bigEndian _).toNat = dataSize
  apply (Safe.require _).bind
  intro _ small
  have room : dataSize ≤ maxSize := Nat.le_trans small (by decide)
  apply (Safe.expect _ _).bind
  intro chunkBytes added
  have added : chunkBytes = 12 + dataSize := ((checkedAdd_eq_some room).mp added).2
  apply (Safe.require _).bind
  intro _ whole
  have whole : offset + chunkBytes ≤ bytes.length := hasBytes_iff.mp whole
  -- every field of the chunk lies before its end, which is inside the input
  have ends : offset + pngChunkLengthBytes + pngChunkTypeBytes + dataSize + pngUint32Bytes =
      offset + chunkBytes := by
    rw [added]
    simp only [pngChunkLengthBytes, pngChunkTypeBytes, pngUint32Bytes]
    omega
  rw [addSize_ok (by omega), ok_bind, readChunkType_inside (by omega)]
  simp only [ok_bind]
  rw [addSize_ok (by omega), ok_bind, addSize_ok (by omega), ok_bind, readBe32_inside (by omega)]
  simp only [ok_bind]
  rw [subspan_ok (by omega), ok_bind]
  apply (Safe.require _).bind
  intro _ _
  apply Meets.bind
  · apply processChunk_safe _ sound
    rw [List.length_take, length_drop]
    change min pngChunkTypeBytes _ = pngChunkTypeBytes
    omega
  rintro ⟨after, done⟩ ⟨soundAfter, seen⟩
  rw [addSize_ok (by omega), ok_bind]
  split
  · rename_i last
    apply (Safe.require _).bind
    intro _ _
    apply (Safe.require _).bind
    intro _ _
    apply (Safe.require _).bind
    intro _ _
    exact soundAfter (seen last)
  · exact ⟨soundAfter, by omega⟩

theorem parsePng_safe (zlib : Zlib) (input : ByteSpan) :
    Safe ParsedPng.NonEmpty (parsePng zlib input.1) := by
  unfold parsePng
  apply (Safe.require _).bind
  intro _ long
  rw [subspan_ok (by omega), ok_bind]
  apply (Safe.require _).bind
  intro _ _
  apply Meets.loop (fun round => round.2.Sound) (fun round => input.1.length - round.1)
  · rintro ⟨offset, state⟩ sound
    unfold parseRound
    by_cases inside : offset < input.1.length
    · simp only [if_pos inside]
      apply (parseChunk_safe zlib input.2 sound).weaken
      rintro (⟨next, after⟩ | png) met
      · exact ⟨met.1, by simp only; have := met.2; omega⟩
      · exact met
    · simp only [if_neg inside]
      exact Safe.report _
  · simp only
    omega
  · exact ParseState.sound_initial

/-! ## Layouts -/

/-- The sizes of a layout are those of the header, and small enough to compute with. -/
structure DecodeLayout.Describes (layout : DecodeLayout) (png : ParsedPng) : Prop where
  row : layout.sourceRowBytes = png.ihdr.width.toNat * layout.filterPixelBytes
  filteredRow : layout.filteredRowBytes = layout.sourceRowBytes + 1
  filtered : layout.filteredBytes = layout.filteredRowBytes * png.ihdr.height.toNat
  filteredSmall : layout.filteredBytes ≤ maxDecodedBytes
  stride : layout.outputStride = png.ihdr.width.toNat * bytesPerPixel layout.outputFormat
  strideSmall : layout.outputStride ≤ maxUint32
  output : layout.outputBytes = png.ihdr.height.toNat * layout.outputStride
  direct : png.ihdr.colorType ≠ .palette →
    bytesPerPixel layout.outputFormat = layout.filterPixelBytes

/-- The decoded format has the channels that were computed for it, and outside palettes
these are the channels of the file. -/
theorem decodedFormat_channels {format : PixelFormat} {channels : Nat}
    (found : decodedFormat png = some (format, channels)) :
    channels = bytesPerPixel format ∧
      (png.ihdr.colorType ≠ .palette → sourceChannels png.ihdr.colorType = some channels) := by
  unfold decodedFormat at found
  cases color : png.ihdr.colorType with
    rw [color] at found
  | palette =>
    simp only at found
    split at found
    · cases found
      exact ⟨rfl, fun other => absurd rfl other⟩
    · cases found
      exact ⟨rfl, fun other => absurd rfl other⟩
  | grayscaleAlpha =>
    cases found
  | grayscale | truecolor | truecolorAlpha =>
    cases found
    exact ⟨rfl, fun _ => rfl⟩

theorem decodeLayoutFor_safe (png : ParsedPng) :
    Safe (fun layout => layout.Describes png) (decodeLayoutFor png) := by
  have one : 1 ≤ maxSize := by decide
  unfold decodeLayoutFor
  apply (Safe.expect _ _).bind
  intro inputChannels input
  apply (Safe.expect _ _).bind
  intro sourceRowBytes row
  apply (Safe.expect _ _).bind
  intro filteredRowBytes filteredRow
  apply (Safe.expect _ _).bind
  intro filteredBytes filtered
  apply (Safe.expect _ _).bind
  rintro ⟨outputFormat, outputChannels⟩ decoded
  apply (Safe.expect _ _).bind
  intro outputStride stride
  apply (Safe.expect _ _).bind
  intro outputBytes output
  apply (Safe.require _).bind
  intro _ small
  rcases decodedFormat_channels decoded with ⟨channels, direct⟩
  subst channels
  exact {
    row := (checkedMul_eq_some.mp row).2
    filteredRow := ((checkedAdd_eq_some one).mp filteredRow).2
    filtered := (checkedMul_eq_some.mp filtered).2
    filteredSmall := by
      change filteredBytes ≤ maxDecodedBytes
      omega
    stride := (checkedMul_eq_some.mp stride).2
    strideSmall := by
      change outputStride ≤ maxUint32
      omega
    output := (checkedMul_eq_some.mp output).2
    direct := fun other => Option.some.inj ((direct other).symm.trans input) }

/-! ## Scanlines -/

theorem zlibInflateExact_safe {zlib : Zlib} (bounded : zlib.WritesWithin)
    (compressed : ByteVector) (expectedSize : Nat) :
    Safe (fun inflated => inflated.length = expectedSize)
      (zlibInflateExact zlib compressed expectedSize) := by
  unfold zlibInflateExact
  apply (Safe.require _).bind
  intro _ _
  apply (Safe.require _).bind
  intro _ _
  simp only [within_ok (bounded expectedSize compressed), ok_bind]
  apply (Safe.require _).bind
  intro _ exact_
  exact not_not.mp (not_or.mp exact_).2

/-- The sizes the unfiltering loops rely on. -/
structure Scanlines (inflated : ByteVector) (layout : DecodeLayout) (height : Nat) : Prop where
  filteredRow : layout.filteredRowBytes = layout.sourceRowBytes + 1
  whole : inflated.length = layout.filteredRowBytes * height
  small : inflated.length ≤ maxDecodedBytes

theorem cell_lt {y height x width : Nat} (row : y < height) (column : x < width) :
    y * width + x < width * height := by
  calc y * width + x < y * width + width := by omega
    _ = (y + 1) * width := (Nat.succ_mul y width).symm
    _ ≤ height * width := Nat.mul_le_mul_right width row
    _ = width * height := Nat.mul_comm height width

/-- A byte of the image, zero where the image has none. -/
def byteAt (inside : Prop) [Decidable inside] (raw : ByteVector) (place : Nat) : UInt8 :=
  if inside then raw.getD place 0 else 0

theorem neighbour_eq {inside : Prop} [Decidable inside] {position : Checked Error Nat}
    {place : Nat} (within : inside → position = .ok place ∧ place < raw.length) :
    neighbour inside raw position = .ok (byteAt inside raw place) := by
  unfold neighbour byteAt
  by_cases holds : inside
  · rcases within holds with ⟨computed, below⟩
    rw [if_pos holds, if_pos holds, computed, ok_bind,
      itemAt_ok (getElem?_eq_getElem below), getD_eq_getElem?_getD,
      getElem?_eq_getElem below, Option.getD_some]
  · rw [if_neg holds, if_neg holds]

/-- Inside the image the inner loop body writes one byte: the filtered byte plus the prediction
from the three neighbours. -/
theorem unfilterByte_eq (filteredRow : layout.filteredRowBytes = layout.sourceRowBytes + 1)
    (whole : inflated.length = layout.filteredRowBytes * height) (room : inflated.length ≤ maxSize)
    (size : raw.length = layout.sourceRowBytes * height) (row : y < height)
    (column : x < layout.sourceRowBytes) (filter : FilterType) {filtered : UInt8}
    (read : inflated[y * layout.filteredRowBytes + 1 + x]? = some filtered) :
    unfilterByte inflated layout filter y (y * layout.filteredRowBytes)
        (y * layout.sourceRowBytes) x raw =
      .ok (raw.set (y * layout.sourceRowBytes + x) (reconstructByte filtered
        (filterPredictor filter
          (byteAt (layout.filterPixelBytes ≤ x) raw
            (y * layout.sourceRowBytes + x - layout.filterPixelBytes))
          (byteAt (0 < y) raw (y * layout.sourceRowBytes - layout.sourceRowBytes + x))
          (byteAt (0 < y ∧ layout.filterPixelBytes ≤ x) raw
            (y * layout.sourceRowBytes - layout.sourceRowBytes + x -
              layout.filterPixelBytes))))) := by
  have inRow : y * layout.sourceRowBytes + x < raw.length := by
    rw [size]
    exact cell_lt row column
  have inInput := (List.getElem?_eq_some_iff.mp read).1
  have rawSmall : raw.length ≤ inflated.length := by
    rw [size, whole, filteredRow]
    exact Nat.mul_le_mul_right height (Nat.le_succ _)
  have rowAbove (positive : 0 < y) : layout.sourceRowBytes ≤ y * layout.sourceRowBytes :=
    Nat.le_mul_of_pos_left _ positive
  unfold unfilterByte
  rw [neighbour_eq, ok_bind, neighbour_eq, ok_bind, neighbour_eq, ok_bind,
    addSize_ok (by omega), ok_bind, addSize_ok (by omega), ok_bind, itemAt_ok read, ok_bind,
    addSize_ok (by omega), ok_bind, setItem_ok inRow]
  · rintro ⟨positive, inside⟩
    have above := rowAbove positive
    rw [subSize_ok above, ok_bind, addSize_ok (by omega), ok_bind, subSize_ok (by omega)]
    exact ⟨rfl, by omega⟩
  · intro positive
    have above := rowAbove positive
    rw [subSize_ok above, ok_bind, addSize_ok (by omega)]
    exact ⟨rfl, by omega⟩
  · intro inside
    rw [addSize_ok (by omega), ok_bind, subSize_ok (by omega)]
    exact ⟨rfl, by omega⟩

/-- The same with a prediction that is zero for the filter `none`. -/
theorem unfilterByte_ok (scanlines : Scanlines inflated layout height)
    (size : raw.length = layout.sourceRowBytes * height) (row : y < height)
    (column : x < layout.sourceRowBytes) (filter : FilterType) :
    ∃ filtered predictor,
      inflated[y * layout.filteredRowBytes + 1 + x]? = some filtered ∧
      (filter = .none → predictor = 0) ∧
      unfilterByte inflated layout filter y (y * layout.filteredRowBytes)
        (y * layout.sourceRowBytes) x raw =
          .ok (raw.set (y * layout.sourceRowBytes + x) (reconstructByte filtered predictor)) := by
  have inInput : y * layout.filteredRowBytes + (1 + x) < inflated.length := by
    rw [scanlines.whole]
    apply cell_lt row
    rw [scanlines.filteredRow]
    omega
  have filteredAt := getElem?_eq_getElem
    (show y * layout.filteredRowBytes + 1 + x < inflated.length by omega)
  refine ⟨_, _, filteredAt, ?_, unfilterByte_eq scanlines.filteredRow scanlines.whole
    (Nat.le_trans scanlines.small (by decide)) size row column filter filteredAt⟩
  rintro rfl
  rfl

theorem unfilterRow_safe {height y : Nat} (scanlines : Scanlines inflated layout height)
    (size : raw.length = layout.sourceRowBytes * height) (row : y < height) :
    Safe (fun after => after.length = layout.sourceRowBytes * height)
      (unfilterRow inflated layout y raw) := by
  have room : inflated.length ≤ maxSize := Nat.le_trans scanlines.small (by decide)
  have start : y * layout.filteredRowBytes < inflated.length := by
    rw [scanlines.whole]
    apply cell_lt (x := 0) row
    rw [scanlines.filteredRow]
    exact Nat.succ_pos _
  have narrower : y * layout.sourceRowBytes ≤ y * layout.filteredRowBytes := by
    rw [scanlines.filteredRow]
    exact Nat.mul_le_mul_left y (Nat.le_succ _)
  unfold unfilterRow
  rw [mulSize_ok (by omega), ok_bind, mulSize_ok (by omega), ok_bind,
    itemAt_ok (getElem?_eq_getElem start), ok_bind]
  apply (Safe.expect _ _).bind
  intro filter _
  apply Meets.times
    (fun _ (after : ByteVector) => after.length = layout.sourceRowBytes * height) size
  intro x before column sized
  rcases unfilterByte_ok scanlines sized row column filter with ⟨_, _, _, _, written⟩
  apply Meets.of_ok written
  rw [length_set, sized]

theorem unfilterScanlines_safe {inflated : ByteVector} (describes : layout.Describes png) :
    Safe (fun raw => raw.length = layout.sourceRowBytes * png.ihdr.height.toNat)
      (unfilterScanlines inflated layout png.ihdr.height) := by
  unfold unfilterScanlines
  apply (Safe.require _).bind
  intro _ whole
  have scanlines : Scanlines inflated layout png.ihdr.height.toNat := {
    filteredRow := describes.filteredRow
    whole := whole.trans describes.filtered
    small := whole ▸ describes.filteredSmall }
  have rawSmall : layout.sourceRowBytes * png.ihdr.height.toNat ≤ maxSize := by
    apply Nat.le_trans _ (Nat.le_trans describes.filteredSmall (by decide))
    rw [describes.filtered, describes.filteredRow]
    exact Nat.mul_le_mul_right _ (Nat.le_succ _)
  rw [mulSize_ok rawSmall, ok_bind]
  apply Meets.times
    (fun _ (raw : ByteVector) => raw.length = layout.sourceRowBytes * png.ihdr.height.toNat)
  · exact length_replicate
  · intro y before row sized
    exact unfilterRow_safe scanlines sized row

/-! ## Palettes and the image -/

theorem expandIndex_safe (png : ParsedPng) (indexByte : UInt8) :
    Safe (fun _ => True) (expandIndex png indexByte) := by
  unfold expandIndex
  apply (Safe.require _).bind
  intro _ entry
  have byte : indexByte.toNat < 256 := indexByte.toNat_lt
  have entry : indexByte.toNat * paletteEntryBytes + 2 < png.palette.length := by
    unfold paletteEntryBytes at *
    omega
  have offsetSmall : indexByte.toNat * paletteEntryBytes + 2 ≤ maxSize := by
    unfold paletteEntryBytes maxSize
    omega
  rw [mulSize_ok (by omega), ok_bind, itemAt_ok (getElem?_eq_getElem (by omega)), ok_bind,
    addSize_ok (by omega), ok_bind, itemAt_ok (getElem?_eq_getElem (by omega)), ok_bind,
    addSize_ok (by omega), ok_bind, itemAt_ok (getElem?_eq_getElem (by omega)), ok_bind]
  split
  · exact trivial
  unfold alphaAt
  split
  · rename_i inside
    rw [itemAt_ok (getElem?_eq_getElem inside), ok_bind]
    exact trivial
  · exact trivial

theorem expandIndices_safe (png : ParsedPng) (raw expanded : ByteVector) :
    Safe (fun _ => True) (raw.foldlM (appendIndex png) expanded) := by
  induction raw generalizing expanded with
  | nil => exact trivial
  | cons indexByte rest expands =>
    have appended : Safe (fun _ => True) (appendIndex png expanded indexByte) := by
      apply (expandIndex_safe png indexByte).bind
      intro pixel _
      exact trivial
    rw [foldlM_cons]
    apply appended.bind
    intro next _
    exact expands next

theorem expandPalette_safe (png : ParsedPng) (layout : DecodeLayout) (raw : ByteVector) :
    Safe (fun expanded => expanded.length = layout.outputBytes) (expandPalette png layout raw) := by
  unfold expandPalette
  apply (expandIndices_safe png raw []).bind
  intro expanded _
  apply (Safe.require _).bind
  intro _ sized
  exact sized

theorem pixelsFromRaw_safe (describes : layout.Describes png)
    (size : raw.length = layout.sourceRowBytes * png.ihdr.height.toNat) :
    Safe (fun pixels => pixels.length = layout.outputBytes) (pixelsFromRaw png layout raw) := by
  unfold pixelsFromRaw
  split
  · exact expandPalette_safe png layout raw
  rename_i direct
  change raw.length = layout.outputBytes
  rw [size, describes.output, describes.row, describes.stride, describes.direct direct,
    Nat.mul_comm]

/-- What `decode_png` promises of an image. -/
structure Image.WellFormed (image : Image) : Prop where
  width : 0 < image.width
  height : 0 < image.height
  stride : image.stride.toNat = image.width.toNat * bytesPerPixel image.format
  size : image.pixels.length = image.height.toNat * image.stride.toNat

theorem imageFromRaw_safe (nonEmpty : png.NonEmpty) (describes : layout.Describes png)
    (size : raw.length = layout.sourceRowBytes * png.ihdr.height.toNat) :
    Safe Image.WellFormed (imageFromRaw png layout raw) := by
  have stride : (UInt32.ofNat layout.outputStride).toNat = layout.outputStride := by
    apply UInt32.toNat_ofNat_of_lt
    have := describes.strideSmall
    unfold maxUint32 at this
    simp only [UInt32.size]
    omega
  unfold imageFromRaw
  apply (pixelsFromRaw_safe describes size).bind
  intro pixels sized
  exact {
    width := UInt32.pos_iff_ne_zero.mpr nonEmpty.1
    height := UInt32.pos_iff_ne_zero.mpr nonEmpty.2
    stride := stride.trans describes.stride
    size := by
      rw [sized, describes.output]
      exact congrArg _ stride.symm }

/-- On every input `decode_png` ends without a fault, with an error or a well-formed image. -/
theorem decodePng_safe {zlib : Zlib} (bounded : zlib.WritesWithin) (input : ByteSpan) :
    (∃ error, decodePng zlib input.1 = .error (.reported error)) ∨
      ∃ image, decodePng zlib input.1 = .ok image ∧ image.WellFormed := by
  apply Safe.outcome
  unfold decodePng
  apply (parsePng_safe zlib input).bind
  intro png nonEmpty
  apply (decodeLayoutFor_safe png).bind
  intro layout describes
  apply (zlibInflateExact_safe bounded png.idat layout.filteredBytes).bind
  intro inflated _
  apply (unfilterScanlines_safe describes).bind
  intro raw size
  exact imageFromRaw_safe nonEmpty describes size

/-! ## One pixel -/

def crcBit (crc : UInt32) : UInt32 :=
  if crc &&& 1 = 1 then (crc >>> 1) ^^^ 0xEDB88320 else crc >>> 1

def crcByte (crc : UInt32) (byte : UInt8) : UInt32 :=
  (List.range 8).foldl (fun crc _ => crcBit crc) (crc ^^^ byte.toUInt32)

/-- The reflected CRC-32 of zlib. -/
def crc32 (crc : Nat) (bytes : List UInt8) : Nat :=
  (bytes.foldl crcByte (UInt32.ofNat crc ^^^ 0xFFFFFFFF) ^^^ 0xFFFFFFFF).toNat

/-- The scanline of one red-green-blue pixel, and what zlib makes of it at level nine. -/
def pixelScanline : ByteVector := [0x00, 0x03, 0x02, 0x01]

def pixelStream : ByteVector :=
  [0x78, 0xDA, 0x63, 0x60, 0x66, 0x62, 0x04, 0x00, 0x00, 0x12, 0x00, 0x07]

/-- zlib as it behaves on one pixel; any other stream is refused. -/
def pixelZlib : Zlib where
  compressBound size := size + size / 4096 + size / 16384 + size / 33554432 + 13
  compress2 capacity source :=
    if source = pixelScanline ∧ pixelStream.length ≤ capacity then ⟨true, pixelStream⟩
    else ⟨false, []⟩
  uncompress capacity source :=
    if source = pixelStream ∧ pixelScanline.length ≤ capacity then ⟨true, pixelScanline⟩
    else ⟨false, []⟩
  crc32 := crc32

theorem pixelZlib_writesWithin : pixelZlib.WritesWithin := by
  intro capacity source
  simp only [pixelZlib]
  split
  · rename_i fits
    exact fits.2
  · exact Nat.zero_le capacity

def pixelPng : ByteVector :=
  [0x89, 0x50, 0x4E, 0x47, 0x0D, 0x0A, 0x1A, 0x0A, 0x00, 0x00, 0x00, 0x0D, 0x49, 0x48,
   0x44, 0x52, 0x00, 0x00, 0x00, 0x01, 0x00, 0x00, 0x00, 0x01, 0x08, 0x02, 0x00, 0x00,
   0x00, 0x90, 0x77, 0x53, 0xDE, 0x00, 0x00, 0x00, 0x0C, 0x49, 0x44, 0x41, 0x54, 0x78,
   0xDA, 0x63, 0x60, 0x66, 0x62, 0x04, 0x00, 0x00, 0x12, 0x00, 0x07, 0xF3, 0x43, 0xCB,
   0xB6, 0x00, 0x00, 0x00, 0x00, 0x49, 0x45, 0x4E, 0x44, 0xAE, 0x42, 0x60, 0x82]

theorem decodePng_safe_pixel :
    pixelZlib.WritesWithin ∧
      ∃ image, decodePng pixelZlib pixelPng = .ok image ∧ image.WellFormed := by
  have returned : (decodePng pixelZlib pixelPng).toOption.isSome = true := by decide +kernel
  rcases decodePng_safe pixelZlib_writesWithin ⟨pixelPng, by decide⟩ with ⟨error, stopped⟩ | decoded
  · rw [stopped] at returned
    cases returned
  · exact ⟨pixelZlib_writesWithin, decoded⟩

end Grab.Codec
