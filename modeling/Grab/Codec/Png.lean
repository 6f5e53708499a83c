import Grab.Lib.Checked
import Grab.Sequence.Types

/-!
# The PNG codec

`codec/png.cpp` and the image of `grab/image.hpp`.  A byte vector is a list of bytes, a size
is a natural number, and every size computed without a check goes through `addSize`,
`subSize` and `mulSize`, which are at fault where `std::size_t` would wrap.  Reads with `at`
and `subspan` are at fault outside their buffer.

The functions of zlib are parameters.
-/

namespace Grab.Codec

open Grab.Lib Grab.Lib.Checked

/-! ## Images -/

inductive PixelFormat where
  | bgra | rgba | rgb | bgr | gray
  deriving DecidableEq, Repr

def bytesPerPixel : PixelFormat → Nat
  | .bgra | .rgba => 4
  | .rgb | .bgr => 3
  | .gray => 1

structure Image where
  width : UInt32 := 0
  height : UInt32 := 0
  stride : UInt32 := 0
  format : PixelFormat := .rgba
  pixels : List UInt8 := []
  deriving DecidableEq, Repr

namespace Image

def empty (image : Image) : Bool := image.width == 0 || image.height == 0

/-- The bytes of one row, padding included; nothing where the row leaves the buffer. -/
def row (image : Image) (y : UInt32) : List UInt8 :=
  if image.height ≤ y then []
  else
    let strideSize := image.stride.toNat
    let rowIndex := y.toNat
    if strideSize ≠ 0 ∧ maxSize / strideSize < rowIndex then []
    else
      let offset := rowIndex * strideSize
      if image.pixels.length < offset ∨ image.pixels.length - offset < strideSize then []
      else (image.pixels.drop offset).take strideSize

end Image

/-! ## zlib -/

/-- What a zlib call leaves behind: whether its status is `Z_OK`, and the bytes it wrote to the
destination. -/
structure Written where
  ok : Bool
  bytes : List UInt8
  deriving DecidableEq, Repr

structure Zlib where
  compressBound : Nat → Nat
  /-- Capacity of the destination, then the source. -/
  compress2 : Nat → List UInt8 → Written
  /-- Capacity of the destination, then the source. -/
  uncompress : Nat → List UInt8 → Written
  crc32 : Nat → List UInt8 → Nat

/-- The destination of `uncompress` is never overrun. -/
def Zlib.WritesWithin (zlib : Zlib) : Prop :=
  ∀ capacity source, (zlib.uncompress capacity source).bytes.length ≤ capacity

/-- What `compress2` wrote, `uncompress` turns back into the source, given room for it. -/
def Zlib.Inverts (zlib : Zlib) : Prop :=
  ∀ capacity source, (zlib.compress2 capacity source).ok = true →
    ∀ room, source.length ≤ room →
      zlib.uncompress room (zlib.compress2 capacity source).bytes = ⟨true, source⟩

/-- An empty stream has no zlib header and does not uncompress. -/
def Zlib.NeedsHeader (zlib : Zlib) : Prop := ∀ capacity, (zlib.uncompress capacity []).ok = false

/-! ## Constants -/

abbrev ByteVector := List UInt8

abbrev ChunkType := List UInt8

def pngSignature : ByteVector := [0x89, 0x50, 0x4E, 0x47, 0x0D, 0x0A, 0x1A, 0x0A]

def chunkIhdr : ChunkType := [0x49, 0x48, 0x44, 0x52]
def chunkPlte : ChunkType := [0x50, 0x4C, 0x54, 0x45]
def chunkIdat : ChunkType := [0x49, 0x44, 0x41, 0x54]
def chunkIend : ChunkType := [0x49, 0x45, 0x4E, 0x44]
def chunkTrns : ChunkType := [0x74, 0x52, 0x4E, 0x53]

def pngUint32Bytes : Nat := 4
def pngChunkLengthBytes : Nat := 4
def pngChunkTypeBytes : Nat := 4
def pngChunkCrcBytes : Nat := 4
def pngChunkOverheadBytes : Nat := pngChunkLengthBytes + pngChunkTypeBytes + pngChunkCrcBytes
def pngIhdrBytes : Nat := 13
def pngBitDepth8 : UInt8 := 8
def pngMethodNone : UInt8 := 0
def grayBytes : Nat := 1
def rgbBytes : Nat := 3
def rgbaBytes : Nat := 4
def paletteEntryBytes : Nat := 3
def maxPaletteEntries : Nat := 256
def opaqueAlpha : UInt8 := 0xFF
def byteModulo : Nat := 256
def maxChunkBytes : Nat := 64 * 1024 * 1024
def maxCompressedBytes : Nat := 64 * 1024 * 1024
def maxDecodedBytes : Nat := 256 * 1024 * 1024
def initialCrc : Nat := 0
def maxUint32 : Nat := 4294967295

/-! ## Errors -/

def pngProtocolError (message : String) : Error :=
  { code := .protocolError, message := "malformed PNG: " ++ message }

def invalidImageError (message : String) : Error :=
  { code := .invalidArgument, message := "invalid image: " ++ message }

def codecFailure (message : String) : Error :=
  { code := .internalFault, message := "PNG codec failure: " ++ message }

/-! ## Header, state and layouts -/

inductive PngColorType where
  | grayscale | truecolor | palette | grayscaleAlpha | truecolorAlpha
  deriving DecidableEq, Repr

def PngColorType.toByte : PngColorType → UInt8
  | .grayscale => 0
  | .truecolor => 2
  | .palette => 3
  | .grayscaleAlpha => 4
  | .truecolorAlpha => 6

inductive FilterType where
  | none | sub | up | average | paeth
  deriving DecidableEq, Repr

def FilterType.toByte : FilterType → UInt8
  | .none => 0
  | .sub => 1
  | .up => 2
  | .average => 3
  | .paeth => 4

structure Ihdr where
  width : UInt32 := 0
  height : UInt32 := 0
  bitDepth : UInt8 := 0
  colorType : PngColorType := .truecolorAlpha
  compression : UInt8 := 0
  filter : UInt8 := 0
  interlace : UInt8 := 0
  deriving DecidableEq, Repr

structure ParsedPng where
  ihdr : Ihdr := {}
  idat : ByteVector := []
  palette : ByteVector := []
  transparency : ByteVector := []
  deriving DecidableEq, Repr

structure ParseState where
  png : ParsedPng := {}
  seenIhdr : Bool := false
  seenIdat : Bool := false
  deriving DecidableEq, Repr

structure EncodeLayout where
  sourceRowBytes : Nat
  pngRowBytes : Nat
  filteredBytes : Nat
  sourcePixelBytes : Nat
  colorType : PngColorType
  deriving DecidableEq, Repr

structure DecodeLayout where
  sourceRowBytes : Nat
  filteredRowBytes : Nat
  filteredBytes : Nat
  filterPixelBytes : Nat
  outputStride : Nat
  outputBytes : Nat
  outputFormat : PixelFormat
  deriving DecidableEq, Repr

/-! ## Sizes and fields -/

def checkedMul (left right : Nat) : Option Nat :=
  if right ≠ 0 ∧ maxSize / right < left then none else some (left * right)

def checkedAdd (left right : Nat) : Option Nat :=
  if maxSize - right < left then none else some (left + right)

def hasBytes (bytes : ByteVector) (offset count : Nat) : Bool :=
  offset ≤ bytes.length && count ≤ bytes.length - offset

theorem checkedMul_eq_some {left right product : Nat} :
    checkedMul left right = some product ↔ left * right ≤ maxSize ∧ product = left * right := by
  unfold checkedMul
  rcases Nat.eq_zero_or_pos right with zero | positive
  · subst zero
    rw [if_neg (fun overflows => overflows.1 rfl)]
    simp [eq_comm]
  have overflows : maxSize / right < left ↔ maxSize < left * right := Nat.div_lt_iff_lt_mul positive
  by_cases fits : left * right ≤ maxSize
  · rw [if_neg (by omega), Option.some.injEq]
    exact ⟨fun same => ⟨fits, same.symm⟩, fun same => same.2.symm⟩
  · rw [if_pos ⟨by omega, by omega⟩]
    simp [fits]

theorem checkedAdd_eq_some {left right sum : Nat} (small : right ≤ maxSize) :
    checkedAdd left right = some sum ↔ left + right ≤ maxSize ∧ sum = left + right := by
  unfold checkedAdd
  by_cases fits : left + right ≤ maxSize
  · rw [if_neg (by omega), Option.some.injEq]
    exact ⟨fun same => ⟨fits, same.symm⟩, fun same => same.2.symm⟩
  · rw [if_pos (by omega)]
    simp [fits]

variable {bytes : ByteVector} {offset : Nat}

theorem hasBytes_iff {offset count : Nat} :
    hasBytes bytes offset count = true ↔ offset + count ≤ bytes.length := by
  simp only [hasBytes, Bool.and_eq_true, decide_eq_true_eq]
  omega

/-- The number whose bytes, most significant first, are those of `field`. -/
def bigEndian (field : List UInt8) : UInt32 :=
  field.foldl (fun value byte => (value <<< 8) ||| byte.toUInt32) 0

def readBe32 (bytes : ByteVector) (offset : Nat) : Checked Error (Option UInt32) :=
  if hasBytes bytes offset pngUint32Bytes then do
    let field ← subspan bytes offset pngUint32Bytes
    return some (bigEndian field)
  else
    return none

def readByte (bytes : ByteVector) (offset : Nat) : Checked Error (Option UInt8) :=
  if hasBytes bytes offset 1 then do
    let field ← subspan bytes offset 1
    return some (← itemAt field 0)
  else
    return none

theorem readBe32_inside (inside : offset + pngUint32Bytes ≤ bytes.length) :
    readBe32 bytes offset = .ok (some (bigEndian ((bytes.drop offset).take pngUint32Bytes))) := by
  unfold readBe32
  rw [if_pos (hasBytes_iff.mpr inside), subspan_ok inside]
  rfl

theorem readByte_inside {byte : UInt8} (found : bytes[offset]? = some byte) :
    readByte bytes offset = .ok (some byte) := by
  have inside : offset + 1 ≤ bytes.length := (List.getElem?_eq_some_iff.mp found).1
  have front : ((bytes.drop offset).take 1)[0]? = some byte := by
    rw [List.getElem?_take_of_lt Nat.zero_lt_one, List.getElem?_drop]
    exact found
  unfold readByte
  rw [if_pos (hasBytes_iff.mpr inside), subspan_ok inside]
  simp only [ok_bind, itemAt_ok front]
  rfl

def appendBe32 (output : ByteVector) (value : UInt32) : ByteVector :=
  output ++ [((value >>> 24) &&& 0xFF).toUInt8, ((value >>> 16) &&& 0xFF).toUInt8,
    ((value >>> 8) &&& 0xFF).toUInt8, (value &&& 0xFF).toUInt8]

def parseColorType (value : UInt8) : Option PngColorType :=
  if value = 0 then some .grayscale
  else if value = 2 then some .truecolor
  else if value = 3 then some .palette
  else if value = 4 then some .grayscaleAlpha
  else if value = 6 then some .truecolorAlpha
  else none

def parseFilterType (value : UInt8) : Option FilterType :=
  if value = FilterType.none.toByte then some .none
  else if value = FilterType.sub.toByte then some .sub
  else if value = FilterType.up.toByte then some .up
  else if value = FilterType.average.toByte then some .average
  else if value = FilterType.paeth.toByte then some .paeth
  else none

def isAsciiLetter (value : UInt8) : Bool :=
  (0x41 ≤ value && value ≤ 0x5A) || (0x61 ≤ value && value ≤ 0x7A)

def isChunkTypeValid (type : ChunkType) : Bool := type.all isAsciiLetter

def isCriticalChunk (type : ChunkType) : Checked Error Bool := do
  let front ← itemAt type 0
  return 0x41 ≤ front && front ≤ 0x5A

def readChunkType (bytes : ByteVector) (offset : Nat) : Checked Error (Option ChunkType) :=
  if hasBytes bytes offset pngChunkTypeBytes then do
    return some (← subspan bytes offset pngChunkTypeBytes)
  else
    return none

theorem readChunkType_inside (inside : offset + pngChunkTypeBytes ≤ bytes.length) :
    readChunkType bytes offset = .ok (some ((bytes.drop offset).take pngChunkTypeBytes)) := by
  unfold readChunkType
  rw [if_pos (hasBytes_iff.mpr inside), subspan_ok inside]
  rfl

/-! ## Encoding -/

section

variable (zlib : Zlib)

def chunkCrc (type : ChunkType) (data : ByteVector) : UInt32 :=
  let crc := zlib.crc32 initialCrc type
  if data.isEmpty then UInt32.ofNat crc else UInt32.ofNat (zlib.crc32 crc data)

def appendChunk (output : ByteVector) (type : ChunkType) (data : ByteVector) :
    Checked Error ByteVector := do
  require (¬(maxUint32 < data.length ∨ maxChunkBytes < data.length))
    (codecFailure "chunk is too large")
  let output := appendBe32 output (UInt32.ofNat data.length)
  let output := output ++ type
  let output := output ++ data
  return appendBe32 output (chunkCrc zlib type data)

/-- The colour type of the header and the bytes of one row without its filter byte. -/
def encodedRow (format : PixelFormat) (width : Nat) : Checked Error (PngColorType × Nat) :=
  match format with
  | .gray => do return (.grayscale, ← mulSize width grayBytes)
  | .rgb | .bgr => do return (.truecolor, ← mulSize width rgbBytes)
  | .rgba | .bgra => do return (.truecolorAlpha, ← mulSize width rgbaBytes)

def validateEncodeImage (image : Image) : Checked Error EncodeLayout := do
  require (image.empty = false) (invalidImageError "width and height must be non-zero")
  let sourcePixelBytes := bytesPerPixel image.format
  let width := image.width.toNat
  let height := image.height.toNat
  let sourceRowBytes ← expect (checkedMul width sourcePixelBytes)
    (invalidImageError "source row size overflows")
  require (sourceRowBytes ≤ image.stride.toNat)
    (invalidImageError "stride is smaller than the pixel row")
  let requiredPixels ← expect (checkedMul height image.stride.toNat)
    (invalidImageError "pixel buffer size overflows")
  require (requiredPixels ≤ image.pixels.length)
    (invalidImageError "pixel buffer is shorter than height*stride")
  let (colorType, pngRowBytes) ← encodedRow image.format width
  let filteredRowBytes ← expect (checkedAdd pngRowBytes 1)
    (invalidImageError "filtered scanline size overflows")
  let filteredBytes ← expect (checkedMul filteredRowBytes height)
    (invalidImageError "filtered scanline size overflows")
  require (filteredBytes ≤ maxDecodedBytes) (invalidImageError "image is too large to encode")
  return { sourceRowBytes, pngRowBytes, filteredBytes, sourcePixelBytes, colorType }

def sourceByteAt (row : List UInt8) (offset : Nat) : Checked Error UInt8 := do
  itemAt (← subspan row offset 1) 0

def appendDirectRow (scanlines row : ByteVector) (rowBytes : Nat) : Checked Error ByteVector := do
  return scanlines ++ (← subspan row 0 rowBytes)

/-- The loop both reordering rows share: one pixel at a time, while the offset is inside the
row. -/
def appendPixels (pixel : Nat → Checked Error (List UInt8)) (layout : EncodeLayout)
    (scanlines : ByteVector) : Checked Error ByteVector :=
  loop (fun (offset, scanlines) =>
    if offset < layout.sourceRowBytes then do
      let scanlines := scanlines ++ (← pixel offset)
      let next ← addSize offset layout.sourcePixelBytes
      return .inl (next, scanlines)
    else
      return .inr scanlines) (layout.sourceRowBytes + 1) (0, scanlines)

def appendBgrRow (scanlines row : ByteVector) (layout : EncodeLayout) : Checked Error ByteVector :=
  appendPixels (fun offset => do
    let red ← sourceByteAt row (← addSize offset 2)
    let green ← sourceByteAt row (← addSize offset 1)
    let blue ← sourceByteAt row offset
    return [red, green, blue]) layout scanlines

def appendBgraRow (scanlines row : ByteVector) (layout : EncodeLayout) : Checked Error ByteVector :=
  appendPixels (fun offset => do
    let red ← sourceByteAt row (← addSize offset 2)
    let green ← sourceByteAt row (← addSize offset 1)
    let blue ← sourceByteAt row offset
    let alpha ← sourceByteAt row (← addSize offset 3)
    return [red, green, blue, alpha]) layout scanlines

def makeFilteredScanlines (image : Image) (layout : EncodeLayout) : Checked Error ByteVector :=
  times (fun y scanlines => do
    let row := image.row (UInt32.ofNat y)
    require (row ≠ []) (invalidImageError "row is outside the pixel buffer")
    let scanlines := scanlines ++ [FilterType.none.toByte]
    match image.format with
    | .gray | .rgb | .rgba => appendDirectRow scanlines row layout.pngRowBytes
    | .bgr => appendBgrRow scanlines row layout
    | .bgra => appendBgraRow scanlines row layout) [] image.height.toNat

def zlibCompress (bytes : ByteVector) : Checked Error ByteVector := do
  require (bytes.length ≤ maxSize) (codecFailure "source buffer is too large for zlib")
  let bound := zlib.compressBound bytes.length
  require (bound ≤ maxSize) (codecFailure "compressed buffer bound overflows")
  let compressed := zlib.compress2 bound bytes
  within compressed.bytes.length bound
  require (compressed.ok = true) (codecFailure "zlib compression failed")
  return compressed.bytes

def encodePng (image : Image) : Checked Error ByteVector := do
  let layout ← validateEncodeImage image
  let scanlines ← makeFilteredScanlines image layout
  let compressed ← zlibCompress zlib scanlines
  let ihdr := appendBe32 (appendBe32 [] image.width) image.height ++
    [pngBitDepth8, layout.colorType.toByte, pngMethodNone, pngMethodNone, pngMethodNone]
  let png ← appendChunk zlib pngSignature chunkIhdr ihdr
  let png ← appendChunk zlib png chunkIdat compressed
  appendChunk zlib png chunkIend []

end

/-! ## Parsing -/

def parseIhdr (data : ByteVector) : Checked Error Ihdr := do
  require (data.length = pngIhdrBytes) (pngProtocolError "IHDR has an invalid size")
  let width ← readBe32 data 0
  let height ← readBe32 data 4
  let bitDepth ← readByte data 8
  let colorByte ← readByte data 9
  let compression ← readByte data 10
  let filter ← readByte data 11
  let interlace ← readByte data 12
  let truncated := pngProtocolError "IHDR is truncated"
  let width ← expect width truncated
  let height ← expect height truncated
  let bitDepth ← expect bitDepth truncated
  let colorByte ← expect colorByte truncated
  let compression ← expect compression truncated
  let filter ← expect filter truncated
  let interlace ← expect interlace truncated
  let colorType ← expect (parseColorType colorByte)
    (pngProtocolError "IHDR color type is unsupported")
  require (¬(width = 0 ∨ height = 0)) (pngProtocolError "IHDR dimensions must be non-zero")
  require (bitDepth = pngBitDepth8) (pngProtocolError "only 8-bit PNG images are supported")
  require (colorType ≠ .grayscaleAlpha)
    (pngProtocolError "grayscale alpha PNG images are unsupported")
  require (¬(compression ≠ pngMethodNone ∨ filter ≠ pngMethodNone ∨ interlace ≠ pngMethodNone))
    (pngProtocolError "unsupported compression, filter, or interlace method")
  return { width, height, bitDepth, colorType, compression, filter, interlace }

def parsePlte (state : ParseState) (data : ByteVector) : Checked Error ParseState := do
  require (¬(state.seenIhdr = false ∨ state.seenIdat = true))
    (pngProtocolError "PLTE appears in an invalid position")
  require (¬(data = [] ∨ data.length % paletteEntryBytes ≠ 0 ∨
      maxPaletteEntries < data.length / paletteEntryBytes))
    (pngProtocolError "PLTE has an invalid size")
  return { state with png := { state.png with palette := data } }

def parseTrns (state : ParseState) (data : ByteVector) : Checked Error ParseState := do
  require (¬(state.seenIhdr = false ∨ state.seenIdat = true))
    (pngProtocolError "tRNS appears in an invalid position")
  require (state.png.ihdr.colorType = .palette)
    (pngProtocolError "tRNS is only supported for palette PNGs")
  require (state.png.palette ≠ []) (pngProtocolError "palette tRNS appears before PLTE")
  let paletteEntries := state.png.palette.length / paletteEntryBytes
  require (data.length ≤ paletteEntries) (pngProtocolError "palette tRNS is larger than PLTE")
  return { state with png := { state.png with transparency := data } }

def appendIdat (state : ParseState) (data : ByteVector) : Checked Error ParseState := do
  require (state.seenIhdr = true) (pngProtocolError "IDAT appears before IHDR")
  require (¬(maxCompressedBytes < data.length ∨
      maxCompressedBytes - data.length < state.png.idat.length))
    (pngProtocolError "IDAT data is too large")
  return { state with
    png := { state.png with idat := state.png.idat ++ data }
    seenIdat := true }

/-- The state after one chunk, and whether it was the last. -/
def processChunk (state : ParseState) (type : ChunkType) (data : ByteVector) :
    Checked Error (ParseState × Bool) := do
  require (isChunkTypeValid type = true) (pngProtocolError "chunk type contains non-letter bytes")
  if type = chunkIhdr then
    require (¬(state.seenIhdr = true ∨ state.seenIdat = true))
      (pngProtocolError "IHDR appears in an invalid position")
    let ihdr ← parseIhdr data
    return ({ state with png := { state.png with ihdr := ihdr }, seenIhdr := true }, false)
  else
    require (state.seenIhdr = true) (pngProtocolError "IHDR must be the first chunk")
    if type = chunkPlte then
      return (← parsePlte state data, false)
    else if type = chunkTrns then
      return (← parseTrns state data, false)
    else if type = chunkIdat then
      return (← appendIdat state data, false)
    else if type = chunkIend then
      require (data = []) (pngProtocolError "IEND is not empty")
      return (state, true)
    else
      require ((← isCriticalChunk type) = false) (pngProtocolError "unknown critical chunk")
      return (state, false)

section

variable (zlib : Zlib)

/-- One round of the chunk loop, from the offset of a chunk that starts inside the input. -/
def parseChunk (bytes : ByteVector) (state : ParseState) (offset : Nat) :
    Checked Error ((Nat × ParseState) ⊕ ParsedPng) := do
  require (hasBytes bytes offset pngChunkOverheadBytes = true)
    (pngProtocolError "truncated chunk header")
  let length ← expect (← readBe32 bytes offset) (pngProtocolError "truncated chunk length")
  let dataSize := length.toNat
  require (dataSize ≤ maxChunkBytes) (pngProtocolError "chunk is too large")
  let chunkBytes ← expect (checkedAdd pngChunkOverheadBytes dataSize)
    (pngProtocolError "truncated chunk data")
  require (hasBytes bytes offset chunkBytes = true) (pngProtocolError "truncated chunk data")
  let typeOffset ← addSize offset pngChunkLengthBytes
  let type ← expect (← readChunkType bytes typeOffset) (pngProtocolError "truncated chunk type")
  let dataOffset ← addSize typeOffset pngChunkTypeBytes
  let crcOffset ← addSize dataOffset dataSize
  let expectedCrc ← expect (← readBe32 bytes crcOffset) (pngProtocolError "truncated chunk CRC")
  let data ← subspan bytes dataOffset dataSize
  require (chunkCrc zlib type data = expectedCrc) (pngProtocolError "chunk CRC mismatch")
  let (state, done) ← processChunk state type data
  let offset ← addSize offset chunkBytes
  if done = true then
    require (offset = bytes.length) (pngProtocolError "trailing data after IEND")
    require (state.seenIdat = true) (pngProtocolError "missing IDAT data")
    require (¬(state.png.ihdr.colorType = .palette ∧ state.png.palette = []))
      (pngProtocolError "palette PNG is missing PLTE")
    return .inr state.png
  else
    return .inl (offset, state)

/-- The chunk loop at an offset, with its condition. -/
def parseRound (bytes : ByteVector) (round : Nat × ParseState) :
    Checked Error ((Nat × ParseState) ⊕ ParsedPng) :=
  if round.1 < bytes.length then parseChunk zlib bytes round.2 round.1
  else report (pngProtocolError "missing IEND chunk")

def parsePng (bytes : ByteVector) : Checked Error ParsedPng := do
  require (pngSignature.length ≤ bytes.length) (pngProtocolError "signature mismatch")
  require ((← subspan bytes 0 pngSignature.length) = pngSignature)
    (pngProtocolError "signature mismatch")
  loop (parseRound zlib bytes) (bytes.length + 1) (pngSignature.length, {})

end

/-! ## Decoding -/

def sourceChannels : PngColorType → Option Nat
  | .grayscale | .palette => some grayBytes
  | .truecolor => some rgbBytes
  | .truecolorAlpha => some rgbaBytes
  | .grayscaleAlpha => none

/-- The format of the decoded image and its channels. -/
def decodedFormat (png : ParsedPng) : Option (PixelFormat × Nat) :=
  match png.ihdr.colorType with
  | .grayscale => some (.gray, grayBytes)
  | .truecolor => some (.rgb, rgbBytes)
  | .truecolorAlpha => some (.rgba, rgbaBytes)
  | .palette => some (if png.transparency = [] then (.rgb, rgbBytes) else (.rgba, rgbaBytes))
  | .grayscaleAlpha => none

def decodeLayoutFor (png : ParsedPng) : Checked Error DecodeLayout := do
  let inputChannels ← expect (sourceChannels png.ihdr.colorType)
    (pngProtocolError "unsupported color type")
  let width := png.ihdr.width.toNat
  let height := png.ihdr.height.toNat
  let sourceOverflows := pngProtocolError "decoded source size overflows"
  let sourceRowBytes ← expect (checkedMul width inputChannels) sourceOverflows
  let filteredRowBytes ← expect (checkedAdd sourceRowBytes 1) sourceOverflows
  let filteredBytes ← expect (checkedMul filteredRowBytes height) sourceOverflows
  let (outputFormat, outputChannels) ← expect (decodedFormat png)
    (pngProtocolError "unsupported color type")
  let outputOverflows := pngProtocolError "decoded output size overflows"
  let outputStride ← expect (checkedMul width outputChannels) outputOverflows
  let outputBytes ← expect (checkedMul height outputStride) outputOverflows
  require (¬(maxUint32 < outputStride ∨ maxDecodedBytes < filteredBytes ∨
      maxDecodedBytes < outputBytes))
    (pngProtocolError "decoded image is too large")
  return {
    sourceRowBytes, filteredRowBytes, filteredBytes, filterPixelBytes := inputChannels
    outputStride, outputBytes, outputFormat }

def zlibInflateExact (zlib : Zlib) (compressed : ByteVector) (expectedSize : Nat) :
    Checked Error ByteVector := do
  require (compressed ≠ []) (pngProtocolError "missing IDAT data")
  require (¬(maxSize < compressed.length ∨ maxSize < expectedSize))
    (pngProtocolError "zlib buffer size is unsupported")
  let inflated := zlib.uncompress expectedSize compressed
  within inflated.bytes.length expectedSize
  require (¬(inflated.ok = false ∨ inflated.bytes.length ≠ expectedSize))
    (pngProtocolError "IDAT zlib stream is invalid")
  return inflated.bytes

def paethPredictor (left up upLeft : UInt8) : UInt8 :=
  let leftValue : Int := left.toNat
  let upValue : Int := up.toNat
  let upLeftValue : Int := upLeft.toNat
  let estimate := leftValue + upValue - upLeftValue
  let leftDistance := (estimate - leftValue).natAbs
  let upDistance := (estimate - upValue).natAbs
  let diagDistance := (estimate - upLeftValue).natAbs
  if leftDistance ≤ upDistance ∧ leftDistance ≤ diagDistance then left
  else if upDistance ≤ diagDistance then up
  else upLeft

def filterPredictor (filter : FilterType) (left up upLeft : UInt8) : UInt8 :=
  match filter with
  | .none => 0
  | .sub => left
  | .up => up
  | .average => UInt8.ofNat ((left.toNat + up.toNat) / 2)
  | .paeth => paethPredictor left up upLeft

def reconstructByte (filtered predictor : UInt8) : UInt8 :=
  UInt8.ofNat ((filtered.toNat + predictor.toNat) % byteModulo)

/-- A byte reconstructed before, zero where the image has none. -/
def neighbour (inside : Prop) [Decidable inside] (raw : ByteVector)
    (position : Checked Error Nat) : Checked Error UInt8 :=
  if inside then do itemAt raw (← position) else .ok 0

/-- The body of the inner loop of `unfilter_scanlines`. -/
def unfilterByte (inflated : ByteVector) (layout : DecodeLayout) (filter : FilterType)
    (y inputRow outputRow x : Nat) (raw : ByteVector) : Checked Error ByteVector := do
  let left ← neighbour (layout.filterPixelBytes ≤ x) raw (do
    subSize (← addSize outputRow x) layout.filterPixelBytes)
  let up ← neighbour (0 < y) raw (do
    addSize (← subSize outputRow layout.sourceRowBytes) x)
  let upLeft ← neighbour (0 < y ∧ layout.filterPixelBytes ≤ x) raw (do
    subSize (← addSize (← subSize outputRow layout.sourceRowBytes) x) layout.filterPixelBytes)
  let predictor := filterPredictor filter left up upLeft
  let filtered ← itemAt inflated (← addSize (← addSize inputRow 1) x)
  setItem raw (← addSize outputRow x) (reconstructByte filtered predictor)

def unfilterRow (inflated : ByteVector) (layout : DecodeLayout) (y : Nat) (raw : ByteVector) :
    Checked Error ByteVector := do
  let inputRow ← mulSize y layout.filteredRowBytes
  let outputRow ← mulSize y layout.sourceRowBytes
  let filter ← expect (parseFilterType (← itemAt inflated inputRow))
    (pngProtocolError "unknown scanline filter")
  times (unfilterByte inflated layout filter y inputRow outputRow) raw layout.sourceRowBytes

def unfilterScanlines (inflated : ByteVector) (layout : DecodeLayout) (height : UInt32) :
    Checked Error ByteVector := do
  require (inflated.length = layout.filteredBytes)
    (pngProtocolError "inflated data has the wrong size")
  let rawBytes ← mulSize layout.sourceRowBytes height.toNat
  times (unfilterRow inflated layout) (List.replicate rawBytes 0) height.toNat

def alphaAt (png : ParsedPng) (index : Nat) : Checked Error UInt8 :=
  if index < png.transparency.length then itemAt png.transparency index else .ok opaqueAlpha

/-- The pixel of one palette index. -/
def expandIndex (png : ParsedPng) (indexByte : UInt8) : Checked Error ByteVector := do
  let paletteEntries := png.palette.length / paletteEntryBytes
  let index := indexByte.toNat
  require (index < paletteEntries) (pngProtocolError "palette index is outside PLTE")
  let paletteOffset ← mulSize index paletteEntryBytes
  let red ← itemAt png.palette paletteOffset
  let green ← itemAt png.palette (← addSize paletteOffset 1)
  let blue ← itemAt png.palette (← addSize paletteOffset 2)
  if png.transparency = [] then
    return [red, green, blue]
  else
    return [red, green, blue, ← alphaAt png index]

def appendIndex (png : ParsedPng) (expanded : ByteVector) (indexByte : UInt8) :
    Checked Error ByteVector := do
  return expanded ++ (← expandIndex png indexByte)

def expandPalette (png : ParsedPng) (layout : DecodeLayout) (raw : ByteVector) :
    Checked Error ByteVector := do
  let expanded ← raw.foldlM (appendIndex png) []
  require (expanded.length = layout.outputBytes)
    (pngProtocolError "expanded palette has the wrong size")
  return expanded

def pixelsFromRaw (png : ParsedPng) (layout : DecodeLayout) (raw : ByteVector) :
    Checked Error ByteVector :=
  if png.ihdr.colorType = .palette then expandPalette png layout raw else .ok raw

def imageFromRaw (png : ParsedPng) (layout : DecodeLayout) (raw : ByteVector) :
    Checked Error Image := do
  let pixels ← pixelsFromRaw png layout raw
  return {
    width := png.ihdr.width
    height := png.ihdr.height
    stride := UInt32.ofNat layout.outputStride
    format := layout.outputFormat
    pixels }

def decodePng (zlib : Zlib) (bytes : ByteVector) : Checked Error Image := do
  let parsed ← parsePng zlib bytes
  let layout ← decodeLayoutFor parsed
  let inflated ← zlibInflateExact zlib parsed.idat layout.filteredBytes
  let raw ← unfilterScanlines inflated layout parsed.ihdr.height
  imageFromRaw parsed layout raw

end Grab.Codec
