import Grab.Codec.Safety

/-!
# The frame of a PNG file

Reading back what the encoder writes around its data: big-endian fields, chunks with their
checks, the header, and the file of three chunks.
-/

namespace Grab.Codec

open Grab.Lib Grab.Lib.Checked List

/-! ## Fields -/

/-- Shifting the low byte out and back in. -/
theorem shiftLeft_or_low (value : UInt32) :
    ((value >>> 8) <<< 8) ||| ((value &&& 0xFF).toUInt8).toUInt32 = value := by
  apply UInt32.toNat_inj.mp
  have below : value.toNat < 4294967296 := value.toNat_lt
  have low : value.toNat % 2 ^ 8 < 2 ^ 8 := Nat.mod_lt _ (by decide)
  have high : (value >>> 8 <<< 8).toNat = 2 ^ 8 * (value.toNat / 2 ^ 8) := by
    rw [UInt32.toNat_shiftLeft, UInt32.toNat_shiftRight]
    change value.toNat >>> 8 <<< 8 % 2 ^ 32 = _
    rw [Nat.shiftRight_eq_div_pow, Nat.shiftLeft_eq, Nat.mod_eq_of_lt (by omega), Nat.mul_comm]
  have byte : ((value &&& 0xFF).toUInt8).toUInt32.toNat = value.toNat % 2 ^ 8 := by
    rw [UInt8.toNat_toUInt32, UInt32.toNat_toUInt8, UInt32.toNat_and]
    change (value.toNat &&& (2 ^ 8 - 1)) % 2 ^ 8 = _
    rw [Nat.and_two_pow_sub_one_eq_mod, Nat.mod_mod]
  rw [UInt32.toNat_or, high, byte, ← Nat.two_pow_add_eq_or_of_lt low]
  exact Nat.div_add_mod _ _

theorem shiftRight_shiftRight (value first second both : UInt32)
    (sum : first.toNat + second.toNat = both.toNat) (small : both.toNat < 32) :
    (value >>> first) >>> second = value >>> both := by
  apply UInt32.toNat_inj.mp
  rw [UInt32.toNat_shiftRight, UInt32.toNat_shiftRight, UInt32.toNat_shiftRight,
    Nat.mod_eq_of_lt small, Nat.mod_eq_of_lt (show first.toNat < 32 by omega),
    Nat.mod_eq_of_lt (show second.toNat < 32 by omega), ← sum, Nat.shiftRight_add]

theorem shiftRight_top (value : UInt32) : (value >>> 24) >>> 8 = 0 := by
  apply UInt32.toNat_inj.mp
  have below : value.toNat < 4294967296 := value.toNat_lt
  rw [UInt32.toNat_shiftRight, UInt32.toNat_shiftRight]
  change value.toNat >>> 24 >>> 8 = 0
  rw [Nat.shiftRight_eq_div_pow, Nat.shiftRight_eq_div_pow]
  omega

/-- One more byte of a big-endian number: the bytes read so far are the number without it. -/
theorem bigEndian_snoc (field : List UInt8) (value : UInt32)
    (high : bigEndian field = value >>> 8) :
    bigEndian (field ++ [(value &&& 0xFF).toUInt8]) = value := by
  unfold bigEndian at high ⊢
  rw [foldl_append, high]
  exact shiftLeft_or_low value

theorem bigEndian_appendBe32 (value : UInt32) : bigEndian (appendBe32 [] value) = value := by
  have first : bigEndian [((value >>> 24) &&& 0xFF).toUInt8] = value >>> 24 :=
    bigEndian_snoc [] _ (shiftRight_top value).symm
  have second := bigEndian_snoc _ (value >>> 16)
    (first.trans (shiftRight_shiftRight value 16 8 24 rfl (by decide)).symm)
  have third := bigEndian_snoc _ (value >>> 8)
    (second.trans (shiftRight_shiftRight value 8 8 16 rfl (by decide)).symm)
  exact bigEndian_snoc _ value third

theorem length_appendBe32 (output : ByteVector) (value : UInt32) :
    (appendBe32 output value).length = output.length + 4 := by
  rw [appendBe32, length_append]
  rfl

/-- Reading a part back from between what stands before and after it. -/
theorem take_drop_middle {α : Type} (before middle rest : List α) :
    ((before ++ (middle ++ rest)).drop before.length).take middle.length = middle := by
  rw [drop_left, take_left]

theorem readBe32_append (before rest : ByteVector) (value : UInt32) :
    readBe32 (before ++ (appendBe32 [] value ++ rest)) before.length = .ok (some value) := by
  have inside : before.length + pngUint32Bytes ≤
      (before ++ (appendBe32 [] value ++ rest)).length := by
    rw [length_append, length_append, length_appendBe32]
    simp only [pngUint32Bytes, length_nil]
    omega
  have field := take_drop_middle before (appendBe32 [] value) rest
  rw [length_appendBe32] at field
  rw [readBe32_inside inside]
  change Except.ok (some (bigEndian (List.take (([] : ByteVector).length + 4) _))) = _
  rw [field, bigEndian_appendBe32]

variable {type : ChunkType} {zlib : Zlib} {state : ParseState} {next : ParseState} {chunk : Chunk}
  {chunks : List Chunk} {data : ByteVector} {ihdr : Ihdr}

theorem readChunkType_append (before rest : ByteVector) (four : type.length = pngChunkTypeBytes) :
    readChunkType (before ++ (type ++ rest)) before.length = .ok (some type) := by
  have inside : before.length + pngChunkTypeBytes ≤ (before ++ (type ++ rest)).length := by
    rw [length_append, length_append, four]
    omega
  have field := take_drop_middle before type rest
  rw [four] at field
  rw [readChunkType_inside inside, field]

theorem subspan_append (before middle rest : ByteVector) :
    (subspan (before ++ (middle ++ rest)) before.length middle.length :
      Checked Error ByteVector) = .ok middle := by
  rw [subspan_ok, take_drop_middle]
  rw [length_append, length_append]
  omega

/-! ## Chunks -/

/-- The bytes of one chunk. -/
def chunkOf (zlib : Zlib) (type : ChunkType) (data : ByteVector) : ByteVector :=
  appendBe32 [] (UInt32.ofNat data.length) ++
    (type ++ (data ++ appendBe32 [] (chunkCrc zlib type data)))

theorem length_chunkOf (zlib : Zlib) (data : ByteVector) (four : type.length = pngChunkTypeBytes) :
    (chunkOf zlib type data).length = pngChunkOverheadBytes + data.length := by
  simp only [chunkOf, length_append, length_appendBe32, four, length_nil,
    pngChunkOverheadBytes, pngChunkLengthBytes, pngChunkTypeBytes, pngChunkCrcBytes]
  omega

theorem appendChunk_eq_ok {output : ByteVector} {data png : ByteVector} :
    appendChunk zlib output type data = .ok png ↔
      data.length ≤ maxChunkBytes ∧ png = output ++ chunkOf zlib type data := by
  have small : maxChunkBytes ≤ maxUint32 := by decide
  have written : appendBe32 (appendBe32 output (UInt32.ofNat data.length) ++ type ++ data)
      (chunkCrc zlib type data) = output ++ chunkOf zlib type data := by
    simp only [appendBe32, chunkOf, append_assoc, nil_append]
  unfold appendChunk
  rw [bind_eq_ok]
  constructor
  · rintro ⟨_, bounded, returned⟩
    have bounded := require_eq_ok.mp bounded
    exact ⟨by omega, (Except.ok.inj returned).symm.trans written⟩
  rintro ⟨bounded, same⟩
  refine ⟨(), require_ok (by omega), ?_⟩
  rw [same, ← written]
  rfl

/-- On a whole chunk the loop body checks its frame and then only processes it. -/
theorem parseChunk_chunkOf {before rest bytes : ByteVector} (state : ParseState)
    (four : type.length = pngChunkTypeBytes) (small : data.length ≤ maxChunkBytes)
    (fits : bytes.length ≤ maxSize) (split : bytes = before ++ (chunkOf zlib type data ++ rest)) :
    parseChunk zlib bytes state before.length = do
      let (state, done) ← processChunk state type data
      if done = true then
        require (before.length + (chunkOf zlib type data).length = bytes.length)
          (pngProtocolError "trailing data after IEND")
        require (state.seenIdat = true) (pngProtocolError "missing IDAT data")
        require (¬(state.png.ihdr.colorType = .palette ∧ state.png.palette = []))
          (pngProtocolError "palette PNG is missing PLTE")
        return .inr state.png
      else
        return .inl (before.length + (chunkOf zlib type data).length, state) := by
  have size : (UInt32.ofNat data.length).toNat = data.length := by
    apply UInt32.toNat_ofNat_of_lt
    unfold maxChunkBytes at small
    simp only [UInt32.size]
    omega
  have room : data.length ≤ maxSize := Nat.le_trans small (by decide)
  have total : bytes.length = before.length + ((chunkOf zlib type data).length + rest.length) := by
    rw [split, length_append, length_append]
  have chunkLength := length_chunkOf zlib data four
  have header : before.length + pngChunkOverheadBytes ≤ bytes.length := by omega
  have added : checkedAdd pngChunkOverheadBytes data.length =
      some (chunkOf zlib type data).length :=
    (checkedAdd_eq_some room).mpr ⟨by omega, chunkLength⟩
  -- the input seen from each field of the chunk
  let typeBefore := before ++ appendBe32 [] (UInt32.ofNat data.length)
  let dataBefore := typeBefore ++ type
  let crcBefore := dataBefore ++ data
  have typeLength : typeBefore.length = before.length + pngChunkLengthBytes := by
    rw [length_append, length_appendBe32]
    rfl
  have dataLength : dataBefore.length = typeBefore.length + pngChunkTypeBytes := by
    rw [length_append, four]
  have crcLength : crcBefore.length = dataBefore.length + data.length := length_append
  have fromLength : readBe32 bytes before.length = .ok (some (UInt32.ofNat data.length)) := by
    rw [split, chunkOf, append_assoc]
    exact readBe32_append before _ _
  have fromType : readChunkType bytes typeBefore.length = .ok (some type) := by
    have seen : bytes = typeBefore ++
        (type ++ (data ++ appendBe32 [] (chunkCrc zlib type data) ++ rest)) := by
      rw [split]
      simp only [chunkOf, typeBefore, append_assoc]
    rw [seen]
    exact readChunkType_append typeBefore _ four
  have fromData : (subspan bytes dataBefore.length data.length : Checked Error ByteVector) =
      .ok data := by
    have seen : bytes = dataBefore ++
        (data ++ (appendBe32 [] (chunkCrc zlib type data) ++ rest)) := by
      rw [split]
      simp only [chunkOf, dataBefore, typeBefore, append_assoc]
    rw [seen]
    exact subspan_append dataBefore data _
  have fromCrc : readBe32 bytes crcBefore.length = .ok (some (chunkCrc zlib type data)) := by
    have seen : bytes = crcBefore ++ (appendBe32 [] (chunkCrc zlib type data) ++ rest) := by
      rw [split]
      simp only [chunkOf, crcBefore, dataBefore, typeBefore, append_assoc]
    rw [seen]
    exact readBe32_append crcBefore rest _
  have overhead : pngChunkOverheadBytes =
      pngChunkLengthBytes + pngChunkTypeBytes + pngChunkCrcBytes := rfl
  unfold parseChunk
  rw [require_ok (hasBytes_iff.mpr header), ok_bind, fromLength, ok_bind, expect, ok_bind, size]
  dsimp only
  rw [require_ok small, ok_bind, added, expect, ok_bind,
    require_ok (hasBytes_iff.mpr (by omega)), ok_bind, addSize_ok (by omega), ok_bind,
    ← typeLength, fromType, ok_bind, expect, ok_bind, addSize_ok (by omega), ok_bind,
    ← dataLength, addSize_ok (by omega), ok_bind, ← crcLength, fromCrc, ok_bind, expect, ok_bind,
    fromData, ok_bind, require_ok rfl, ok_bind]
  cases processChunk state type data with
  | error stop => rfl
  | ok outcome =>
    rw [ok_bind, ok_bind, addSize_ok (by omega), ok_bind]

theorem parseRound_inside {bytes : ByteVector} {offset : Nat} (inside : offset < bytes.length) :
    parseRound zlib bytes (offset, state) = parseChunk zlib bytes state offset :=
  if_pos inside

/-! ## Files of chunks -/

structure Chunk where
  type : ChunkType
  data : ByteVector
  deriving DecidableEq, Repr

namespace Chunk

def bytes (zlib : Zlib) (chunk : Chunk) : ByteVector := chunkOf zlib chunk.type chunk.data

/-- A type of four bytes and data within the limit. -/
def Formed (chunk : Chunk) : Prop :=
  chunk.type.length = pngChunkTypeBytes ∧ chunk.data.length ≤ maxChunkBytes

end Chunk

def fileOf (zlib : Zlib) (chunks : List Chunk) : ByteVector :=
  pngSignature ++ chunks.flatMap (Chunk.bytes zlib)

/-- The chunk loop on chunks that were already taken out of their frames. -/
def parseChunks (state : ParseState) : List Chunk → Checked Error ParsedPng
  | [] => report (pngProtocolError "missing IEND chunk")
  | chunk :: rest => do
      let (state, done) ← processChunk state chunk.type chunk.data
      if done = true then
        require (rest = []) (pngProtocolError "trailing data after IEND")
        require (state.seenIdat = true) (pngProtocolError "missing IDAT data")
        require (¬(state.png.ihdr.colorType = .palette ∧ state.png.palette = []))
          (pngProtocolError "palette PNG is missing PLTE")
        return state.png
      else
        parseChunks state rest

theorem parseChunks_next {rest : List Chunk}
    (processed : processChunk state chunk.type chunk.data = .ok (next, false)) :
    parseChunks state (chunk :: rest) = parseChunks next rest := by
  rw [parseChunks, processed]
  rfl

theorem parseChunks_last (processed : processChunk state chunk.type chunk.data = .ok (next, true))
    (seen : next.seenIdat = true)
    (colored : ¬(next.png.ihdr.colorType = .palette ∧ next.png.palette = [])) :
    parseChunks state [chunk] = .ok next.png := by
  rw [parseChunks, processed, ok_bind]
  dsimp only
  rw [if_pos rfl, require_ok rfl, ok_bind, require_ok seen, ok_bind, require_ok colored, ok_bind]
  rfl

theorem Chunk.Formed.length_pos (formed : chunk.Formed) : 0 < (chunk.bytes zlib).length := by
  rw [Chunk.bytes, length_chunkOf zlib _ formed.1, Nat.add_comm]
  exact Nat.succ_pos _

theorem rounds_eq_parseChunks {bytes : ByteVector} (fits : bytes.length ≤ maxSize)
    (formed : ∀ chunk ∈ chunks, chunk.Formed) {before : ByteVector} (state : ParseState)
    (split : bytes = before ++ chunks.flatMap (Chunk.bytes zlib)) {fuel : Nat}
    (enough : bytes.length < before.length + fuel) :
    loop (parseRound zlib bytes) fuel (before.length, state) = parseChunks state chunks := by
  induction chunks generalizing before state fuel with
  | nil =>
    rw [flatMap_nil, append_nil] at split
    rcases Nat.exists_eq_succ_of_ne_zero (show fuel ≠ 0 by rw [split] at enough; omega) with
      ⟨fuel, rfl⟩
    rw [loop, parseRound, if_neg (by rw [split]; exact Nat.lt_irrefl _)]
    rfl
  | cons chunk rest later =>
    rcases forall_mem_cons.mp formed with ⟨here, formed⟩
    rw [flatMap_cons] at split
    have positive : 0 < (chunk.bytes zlib).length := here.length_pos
    have total := congrArg List.length split
    rw [length_append, length_append] at total
    rcases Nat.exists_eq_succ_of_ne_zero (show fuel ≠ 0 by omega) with ⟨fuel, rfl⟩
    rw [loop, parseRound_inside (by omega), parseChunk_chunkOf state here.1 here.2 fits split,
      parseChunks]
    cases processChunk state chunk.type chunk.data with
    | error stop => rfl
    | ok outcome =>
      rcases outcome with ⟨next, _ | _⟩
      · have moved : loop (parseRound zlib bytes) fuel
            ((before ++ chunk.bytes zlib).length, next) = parseChunks next rest :=
          later formed next (by rw [split, append_assoc]) (by rw [length_append]; omega)
        rw [length_append] at moved
        exact moved
      have ends : before.length + (chunk.bytes zlib).length = bytes.length ↔ rest = [] := by
        constructor
        · intro ends
          cases rest with
          | nil => rfl
          | cons other rest =>
            have more : 0 < (other.bytes zlib).length := (formed other mem_cons_self).length_pos
            rw [flatMap_cons, length_append] at total
            omega
        · rintro rfl
          exact total.symm
      change (require (before.length + (chunk.bytes zlib).length = bytes.length) _ >>= fun _ => _)
        >>= _ = require _ _ >>= fun _ => _
      simp only [ends, bind_assoc]
      rfl

theorem parsePng_fileOf (formed : ∀ chunk ∈ chunks, chunk.Formed)
    (fits : (fileOf zlib chunks).length ≤ maxSize) :
    parsePng zlib (fileOf zlib chunks) = parseChunks {} chunks := by
  have signature : (fileOf zlib chunks).take pngSignature.length = pngSignature := take_left
  have long : pngSignature.length ≤ (fileOf zlib chunks).length := by
    rw [fileOf, length_append]
    omega
  rw [parsePng, require_ok long, ok_bind, subspan_ok (by omega), ok_bind, drop_zero,
    require_ok signature, ok_bind]
  exact rounds_eq_parseChunks fits formed {} rfl (by omega)

/-! ## The three chunks of an encoded image -/

/-- The data of the header chunk the encoder writes. -/
def headerBytes (width height : UInt32) (colorType : PngColorType) : ByteVector :=
  appendBe32 (appendBe32 [] width) height ++
    [pngBitDepth8, colorType.toByte, pngMethodNone, pngMethodNone, pngMethodNone]

theorem parseColorType_toByte (colorType : PngColorType) :
    parseColorType colorType.toByte = some colorType := by
  cases colorType <;> rfl

theorem parseIhdr_headerBytes {width height : UInt32} {colorType : PngColorType}
    (wide : width ≠ 0) (high : height ≠ 0) (supported : colorType ≠ .grayscaleAlpha) :
    parseIhdr (headerBytes width height colorType) =
      .ok { width, height, bitDepth := pngBitDepth8, colorType } := by
  have first : readBe32 (headerBytes width height colorType) 0 = .ok (some width) :=
    readBe32_append [] _ width
  have second : readBe32 (headerBytes width height colorType) 4 = .ok (some height) :=
    readBe32_append (appendBe32 [] width) _ height
  have size : (headerBytes width height colorType).length = pngIhdrBytes := rfl
  unfold parseIhdr
  rw [require_ok size, ok_bind, first, ok_bind, second, ok_bind,
    readByte_inside (show (headerBytes width height colorType)[8]? = some pngBitDepth8 from rfl),
    ok_bind,
    readByte_inside
      (show (headerBytes width height colorType)[9]? = some colorType.toByte from rfl),
    ok_bind,
    readByte_inside (show (headerBytes width height colorType)[10]? = some pngMethodNone from rfl),
    ok_bind,
    readByte_inside (show (headerBytes width height colorType)[11]? = some pngMethodNone from rfl),
    ok_bind,
    readByte_inside (show (headerBytes width height colorType)[12]? = some pngMethodNone from rfl),
    ok_bind]
  simp only [expect, ok_bind, parseColorType_toByte]
  rw [require_ok (not_or.mpr ⟨wide, high⟩), ok_bind, require_ok trivial, ok_bind,
    require_ok supported, ok_bind, require_ok (by decide), ok_bind]
  rfl

/-- The file of a header and one run of compressed data. -/
def pngFile (zlib : Zlib) (header compressed : ByteVector) : ByteVector :=
  pngSignature ++ (chunkOf zlib chunkIhdr header ++
    (chunkOf zlib chunkIdat compressed ++ chunkOf zlib chunkIend []))

theorem processChunk_ihdr {header : ByteVector} (parsed : parseIhdr header = .ok ihdr) :
    processChunk {} chunkIhdr header = .ok ({ png := { ihdr }, seenIhdr := true }, false) := by
  unfold processChunk
  rw [require_ok (by decide), ok_bind, if_pos rfl, require_ok (by decide), ok_bind, parsed, ok_bind]
  rfl

def ParseState.addIdat (state : ParseState) (data : ByteVector) : ParseState :=
  { state with png := { state.png with idat := state.png.idat ++ data }, seenIdat := true }

theorem processChunk_idat (seen : state.seenIhdr = true)
    (small : state.png.idat.length + data.length ≤ maxCompressedBytes) :
    processChunk state chunkIdat data = .ok (state.addIdat data, false) := by
  unfold processChunk appendIdat
  rw [require_ok (by decide), ok_bind, if_neg (by decide), require_ok seen, ok_bind,
    if_neg (by decide), if_neg (by decide), if_pos rfl, require_ok seen, ok_bind,
    require_ok (by omega), ok_bind]
  rfl

theorem processChunk_iend (seen : state.seenIhdr = true) :
    processChunk state chunkIend [] = .ok (state, true) := by
  unfold processChunk
  rw [require_ok (by decide), ok_bind, if_neg (by decide), require_ok seen, ok_bind,
    if_neg (by decide), if_neg (by decide), if_neg (by decide), if_pos rfl, require_ok rfl,
    ok_bind]
  rfl

theorem parsePng_pngFile {header compressed : ByteVector} (parsed : parseIhdr header = .ok ihdr)
    (direct : ihdr.colorType ≠ .palette) (headerSmall : header.length ≤ maxChunkBytes)
    (dataSmall : compressed.length ≤ maxChunkBytes) :
    parsePng zlib (pngFile zlib header compressed) = .ok { ihdr, idat := compressed } := by
  have formed : ∀ chunk ∈ [Chunk.mk chunkIhdr header, ⟨chunkIdat, compressed⟩, ⟨chunkIend, []⟩],
      chunk.Formed := by
    rw [forall_mem_cons, forall_mem_cons, forall_mem_singleton]
    exact ⟨⟨rfl, headerSmall⟩, ⟨rfl, dataSmall⟩, rfl, Nat.zero_le _⟩
  have file : pngFile zlib header compressed =
      fileOf zlib [⟨chunkIhdr, header⟩, ⟨chunkIdat, compressed⟩, ⟨chunkIend, []⟩] := by
    simp only [fileOf, flatMap_cons, flatMap_nil, append_nil]
    rfl
  have fits : (pngFile zlib header compressed).length ≤ maxSize := by
    have small : pngSignature.length + (pngChunkOverheadBytes + maxChunkBytes +
        (pngChunkOverheadBytes + maxChunkBytes + pngChunkOverheadBytes)) ≤ maxSize := by decide
    simp only [pngFile, length_append, length_chunkOf zlib _ (show chunkIhdr.length = _ from rfl),
      length_chunkOf zlib _ (show chunkIdat.length = _ from rfl),
      length_chunkOf zlib _ (show chunkIend.length = _ from rfl), length_nil]
    omega
  have notPalette : ¬(ihdr.colorType = .palette ∧ ([] : ByteVector) = []) :=
    fun palette => direct palette.1
  rw [file] at fits ⊢
  rw [parsePng_fileOf formed fits]
  rw [parseChunks_next (processChunk_ihdr parsed),
    parseChunks_next (processChunk_idat rfl (by rw [length_nil, Nat.zero_add]; exact dataSmall)),
    parseChunks_last (processChunk_iend rfl) rfl notPalette]
  rfl

end Grab.Codec
