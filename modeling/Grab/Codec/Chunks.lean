import Grab.Codec.Frame
import Mathlib.Algebra.Ring.Nat

/-!
# The chunks of an accepted file

An accepted file is a list of chunks in their frames.  Each chunk does one of six things to
the state, and a palette comes from the last `PLTE` chunk.
-/

namespace Grab.Codec

open Grab.Lib Grab.Lib.Checked List

/-! ## Taking chunks out of their frames -/

theorem toNat_shiftLeft_or (value : UInt32) (byte : UInt8) :
    ((value <<< 8) ||| byte.toUInt32).toNat = value.toNat * 2 ^ 8 % 2 ^ 32 + byte.toNat := by
  have low : byte.toNat < 2 ^ 8 := byte.toNat_lt
  have high : (value <<< 8).toNat = 2 ^ 8 * (value.toNat % 2 ^ 24) := by
    rw [UInt32.toNat_shiftLeft, Nat.shiftLeft_eq]
    change value.toNat * 2 ^ 8 % 2 ^ 32 = _
    omega
  rw [UInt32.toNat_or, UInt8.toNat_toUInt32, high, ← Nat.two_pow_add_eq_or_of_lt low]
  omega

theorem bigEndian_injective {a b c d w x y z : UInt8}
    (same : bigEndian [a, b, c, d] = bigEndian [w, x, y, z]) : [a, b, c, d] = [w, x, y, z] := by
  have same := congrArg UInt32.toNat same
  simp only [bigEndian, foldl_cons, foldl_nil, toNat_shiftLeft_or, UInt32.toNat_zero,
    ← UInt8.toNat_inj, cons.injEq, and_true] at same ⊢
  have := a.toNat_lt
  have := b.toNat_lt
  have := c.toNat_lt
  have := d.toNat_lt
  have := w.toNat_lt
  have := x.toNat_lt
  have := y.toNat_lt
  have := z.toNat_lt
  omega

/-- Four bytes are those of the number read from them. -/
theorem appendBe32_bigEndian {field : ByteVector} (four : field.length = pngUint32Bytes) :
    appendBe32 [] (bigEndian field) = field := by
  rcases field with _ | ⟨a, _ | ⟨b, _ | ⟨c, _ | ⟨d, _ | ⟨e, rest⟩⟩⟩⟩⟩ <;> try cases four
  exact bigEndian_injective (bigEndian_appendBe32 _)

variable {zlib : Zlib} {bytes : ByteVector} {state : ParseState} {offset : Nat} {chunk : Chunk}
  {next : ParseState} {png : ParsedPng} {done : Bool} (fits : bytes.length ≤ maxSize)

include fits

/-- A round that returns has read a whole chunk. -/
theorem chunk_of_parseChunk {outcome : (Nat × ParseState) ⊕ ParsedPng}
    (returned : parseChunk zlib bytes state offset = .ok outcome) :
    ∃ (chunk : Chunk) (rest : ByteVector), chunk.Formed ∧
      bytes.drop offset = chunk.bytes zlib ++ rest := by
  rw [parseChunk, bind_eq_ok] at returned
  rcases returned with ⟨_, header, returned⟩
  have header : offset + 12 ≤ bytes.length := hasBytes_iff.mp (require_eq_ok.mp header)
  rw [readBe32_inside (show offset + 4 ≤ bytes.length by omega)] at returned
  simp only [ok_bind, expect, pngChunkLengthBytes, pngChunkTypeBytes, pngUint32Bytes] at returned
  generalize sized : bigEndian ((bytes.drop offset).take 4) = size at returned
  rw [bind_eq_ok] at returned
  rcases returned with ⟨_, small, returned⟩
  have small := require_eq_ok.mp small
  have added : checkedAdd pngChunkOverheadBytes size.toNat = some (12 + size.toNat) :=
    (checkedAdd_eq_some (Nat.le_trans small (by decide))).mpr
      ⟨Nat.le_trans (Nat.add_le_add_left small _) (by decide), rfl⟩
  rw [added, ok_bind, bind_eq_ok] at returned
  rcases returned with ⟨_, whole, returned⟩
  have whole : offset + 4 + 4 + size.toNat + 4 ≤ bytes.length := by
    have whole := hasBytes_iff.mp (require_eq_ok.mp whole)
    omega
  rw [addSize_ok (by omega), ok_bind,
    readChunkType_inside (show offset + 4 + 4 ≤ bytes.length by omega)] at returned
  simp only [ok_bind] at returned
  rw [addSize_ok (by omega), ok_bind, addSize_ok (by omega), ok_bind,
    readBe32_inside whole] at returned
  simp only [ok_bind, pngChunkTypeBytes, pngUint32Bytes] at returned
  rw [subspan_ok (by omega), ok_bind, bind_eq_ok] at returned
  rcases returned with ⟨_, crc, _⟩
  have crc := require_eq_ok.mp crc
  -- the input cut at the ends of the four fields
  have cut (start count : Nat) : (bytes.drop start).take count ++ bytes.drop (start + count) =
      bytes.drop start := by
    rw [← drop_drop, take_append_drop]
  have field (start count : Nat) (inside : start + count ≤ bytes.length) :
      ((bytes.drop start).take count).length = count := by
    rw [List.length_take, length_drop]
    omega
  refine ⟨⟨(bytes.drop (offset + 4)).take 4, (bytes.drop (offset + 4 + 4)).take size.toNat⟩,
    bytes.drop (offset + 4 + 4 + size.toNat + 4), ⟨field _ 4 (by omega), ?_⟩, ?_⟩
  · rw [field _ _ (by omega)]
    exact small
  have sizeField := appendBe32_bigEndian (field offset 4 (by omega))
  have crcField := appendBe32_bigEndian (field (offset + 4 + 4 + size.toNat) 4 whole)
  rw [sized] at sizeField
  rw [← crc] at crcField
  rw [Chunk.bytes, chunkOf, field _ _ (by omega), UInt32.ofNat_toNat, sizeField, crcField]
  simp only [append_assoc]
  rw [cut, cut, cut, cut]

/-- What the chunk loop accepts is a list of chunks. -/
theorem chunks_of_rounds {fuel : Nat}
    (returned : loop (parseRound zlib bytes) fuel (offset, state) = .ok png) :
    ∃ chunks : List Chunk, (∀ chunk ∈ chunks, chunk.Formed) ∧
      bytes.drop offset = chunks.flatMap (Chunk.bytes zlib) := by
  induction fuel generalizing offset state with
  | zero => cases returned
  | succ fuel later =>
    rw [loop, bind_eq_ok] at returned
    rcases returned with ⟨outcome, round, returned⟩
    rw [parseRound] at round
    split at round
    case isFalse => cases round
    case isTrue inside =>
      rcases chunk_of_parseChunk fits round with ⟨chunk, rest, formed, split⟩
      have front : (bytes.take offset).length = offset := by
        rw [List.length_take, Nat.min_eq_left (Nat.le_of_lt inside)]
      have whole : bytes = bytes.take offset ++ (chunk.bytes zlib ++ rest) := by
        rw [← split, take_append_drop]
      have after : bytes.drop (offset + (chunk.bytes zlib).length) = rest := by
        rw [← drop_drop, split, drop_left]
      have processed := parseChunk_chunkOf state formed.1 formed.2 fits whole
      rw [front] at processed
      rcases bind_eq_ok.mp (processed.symm.trans round) with ⟨⟨next, _ | _⟩, _, moved⟩
      · cases moved
        rcases later returned with ⟨chunks, allFormed, more⟩
        refine ⟨chunk :: chunks, forall_mem_cons.mpr ⟨formed, allFormed⟩, ?_⟩
        rw [flatMap_cons, split, ← more]
        exact congrArg _ after.symm
      rcases bind_eq_ok.mp moved with ⟨_, ends, _⟩
      have ends : offset + (chunk.bytes zlib).length = bytes.length := require_eq_ok.mp ends
      rw [ends, drop_length] at after
      refine ⟨[chunk], forall_mem_singleton.mpr formed, ?_⟩
      rw [split, ← after, flatMap_singleton, append_nil]

/-- An accepted file is the signature and chunks in their frames. -/
theorem chunks_of_parsePng (parsed : parsePng zlib bytes = .ok png) :
    ∃ chunks : List Chunk, (∀ chunk ∈ chunks, chunk.Formed) ∧ bytes = fileOf zlib chunks ∧
      parseChunks {} chunks = .ok png := by
  have whole := parsed
  rw [parsePng, bind_eq_ok] at parsed
  rcases parsed with ⟨_, long, parsed⟩
  have long := require_eq_ok.mp long
  rw [subspan_ok (by omega), ok_bind, drop_zero, bind_eq_ok] at parsed
  rcases parsed with ⟨_, signature, returned⟩
  rcases chunks_of_rounds fits returned with ⟨chunks, formed, split⟩
  have file : bytes = fileOf zlib chunks := by
    rw [fileOf, ← split, ← require_eq_ok.mp signature, length_take_of_le long, take_append_drop]
  refine ⟨chunks, formed, file, ?_⟩
  rw [← parsePng_fileOf formed (file ▸ fits), ← file]
  exact whole

/-! ## What a chunk does -/

omit fits

/-- A chunk of an unknown type that need not be understood. -/
structure Chunk.Ancillary (chunk : Chunk) : Prop where
  spelled : isChunkTypeValid chunk.type = true
  notCritical : isCriticalChunk chunk.type = .ok false
  unknown : chunk.type ≠ chunkTrns

/-- What an accepted chunk does to the state, and whether it is the last. -/
inductive Processed (state : ParseState) (chunk : Chunk) : ParseState → Bool → Prop
  | ihdr (ihdr : Ihdr) (first : state.seenIdat = false) : chunk.type = chunkIhdr →
      Processed state chunk
        { state with png := { state.png with ihdr := ihdr }, seenIhdr := true } false
  | plte (seen : state.seenIhdr = true) (early : state.seenIdat = false) :
      chunk.type = chunkPlte → Processed state chunk
        { state with png := { state.png with palette := chunk.data } } false
  | trns (seen : state.seenIhdr = true) (early : state.seenIdat = false)
      (small : chunk.data.length ≤ state.png.palette.length / paletteEntryBytes) :
      chunk.type = chunkTrns → Processed state chunk
        { state with png := { state.png with transparency := chunk.data } } false
  | idat (seen : state.seenIhdr = true)
      (small : state.png.idat.length + chunk.data.length ≤ maxCompressedBytes) :
      chunk.type = chunkIdat → Processed state chunk (state.addIdat chunk.data) false
  | iend (seen : state.seenIhdr = true) : chunk = ⟨chunkIend, []⟩ → Processed state chunk state true
  | ancillary (seen : state.seenIhdr = true) : chunk.Ancillary → Processed state chunk state false

theorem processed_of_ok (returned : processChunk state chunk.type chunk.data = .ok (next, done)) :
    Processed state chunk next done := by
  rw [processChunk, bind_eq_ok] at returned
  rcases returned with ⟨_, spelled, returned⟩
  split at returned
  case isTrue isIhdr =>
    rcases bind_eq_ok.mp returned with ⟨_, first, returned⟩
    rcases bind_eq_ok.mp returned with ⟨ihdr, _, returned⟩
    cases returned
    exact .ihdr ihdr (by simpa using (not_or.mp (require_eq_ok.mp first)).2) isIhdr
  case isFalse notIhdr =>
    rcases bind_eq_ok.mp returned with ⟨_, seen, returned⟩
    have seen := require_eq_ok.mp seen
    split at returned
    case isTrue isPlte =>
      rcases bind_eq_ok.mp returned with ⟨_, accepted, returned⟩
      rcases bind_eq_ok.mp accepted with ⟨_, placed, accepted⟩
      rcases bind_eq_ok.mp accepted with ⟨_, _, accepted⟩
      cases accepted
      cases returned
      exact .plte seen (by simpa using (not_or.mp (require_eq_ok.mp placed)).2) isPlte
    case isFalse =>
    split at returned
    case isTrue isTrns =>
      rcases bind_eq_ok.mp returned with ⟨_, accepted, returned⟩
      rcases bind_eq_ok.mp accepted with ⟨_, placed, accepted⟩
      rcases bind_eq_ok.mp accepted with ⟨_, _, accepted⟩
      rcases bind_eq_ok.mp accepted with ⟨_, _, accepted⟩
      rcases bind_eq_ok.mp accepted with ⟨_, small, accepted⟩
      cases accepted
      cases returned
      exact .trns seen (by simpa using (not_or.mp (require_eq_ok.mp placed)).2)
        (require_eq_ok.mp small) isTrns
    case isFalse notTrns =>
    split at returned
    case isTrue isIdat =>
      rcases bind_eq_ok.mp returned with ⟨_, accepted, returned⟩
      rcases bind_eq_ok.mp accepted with ⟨_, _, accepted⟩
      rcases bind_eq_ok.mp accepted with ⟨_, small, accepted⟩
      cases accepted
      cases returned
      have small := require_eq_ok.mp small
      exact .idat seen (by omega) isIdat
    case isFalse =>
    split at returned
    case isTrue isIend =>
      rcases bind_eq_ok.mp returned with ⟨_, empty, returned⟩
      cases returned
      exact .iend seen (by rw [← isIend, ← require_eq_ok.mp empty])
    case isFalse =>
      rcases bind_eq_ok.mp returned with ⟨critical, isCritical, returned⟩
      rcases bind_eq_ok.mp returned with ⟨_, notCritical, returned⟩
      cases returned
      exact .ancillary seen
        ⟨require_eq_ok.mp spelled, require_eq_ok.mp notCritical ▸ isCritical, notTrns⟩

theorem Chunk.Ancillary.ne (ancillary : chunk.Ancillary) {type : ChunkType}
    (critical : isCriticalChunk type = .ok true) : chunk.type ≠ type := by
  rintro rfl
  rw [ancillary.notCritical] at critical
  cases critical

theorem processChunk_ancillary (ancillary : chunk.Ancillary) (seen : state.seenIhdr = true) :
    processChunk state chunk.type chunk.data = .ok (state, false) := by
  unfold processChunk
  rw [require_ok ancillary.spelled, ok_bind, if_neg (ancillary.ne rfl), require_ok seen, ok_bind,
    if_neg (ancillary.ne rfl), if_neg ancillary.unknown, if_neg (ancillary.ne rfl),
    if_neg (ancillary.ne rfl), ancillary.notCritical, ok_bind, require_ok rfl, ok_bind]
  rfl

variable {chunks rest : List Chunk} {sources : List ByteVector}

theorem parseChunks_cons_eq_ok (returned : parseChunks state (chunk :: rest) = .ok png) :
    ∃ next done, processChunk state chunk.type chunk.data = .ok (next, done) ∧
      (done = true → rest = [] ∧ png = next.png ∧
        ¬(next.png.ihdr.colorType = .palette ∧ next.png.palette = [])) ∧
      (done = false → parseChunks next rest = .ok png) := by
  rcases bind_eq_ok.mp returned with ⟨⟨next, _ | _⟩, processed, returned⟩
  · refine ⟨next, false, processed, ?_, fun _ => returned⟩
    intro impossible
    cases impossible
  rcases bind_eq_ok.mp returned with ⟨_, ends, returned⟩
  rcases bind_eq_ok.mp returned with ⟨_, _, returned⟩
  rcases bind_eq_ok.mp returned with ⟨_, colored, returned⟩
  refine ⟨next, true, processed, ?_, ?_⟩
  · exact fun _ =>
      ⟨require_eq_ok.mp ends, (Except.ok.inj returned).symm, require_eq_ok.mp colored⟩
  · nofun

/-! ## The sources of a palette -/

def plteSources (chunks : List Chunk) : List ByteVector :=
  (chunks.filter fun chunk => chunk.type = chunkPlte).map Chunk.data

/-- The transparency fits the palette, and the palette is that of the only `PLTE` chunk. -/
def ParsedPng.PaletteConsistent (png : ParsedPng) (chunks : List Chunk) : Prop :=
  png.transparency.length ≤ png.palette.length / paletteEntryBytes ∧
    plteSources chunks = [png.palette]

/-- What a parser holds that has seen at most one palette. -/
def ParseState.Tables (state : ParseState) (sources : List ByteVector) : Prop :=
  sources.length ≤ 1 → state.png.palette = sources.flatten ∧
    state.png.transparency.length ≤ state.png.palette.length / paletteEntryBytes

theorem Processed.tables (processed : Processed state chunk next done)
    (tables : state.Tables sources) : next.Tables (sources ++ plteSources [chunk]) := by
  have other (apart : chunk.type ≠ chunkPlte) : sources ++ plteSources [chunk] = sources := by
    simp [plteSources, apart]
  cases processed with
  | ihdr ihdr first is | idat seen small is | iend seen is =>
    rw [other (by rw [is]; decide)]
    exact tables
  | plte seen early is =>
    have added : plteSources [chunk] = [chunk.data] := by simp [plteSources, is]
    rw [added]
    intro single
    rw [length_append] at single
    have none : sources = [] := length_eq_zero_iff.mp (by simpa using single)
    rw [none] at tables ⊢
    rcases tables (Nat.zero_le _) with ⟨empty, fits⟩
    rw [empty] at fits
    exact ⟨(append_nil _).symm, Nat.le_trans fits (Nat.zero_le _)⟩
  | trns seen early small is =>
    rw [other (by rw [is]; decide)]
    exact fun single => ⟨(tables single).1, small⟩
  | ancillary seen ancillary =>
    rw [other (ancillary.ne rfl)]
    exact tables

theorem tables_of_parseChunks (returned : parseChunks state chunks = .ok png)
    (tables : state.Tables sources) :
    ¬(png.ihdr.colorType = .palette ∧ png.palette = []) ∧
      ({ png } : ParseState).Tables (sources ++ plteSources chunks) := by
  induction chunks generalizing state sources with
  | nil => cases returned
  | cons chunk rest later =>
    rcases parseChunks_cons_eq_ok returned with ⟨next, done, processed, last, more⟩
    have after := (processed_of_ok processed).tables tables
    have cut : plteSources (chunk :: rest) = plteSources [chunk] ++ plteSources rest := by
      rw [plteSources, plteSources, plteSources, ← map_append, ← filter_append]
      rfl
    rw [cut, ← append_assoc]
    cases done with
    | false => exact later (more rfl) after
    | true =>
      rcases last rfl with ⟨rfl, rfl, colored⟩
      rw [show plteSources [] = [] from rfl, append_nil]
      exact ⟨colored, after⟩

/-- An accepted file is a list of chunks, and a palette image in it is consistent exactly where
no second `PLTE` chunk replaces the palette that the transparency was checked against. -/
theorem paletteConsistent_iff (zlib : Zlib) (input : ByteSpan) {png : ParsedPng}
    (parsed : parsePng zlib input.1 = .ok png) (paletted : png.ihdr.colorType = .palette) :
    (∃ chunks : List Chunk, (∀ chunk ∈ chunks, chunk.Formed) ∧ input.1 = fileOf zlib chunks) ∧
      ∀ chunks : List Chunk, (∀ chunk ∈ chunks, chunk.Formed) → input.1 = fileOf zlib chunks →
        (png.PaletteConsistent chunks ↔ (plteSources chunks).length ≤ 1) := by
  constructor
  · rcases chunks_of_parsePng input.2 parsed with ⟨chunks, formed, file, _⟩
    exact ⟨chunks, formed, file⟩
  intro chunks formed file
  have fits := input.2
  rw [file] at parsed fits
  rw [parsePng_fileOf formed fits] at parsed
  have initial : ({} : ParseState).Tables [] := fun _ => ⟨rfl, Nat.le_refl _⟩
  rcases tables_of_parseChunks parsed initial with ⟨colored, tables⟩
  rw [nil_append] at tables
  constructor
  · rintro ⟨_, only⟩
    rw [only]
    exact Nat.le_refl 1
  intro single
  rcases tables single with ⟨palette, fits⟩
  refine ⟨fits, ?_⟩
  cases sources : plteSources chunks with
  | nil =>
    rw [sources] at palette
    exact absurd ⟨paletted, palette⟩ colored
  | cons source rest =>
    rw [sources, length_cons] at single
    have none : rest = [] := length_eq_zero_iff.mp (by omega)
    rw [sources, none, flatten_singleton] at palette
    rw [none, ← palette]

/-- A palette pixel with two transparent entries, and the chunks before its data. -/
def paletteChunks (more : List Chunk) : List Chunk :=
  ⟨chunkIhdr, headerBytes 1 1 .palette⟩ :: ⟨chunkPlte, [1, 2, 3, 4, 5, 6]⟩ ::
    ⟨chunkTrns, [7, 8]⟩ :: (more ++ [⟨chunkIdat, [9]⟩, ⟨chunkIend, []⟩])

def palettePng (palette : ByteVector) : ParsedPng where
  ihdr := { width := 1, height := 1, bitDepth := 8, colorType := .palette }
  idat := [9]
  palette := palette
  transparency := [7, 8]

theorem paletteConsistent_single :
    (palettePng [1, 2, 3, 4, 5, 6]).PaletteConsistent (paletteChunks []) := by
  have formed : ∀ chunk ∈ paletteChunks [], chunk.Formed := by
    unfold Chunk.Formed
    decide
  apply ((paletteConsistent_iff pixelZlib ⟨fileOf pixelZlib (paletteChunks []), by decide +kernel⟩
    (by decide +kernel) rfl).2 _ formed rfl).mpr
  decide

/-- A second palette of one entry replaces the one that the transparency was checked against. -/
theorem second_palette_smaller :
    parsePng pixelZlib (fileOf pixelZlib (paletteChunks [⟨chunkPlte, [1, 2, 3]⟩])) =
        .ok (palettePng [1, 2, 3]) ∧
      (palettePng [1, 2, 3]).ihdr.colorType = .palette ∧
      ¬(palettePng [1, 2, 3]).PaletteConsistent (paletteChunks [⟨chunkPlte, [1, 2, 3]⟩]) :=
  ⟨by decide +kernel, rfl, fun consistent => absurd consistent.1 (by decide)⟩

end Grab.Codec
