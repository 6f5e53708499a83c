import Grab.Codec.Chunks
import Mathlib.Logic.Relation

/-!
# The layout of the chunks

The image does not depend on how the compressed data is cut into chunks, nor on chunks that
need not be understood.
-/

namespace Grab.Codec

open Grab.Lib Grab.Lib.Checked List

variable {zlib : Zlib} {bytes : ByteVector} {state : ParseState} {chunks rest : List Chunk}
  {chunk : Chunk} {png : ParsedPng}

/-- The compressed data that the `IDAT` chunks hold. -/
def payload (chunks : List Chunk) : ByteVector :=
  ((chunks.filter fun chunk => chunk.type = chunkIdat).map Chunk.data).flatten

def othersOf (chunks : List Chunk) : List Chunk := chunks.filter fun chunk => chunk.type ≠ chunkIdat

/-- Another layout of the same image: a chunk that need not be understood after the first
chunk and before the last, or the payload from some `IDAT` chunk on cut into other pieces,
all in one place. -/
inductive Relaid : List Chunk → List Chunk → Prop
  | insert {before after : List Chunk} (chunk : Chunk) : before ≠ [] → after ≠ [] →
      chunk.Formed → chunk.Ancillary → Relaid (before ++ after) (before ++ chunk :: after)
  | split {lead rest early late : List Chunk} {last : Chunk} (first : Chunk)
      (pieces : List ByteVector) : first.type = chunkIdat →
      othersOf rest = early ++ late ++ [last] → pieces ≠ [] →
      pieces.flatten = payload (first :: rest) → Relaid (lead ++ first :: rest)
        (lead ++ (early ++ (pieces.map (Chunk.mk chunkIdat) ++ late) ++ [last]))

variable {items : List Chunk}

theorem payload_idat (is : chunk.type = chunkIdat) :
    payload (chunk :: items) = chunk.data ++ payload items := by
  simp [payload, is]

theorem payload_other (apart : chunk.type ≠ chunkIdat) :
    payload (chunk :: items) = payload items := by
  simp [payload, apart]

theorem payload_append (first second : List Chunk) :
    payload (first ++ second) = payload first ++ payload second := by
  simp [payload]

theorem payload_othersOf (chunks : List Chunk) : payload (othersOf chunks) = [] := by
  simp [payload, othersOf]

theorem payload_pieces (pieces : List ByteVector) :
    payload (pieces.map (Chunk.mk chunkIdat)) = pieces.flatten := by
  induction pieces with
  | nil => rfl
  | cons piece rest later => rw [map_cons, payload_idat rfl, later, flatten_cons]

theorem length_addIdat (state : ParseState) (data : ByteVector) :
    (state.addIdat data).png.idat.length = state.png.idat.length + data.length :=
  length_append

/-- A chunk that may stand between the first `IDAT` chunk and the last chunk. -/
def Chunk.Passing (chunk : Chunk) : Prop := chunk.type = chunkIdat ∨ chunk.Ancillary

def iend : Chunk := ⟨chunkIend, []⟩

theorem parseChunks_passing (passing : ∀ item ∈ items, item.Passing) (seen : state.seenIhdr = true)
    (filled : state.seenIdat = true ∨ ∃ item ∈ items, item.type = chunkIdat)
    (small : state.png.idat.length + (payload items).length ≤ maxCompressedBytes)
    (colored : ¬(state.png.ihdr.colorType = .palette ∧ state.png.palette = [])) :
    parseChunks state (items ++ [iend]) =
      .ok { state.png with idat := state.png.idat ++ payload items } := by
  induction items generalizing state with
  | nil =>
    have filled : state.seenIdat = true := by simpa using filled
    rw [nil_append, parseChunks_last (processChunk_iend seen) filled colored, payload,
      filter_nil, map_nil, flatten_nil, append_nil]
  | cons item items later =>
    rcases forall_mem_cons.mp passing with ⟨is | ancillary, passing⟩
    · rw [payload_idat is, length_append] at small
      have processed : processChunk state item.type item.data =
          .ok (state.addIdat item.data, false) := by
        rw [is]
        exact processChunk_idat seen (by omega)
      have rest := @later (state.addIdat item.data) passing seen (.inl rfl)
        (by rw [length_addIdat]; omega) colored
      rw [cons_append, parseChunks_next processed, rest, payload_idat is, ← append_assoc]
      rfl
    · have apart : item.type ≠ chunkIdat := ancillary.ne rfl
      rw [payload_other apart] at small ⊢
      rw [cons_append, parseChunks_next (processChunk_ancillary ancillary seen)]
      exact later passing seen (filled.imp_right fun some => by simpa [apart] using some) small
        colored

/-- After an `IDAT` chunk only chunks follow that may pass. -/
theorem passing_of_parseChunks (returned : parseChunks state chunks = .ok png)
    (filled : state.seenIdat = true) (small : state.png.idat.length ≤ maxCompressedBytes) :
    ∃ items, chunks = items ++ [iend] ∧ (∀ item ∈ items, item.Passing) ∧
      state.png.idat.length + (payload items).length ≤ maxCompressedBytes ∧
      ¬(state.png.ihdr.colorType = .palette ∧ state.png.palette = []) := by
  induction chunks generalizing state with
  | nil => cases returned
  | cons chunk rest later =>
    rcases parseChunks_cons_eq_ok returned with ⟨next, done, processed, last, more⟩
    cases processed_of_ok processed with
    | ihdr ihdr early | plte seen early | trns seen early =>
      rw [filled] at early
      cases early
    | iend seen is =>
      rcases last rfl with ⟨rfl, _, colored⟩
      refine ⟨[], congrArg (· :: []) is, forall_mem_nil _, small, colored⟩
    | idat seen fits is =>
      rcases later (more rfl) rfl (by rw [length_addIdat]; exact fits) with
        ⟨items, rfl, passing, fits, colored⟩
      refine ⟨chunk :: items, rfl, forall_mem_cons.mpr ⟨.inl is, passing⟩, ?_, colored⟩
      rw [length_addIdat] at fits
      rw [payload_idat is, length_append]
      omega
    | ancillary seen ancillary =>
      rcases later (more rfl) filled small with ⟨items, rfl, passing, fits, colored⟩
      refine ⟨chunk :: items, rfl, forall_mem_cons.mpr ⟨.inr ancillary, passing⟩, ?_, colored⟩
      rw [payload_other (ancillary.ne rfl)]
      exact fits

/-- Chunks that do not end the file lead to a state that the rest is read from. -/
theorem parseChunks_append {lead : List Chunk} (nonEmpty : rest ≠ [])
    (returned : parseChunks state (lead ++ rest) = .ok png)
    (small : state.png.idat.length ≤ maxCompressedBytes) :
    ∃ next, (∀ others, parseChunks state (lead ++ others) = parseChunks next others) ∧
      (lead ≠ [] ∨ state.seenIhdr = true → next.seenIhdr = true) ∧
      next.png.idat.length ≤ maxCompressedBytes := by
  induction lead generalizing state with
  | nil => exact ⟨state, fun _ => rfl, fun seen => seen.resolve_left (absurd rfl), small⟩
  | cons chunk lead later =>
    rcases parseChunks_cons_eq_ok returned with ⟨next, done, processed, last, more⟩
    have seen : next.seenIhdr = true ∧ next.png.idat.length ≤ maxCompressedBytes := by
      cases processed_of_ok processed with
      | ihdr => exact ⟨rfl, small⟩
      | plte seen | trns seen | iend seen | ancillary seen => exact ⟨seen, small⟩
      | idat seen fits => exact ⟨seen, by rw [length_addIdat]; exact fits⟩
    cases done with
    | true => exact absurd (append_eq_nil_iff.mp (last rfl).1).2 nonEmpty
    | false =>
      rcases later (more rfl) seen.2 with ⟨final, others, seenLater, fits⟩
      refine ⟨final, ?_, fun _ => seenLater (.inr seen.1), fits⟩
      intro rest
      rw [cons_append, parseChunks_next processed, others]

theorem passing_of_idat {first : Chunk} (is : first.type = chunkIdat)
    (returned : parseChunks state (first :: rest) = .ok png) :
    ∃ items, rest = items ++ [iend] ∧ (∀ item ∈ items, item.Passing) ∧ state.seenIhdr = true ∧
      state.png.idat.length + (payload (first :: items)).length ≤ maxCompressedBytes ∧
      ¬(state.png.ihdr.colorType = .palette ∧ state.png.palette = []) := by
  rcases parseChunks_cons_eq_ok returned with ⟨next, done, processed, _, more⟩
  cases processed_of_ok processed with
  | idat seen fits =>
    rcases passing_of_parseChunks (more rfl) rfl (by rw [length_addIdat]; exact fits) with
      ⟨items, ends, passing, small, colored⟩
    refine ⟨items, ends, passing, seen, ?_, colored⟩
    rw [length_addIdat] at small
    rw [payload_idat is, length_append]
    omega
  | ihdr _ _ wrong | plte _ _ wrong | trns _ _ _ wrong =>
    exact absurd (is.symm.trans wrong) (by decide)
  | iend _ wrong => exact absurd (is.symm.trans (congrArg Chunk.type wrong)) (by decide)
  | ancillary _ wrong => exact absurd is (wrong.ne rfl)

theorem Relaid.parseChunks_eq {other : List Chunk} (relaid : Relaid chunks other)
    (formed : ∀ chunk ∈ chunks, chunk.Formed) (parsed : parseChunks {} chunks = .ok png) :
    (∀ chunk ∈ other, chunk.Formed) ∧ parseChunks {} other = .ok png := by
  cases relaid with
  | insert chunk before after here ancillary =>
    rcases parseChunks_append after parsed (Nat.zero_le _) with ⟨next, others, seen, _⟩
    rw [others] at parsed ⊢
    rw [parseChunks_next (processChunk_ancillary ancillary (seen (.inl before)))]
    rw [forall_mem_append] at formed ⊢
    exact ⟨⟨formed.1, forall_mem_cons.mpr ⟨here, formed.2⟩⟩, parsed⟩
  | @split lead rest early late last first pieces is cut some same =>
    rcases parseChunks_append (cons_ne_nil _ _) parsed (Nat.zero_le _) with
      ⟨next, others, _, _⟩
    rw [others] at parsed ⊢
    rcases passing_of_idat is parsed with ⟨items, rfl, passing, seen, small, colored⟩
    have kept : othersOf (items ++ [iend]) = othersOf items ++ [iend] := filter_append ..
    rcases append_inj' (kept.symm.trans cut) rfl with ⟨middle, ends⟩
    cases ends
    have inside (chunk : Chunk) (member : chunk ∈ early ++ late) : chunk ∈ items :=
      mem_of_mem_filter (middle ▸ member)
    have empty : payload (early ++ late) = [] := middle ▸ payload_othersOf items
    rw [payload_append, append_eq_nil_iff] at empty
    have whole : payload (first :: (items ++ [iend])) = payload (first :: items) := by
      rw [payload_idat is, payload_idat is, payload_append, show payload [iend] = [] from rfl,
        append_nil]
    have payloads : payload (early ++ (pieces.map (Chunk.mk chunkIdat) ++ late)) =
        payload (first :: items) := by
      rw [payload_append, payload_append, empty.1, empty.2, payload_pieces, append_nil, ← whole]
      exact same
    rw [forall_mem_append] at formed inside
    have itemsFormed := (forall_mem_append.mp (forall_mem_cons.mp formed.2).2)
    constructor
    · simp only [forall_mem_append, forall_mem_map]
      refine ⟨formed.1, ⟨fun chunk member => itemsFormed.1 chunk (inside.1 chunk member), ?_,
        fun chunk member => itemsFormed.1 chunk (inside.2 chunk member)⟩, itemsFormed.2⟩
      intro piece member
      have shorter := (sublist_flatten_of_mem member).length_le
      rw [same, whole] at shorter
      exact ⟨rfl, Nat.le_trans shorter (Nat.le_trans (Nat.le_add_left _ _) small)⟩
    · have again : ∀ item ∈ early ++ (pieces.map (Chunk.mk chunkIdat) ++ late), item.Passing := by
        simp only [forall_mem_append, forall_mem_map]
        exact ⟨fun chunk member => passing chunk (inside.1 chunk member),
          fun piece _ => .inl rfl, fun chunk member => passing chunk (inside.2 chunk member)⟩
      rcases exists_mem_of_ne_nil pieces some with ⟨piece, member⟩
      have filled : ∃ item ∈ early ++ (pieces.map (Chunk.mk chunkIdat) ++ late),
          item.type = chunkIdat :=
        ⟨⟨chunkIdat, piece⟩, by simp [member], rfl⟩
      rw [← parsed, parseChunks_passing again seen (.inr filled) (payloads ▸ small) colored,
        payloads]
      exact (@parseChunks_passing next (first :: items)
        (forall_mem_cons.mpr ⟨.inl is, passing⟩) seen
        (.inr ⟨first, mem_cons_self, is⟩) small colored).symm

/-- An accepted file is a list of chunks, and in every other layout of them that fits in memory
it holds the same image. -/
theorem decodePng_relaid (zlib : Zlib) (input : ByteSpan) {image : Image}
    (decoded : decodePng zlib input.1 = .ok image) :
    ∃ chunks : List Chunk, (∀ chunk ∈ chunks, chunk.Formed) ∧ input.1 = fileOf zlib chunks ∧
      ∀ other, Relation.ReflTransGen Relaid chunks other →
        (fileOf zlib other).length ≤ maxSize → decodePng zlib (fileOf zlib other) = .ok image := by
  rcases bind_eq_ok.mp decoded with ⟨png, parsed, shaped⟩
  rcases chunks_of_parsePng input.2 parsed with ⟨chunks, formed, file, returned⟩
  refine ⟨chunks, formed, file, fun other relaid => ?_⟩
  have same : (∀ chunk ∈ other, chunk.Formed) ∧ parseChunks {} other = .ok png := by
    induction relaid with
    | refl => exact ⟨formed, returned⟩
    | tail _ step earlier => exact step.parseChunks_eq earlier.1 earlier.2
  intro fits
  rw [decodePng, parsePng_fileOf same.1 fits, same.2]
  exact shaped

/-- A red-green-blue pixel. -/
def pixelHeader : Chunk := ⟨chunkIhdr, headerBytes 1 1 .truecolor⟩

def pixelRest : List Chunk := [⟨chunkIdat, pixelStream⟩, iend]

theorem decodePng_relaid_pixel :
    ∃ image, decodePng pixelZlib pixelPng = .ok image ∧
      ∃ chunks : List Chunk, (∀ chunk ∈ chunks, chunk.Formed) ∧
        pixelPng = fileOf pixelZlib chunks ∧
        ∀ other, Relation.ReflTransGen Relaid chunks other →
          (fileOf pixelZlib other).length ≤ maxSize →
          decodePng pixelZlib (fileOf pixelZlib other) = .ok image := by
  have returned : (decodePng pixelZlib pixelPng).toOption.isSome = true := by decide +kernel
  rcases decoded : decodePng pixelZlib pixelPng with stop | image
  · rw [decoded] at returned
    cases returned
  · exact ⟨image, rfl, decodePng_relaid pixelZlib ⟨pixelPng, by decide⟩ decoded⟩

/-- The decoder refuses a chunk above its limit, also one that need not be understood. -/
theorem parsePng_tooLarge {type : ChunkType} {header data after : ByteVector} {ihdr : Ihdr}
    (parsed : parseIhdr header = .ok ihdr) (small : header.length ≤ maxChunkBytes)
    (large : maxChunkBytes < data.length) (counted : data.length ≤ maxUint32)
    (fits : bytes.length ≤ maxSize) (split : bytes = pngSignature ++
      (chunkOf zlib chunkIhdr header ++ (chunkOf zlib type data ++ after))) :
    parsePng zlib bytes = report (pngProtocolError "chunk is too large") := by
  have size : (UInt32.ofNat data.length).toNat = data.length :=
    UInt32.toNat_ofNat_of_lt (Nat.lt_succ_of_le counted)
  let before := pngSignature ++ chunkOf zlib chunkIhdr header
  let tail := type ++ (data ++ appendBe32 [] (chunkCrc zlib type data)) ++ after
  have whole : bytes = before ++ (appendBe32 [] (UInt32.ofNat data.length) ++ tail) := by
    simp only [split, chunkOf, before, tail, append_assoc]
  have offset : before.length = pngSignature.length + (chunkOf zlib chunkIhdr header).length :=
    length_append
  have long : before.length + pngChunkOverheadBytes ≤ bytes.length := by
    have enough : pngChunkOverheadBytes ≤ maxChunkBytes := by decide
    rw [whole]
    simp only [length_append, tail]
    omega
  have overhead : 0 < pngChunkOverheadBytes := by decide
  have signature : bytes.take pngSignature.length = pngSignature := by rw [split, take_left]
  have first := parseChunk_chunkOf {} rfl small fits split
  rw [processChunk_ihdr parsed, ok_bind, ← offset, ← parseRound_inside (by omega)] at first
  have fromLength := readBe32_append before tail (UInt32.ofNat data.length)
  rw [← whole] at fromLength
  rcases Nat.exists_eq_add_of_le' (show 1 ≤ bytes.length by omega) with ⟨fuel, enough⟩
  rw [parsePng, require_ok (by omega), ok_bind, subspan_ok (by omega), ok_bind, drop_zero,
    require_ok signature, ok_bind, enough, loop_inl first, loop, parseRound_inside (by omega),
    parseChunk, require_ok (hasBytes_iff.mpr long), ok_bind, fromLength, ok_bind, expect, ok_bind,
    size]
  unfold require
  dsimp only
  rw [if_neg (Nat.not_le_of_lt large)]
  rfl

/-- A text chunk above the limit. -/
def oversized : Chunk := ⟨[0x74, 0x45, 0x58, 0x74], List.replicate (maxChunkBytes + 1) 0⟩

theorem decodePng_oversized :
    pixelPng = fileOf pixelZlib (pixelHeader :: pixelRest) ∧ oversized.Ancillary ∧
      decodePng pixelZlib (fileOf pixelZlib (pixelHeader :: oversized :: pixelRest)) =
        .error (.reported (pngProtocolError "chunk is too large")) := by
  refine ⟨by decide +kernel, ⟨rfl, rfl, by decide⟩, ?_⟩
  have many : oversized.data.length = maxChunkBytes + 1 := length_replicate ..
  have refused : parsePng pixelZlib (fileOf pixelZlib (pixelHeader :: oversized :: pixelRest)) =
      report (pngProtocolError "chunk is too large") := by
    have length : (fileOf pixelZlib (pixelHeader :: oversized :: pixelRest)).length ≤ maxSize := by
      have parts : (pixelHeader.bytes pixelZlib).length = pngChunkOverheadBytes + 13 ∧
          (oversized.bytes pixelZlib).length = pngChunkOverheadBytes + (maxChunkBytes + 1) ∧
          (pixelRest.flatMap (Chunk.bytes pixelZlib)).length = 36 :=
        ⟨length_chunkOf _ _ rfl, many ▸ length_chunkOf _ _ rfl, by decide +kernel⟩
      rw [fileOf, flatMap_cons, flatMap_cons, length_append, length_append,
        length_append, parts.1, parts.2.1, parts.2.2]
      decide
    have header : parseIhdr (headerBytes 1 1 .truecolor) = .ok _ :=
      parseIhdr_headerBytes (by decide) (by decide) (by decide)
    apply parsePng_tooLarge header (by decide) _ _ length
    · rw [fileOf, flatMap_cons, flatMap_cons]
      rfl
    · rw [many]
      exact Nat.lt_succ_self _
    · rw [many]
      decide
  rw [decodePng, refused]
  rfl

end Grab.Codec
