import Grab.Lib.Checked
import Grab.Semantic.BrowserBridge

/-!
# Reads of any length

`append_read_bytes` and `drain_complete_frames` of `browser_bridge.cpp` with their indices: frames
are taken at a `consumed` offset, and the buffer is cut once at the end.
-/

namespace Grab.Semantic.Chunking

open Grab.Lib Checked List

/-- The `State` of a bridge, less the descriptor and the bus. -/
structure State where
  buffer : List Byte := []
  active : Bool := true
  deriving DecidableEq

def byteAt (bytes : List Byte) (offset : Nat) : Checked Empty Nat :=
  return (← itemAt bytes offset).toNat

def frameBodyLength (bytes : List Byte) (offset : Nat) : Checked Empty Nat :=
  return (← byteAt bytes offset) + (← byteAt bytes (offset + 1)) * 2 ^ 8 +
    (← byteAt bytes (offset + 2)) * 2 ^ 16 + (← byteAt bytes (offset + 3)) * 2 ^ 24

variable {Message : Type} (parse : List Byte → Option Message)

/-- One round of the loop: go on with a consumed count, or leave with the state and the count. -/
def drainRound (state : State) (pending : Nat × List Message) :
    Checked Empty (Nat × List Message ⊕ State × Nat × List Message) := do
  let (consumed, events) := pending
  let remaining ← subSize state.buffer.length consumed
  if remaining < frameHeaderBytes then return .inr (state, consumed, events)
  let bodyLength ← frameBodyLength state.buffer consumed
  if maxFrameBodyBytes < bodyLength then
    return .inr ({ buffer := [], active := false }, 0, events)
  let frameSize ← addSize frameHeaderBytes bodyLength
  if remaining < frameSize then return .inr (state, consumed, events)
  let body ← subspan state.buffer (consumed + frameHeaderBytes) bodyLength
  return .inl (consumed + frameSize, events ++ (parse body).toList)

def drainCompleteFrames (state : State) : Checked Empty (State × List Message) := do
  let (state, consumed, events) ←
    loop (drainRound parse state) (state.buffer.length + 1) (0, [])
  within consumed state.buffer.length
  return ({ state with buffer := state.buffer.drop consumed }, events)

def appendReadBytes (state : State) (bytes : List Byte) : State :=
  { state with buffer := state.buffer ++ bytes }

/-- A bridge that is not active does not read. -/
def read (state : State) (bytes : List Byte) : Checked Empty (State × List Message) :=
  if state.active then drainCompleteFrames parse (appendReadBytes state bytes)
  else return (state, [])

/-- Successive reads. -/
def readAll : State → List (List Byte) → Checked Empty (State × List Message)
  | state, [] => return (state, [])
  | state, bytes :: rest => do
    let (next, events) ← read parse state bytes
    let (last, later) ← readAll next rest
    return (last, events ++ later)

open BrowserBridge BrowserBridge.Connection

/-- Bytes at which a frame with too long a body begins. -/
def Oversized (rest : List Byte) : Prop :=
  frameHeaderBytes ≤ rest.length ∧ maxFrameBodyBytes < Semantic.frameBodyLength rest

/-- The events are the parses of the bodies of whole frames, up to the end of the stream or a header
of too long a body; an active bridge holds what is behind the frames. -/
def Drained (stream : List Byte) (state : State) (events : List Message) : Prop :=
  ∃ (frames : List (List Byte)) (rest : List Byte), stream = frames.flatMap encodeFrame ++ rest ∧
    (∀ body ∈ frames, body.length ≤ maxFrameBodyBytes) ∧ events = frames.filterMap parse ∧
    if state.active then state.buffer = rest ∧ Incomplete rest else Oversized rest

variable {parse} {state : State} {consumed : Nat} {before : List Message} {stream : List Byte}
  {bytes : List Byte}

theorem byteAt_ok {offset place : Nat} (inside : offset + place < bytes.length) :
    byteAt bytes (offset + place) = .ok ((bytes.drop offset).getD place 0).toNat := by
  rw [byteAt, itemAt_ok (getElem?_eq_getElem inside), getD_eq_getElem?_getD, getElem?_drop,
    getElem?_eq_getElem inside]
  rfl

theorem frameBodyLength_ok {offset : Nat} (inside : offset + frameHeaderBytes ≤ bytes.length) :
    frameBodyLength bytes offset = .ok (Semantic.frameBodyLength (bytes.drop offset)) := by
  unfold frameHeaderBytes at inside
  have first : byteAt bytes offset = _ := @byteAt_ok bytes offset 0 (by omega)
  rw [frameBodyLength, first, byteAt_ok (by omega), byteAt_ok (by omega), byteAt_ok (by omega)]
  rfl

theorem encodeFrame_header {zero one two three : Byte} {body : List Byte} (length : body.length =
      zero.toNat + one.toNat * 2 ^ 8 + two.toNat * 2 ^ 16 + three.toNat * 2 ^ 24) :
    encodeFrame body = [zero, one, two, three] ++ body := by
  have bounds := And.intro (And.intro zero.toNat_lt one.toNat_lt)
    (And.intro two.toNat_lt three.toNat_lt)
  rw [encodeFrame]
  congr 1
  simp only [cons.injEq, ← UInt8.toNat_inj, UInt8.toNat_ofNat', and_true]
  omega

/-- A frame is its body behind the length of the body. -/
theorem encodeFrame_take {input : List Byte} {length : Nat}
    (isLength : Semantic.frameBodyLength input = length)
    (whole : frameHeaderBytes + length ≤ input.length) :
    input.take (frameHeaderBytes + length) =
      encodeFrame ((input.drop frameHeaderBytes).take length) := by
  rcases input with _ | ⟨zero, _ | ⟨one, _ | ⟨two, _ | ⟨three, rest⟩⟩⟩⟩
  case cons.cons.cons.cons =>
    rw [frameHeaderBytes, length_cons, length_cons, length_cons, length_cons] at whole
    rw [encodeFrame_header, frameHeaderBytes, Nat.add_comm]
    · rfl
    rw [length_take_of_le, ← isLength, Semantic.frameBodyLength]
    · rfl
    · rw [frameHeaderBytes, drop_succ_cons]
      change length ≤ rest.length
      omega
  all_goals
    simp only [frameHeaderBytes, length_cons, length_nil] at whole
    omega

/-- What the rounds of the loop keep. -/
def Taken (parse : List Byte → Option Message) (buffer : List Byte)
    (pending : Nat × List Message) : Prop :=
  pending.1 ≤ buffer.length ∧ ∃ frames : List (List Byte),
    buffer.take pending.1 = frames.flatMap encodeFrame ∧
    (∀ body ∈ frames, body.length ≤ maxFrameBodyBytes) ∧ pending.2 = frames.filterMap parse

/-- What the loop leaves with. -/
def Left (parse : List Byte → Option Message) (buffer : List Byte)
    (result : State × Nat × List Message) : Prop :=
  result.2.1 ≤ result.1.buffer.length ∧
    Drained parse buffer { result.1 with buffer := result.1.buffer.drop result.2.1 } result.2.2

theorem Taken.frame {buffer : List Byte} {events : List Message}
    (taken : Taken parse buffer (consumed, events))
    (small : Semantic.frameBodyLength (buffer.drop consumed) ≤ maxFrameBodyBytes)
    (whole : frameHeaderBytes + Semantic.frameBodyLength (buffer.drop consumed) ≤
      (buffer.drop consumed).length) :
    Taken parse buffer (consumed + (frameHeaderBytes +
        Semantic.frameBodyLength (buffer.drop consumed)),
      events ++ (parse ((buffer.drop (consumed + frameHeaderBytes)).take
        (Semantic.frameBodyLength (buffer.drop consumed)))).toList) := by
  rcases taken with ⟨inside, frames, split, bounded, made⟩
  have body := encodeFrame_take rfl whole
  rw [drop_drop] at body
  have short := length_take_le (Semantic.frameBodyLength (buffer.drop consumed))
    (buffer.drop (consumed + frameHeaderBytes))
  generalize (buffer.drop (consumed + frameHeaderBytes)).take _ = last at *
  refine ⟨?_, frames ++ [last], ?_, ?_, ?_⟩
  · rw [length_drop] at whole
    exact Nat.add_le_of_le_sub' inside whole
  · rw [take_add, body, flatMap_append, flatMap_singleton]
    exact congrArg (· ++ _) split
  · intro other member
    rcases mem_append.mp member with earlier | isLast
    · exact bounded other earlier
    · rw [mem_singleton.mp isLast]
      exact Nat.le_trans short small
  rw [filterMap_append, ← made]
  cases isMessage : parse last with
  | none => rw [filterMap_cons_none isMessage]; rfl
  | some message => rw [filterMap_cons_some isMessage]; rfl

theorem drainRound_taken (active : state.active = true) (pending : Nat × List Message)
    (taken : Taken parse state.buffer pending) :
    Returns (Sum.elim (fun next => Taken parse state.buffer next ∧
        state.buffer.length - next.1 < state.buffer.length - pending.1)
      (Left parse state.buffer)) (drainRound parse state pending) := by
  rcases pending with ⟨consumed, events⟩
  have ⟨inside, frames, split, bounded, made⟩ := taken
  have stream := (take_append_drop consumed state.buffer).symm
  rw [split] at stream
  have left : (state.buffer.drop consumed).length = state.buffer.length - consumed := length_drop
  have stays : Incomplete (state.buffer.drop consumed) →
      Left parse state.buffer (state, consumed, events) := by
    intro incomplete
    refine ⟨inside, frames, _, stream, bounded, made, ?_⟩
    rw [if_pos active]
    exact ⟨rfl, incomplete⟩
  rw [drainRound, subSize_ok inside, ok_bind, ← left]
  split
  · rename_i short
    exact stays (.inl short)
  rename_i header
  rw [frameBodyLength_ok (by omega), ok_bind]
  split
  · rename_i long
    exact ⟨Nat.zero_le _, frames, _, stream, bounded, made, Nat.not_lt.mp header, long⟩
  rename_i fits
  have small := Nat.not_lt.mp fits
  rw [addSize_ok (by unfold frameHeaderBytes maxFrameBodyBytes maxSize at *; omega), ok_bind]
  split
  · rename_i short
    exact stays (.inr ⟨small, short⟩)
  rename_i whole
  have whole := Nat.not_lt.mp whole
  rw [subspan_ok (by omega), ok_bind]
  refine ⟨taken.frame small whole, ?_⟩
  dsimp only [frameHeaderBytes] at *
  omega

/-- The frames of a buffer are taken off its front, whatever they hold. -/
theorem drainCompleteFrames_drained (active : state.active = true) :
    Returns (fun after => Drained parse state.buffer after.1 after.2)
      (drainCompleteFrames parse state) := by
  rw [drainCompleteFrames]
  have ends : Returns (Left parse state.buffer)
      (loop (drainRound parse state) (state.buffer.length + 1) (0, [])) := by
    apply Meets.loop (Taken parse state.buffer) (fun pending => state.buffer.length - pending.1)
    case round =>
      intro pending taken
      apply (drainRound_taken active pending taken).weaken
      rintro (next | result) holds
      · exact holds
      · exact holds
    case enough => exact Nat.lt_succ_of_le (Nat.sub_le _ _)
    case holds => exact ⟨Nat.zero_le _, [], rfl, forall_mem_nil _, rfl⟩
  apply ends.bind
  rintro ⟨next, consumed, events⟩ ⟨inside, drained⟩
  dsimp only
  rw [within_ok inside, ok_bind]
  exact drained

/-- One more read of a stream. -/
theorem Drained.read (drained : Drained parse stream state before) (bytes : List Byte) :
    Returns (fun after => Drained parse (stream ++ bytes) after.1 (before ++ after.2))
      (read parse state bytes) := by
  rcases drained with ⟨frames, rest, split, bounded, made, stands⟩
  rw [Chunking.read]
  by_cases active : state.active = true
  · rw [if_pos active] at *
    have appended : (appendReadBytes state bytes).active = true := active
    apply (drainCompleteFrames_drained appended).weaken
    rintro ⟨next, events⟩ ⟨later, behind, split', bounded', made', stands'⟩
    refine ⟨frames ++ later, behind, ?_, ?_, ?_, stands'⟩
    · rw [flatMap_append, append_assoc, ← split', split, stands.1.symm, append_assoc]
      rfl
    · intro body member
      exact (mem_append.mp member).elim (bounded body) (bounded' body)
    · rw [filterMap_append, made]
      exact congrArg _ made'
  · rw [if_neg active] at *
    refine ⟨frames, rest ++ bytes, ?_, bounded, ?_, ?_⟩
    · rw [split, append_assoc]
    · exact (append_nil _).trans made
    rw [if_neg active]
    refine ⟨?_, ?_⟩
    · rw [length_append]
      exact Nat.le_add_right_of_le stands.1
    · rw [frameBodyLength_append (Nat.not_lt.mpr stands.1)]
      exact stands.2

theorem Drained.readAll (drained : Drained parse stream state before) (reads : List (List Byte)) :
    Returns (fun after => Drained parse (stream ++ reads.flatten) after.1 (before ++ after.2))
      (readAll parse state reads) := by
  induction reads generalizing state stream before with
  | nil =>
    rw [Chunking.readAll, flatten_nil, append_nil]
    exact (congrArg (Drained parse stream state) (append_nil before)).mpr drained
  | cons bytes rest later =>
    rw [Chunking.readAll]
    apply (drained.read bytes).bind
    rintro ⟨next, events⟩ one
    apply (later one).bind
    rintro ⟨last, others⟩ all
    rw [flatten_cons, ← append_assoc]
    exact (congrArg (Drained parse _ last) (append_assoc before events others)).mp all

/-- For every sequence of reads the bridge is never at fault, and what it drained and keeps is
what the bytes read so far say, however they were cut. -/
theorem readAll_drained (parse : List Byte → Option Message) (reads : List (List Byte)) :
    ∃ state events, readAll parse {} reads = .ok (state, events) ∧
      Drained parse reads.flatten state events := by
  have none_ : Drained parse [] {} [] := ⟨[], [], rfl, forall_mem_nil _, rfl, rfl, .inl (by decide)⟩
  have all := none_.readAll reads
  cases result : readAll parse {} reads with
  | ok after =>
    rw [result] at all
    exact ⟨_, _, rfl, all⟩
  | error stop =>
    rw [result] at all
    cases stop with
    | reported error => exact error.elim
    | fault fault => exact all.elim

end Grab.Semantic.Chunking
