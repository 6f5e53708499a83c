import Mathlib.Data.List.GetD
import Mathlib.Data.List.ReduceOption
import Mathlib.Algebra.Ring.Nat
import Grab.Lib.Framing

/-!
# The browser bridge

`drivers/semantic/webextension/browser_bridge.cpp`: length-prefixed messages read from a descriptor.
One callback reads one chunk, takes the complete frames off the buffer and then applies the flags
that end the bridge.  A hang-up may be reported while bytes are unread; what the one read of that
callback leaves is never read.

Bodies are decoded by a given function; the bridge publishes what it accepts.  `stop` and errors of
the descriptor are left out of the runs.
-/

namespace Grab.Semantic

open Grab.Lib List

abbrev Byte := UInt8

def frameHeaderBytes : Nat := 4

def readChunkBytes : Nat := 4096

def maxFrameBodyBytes : Nat := 1048576

/-- The first four bytes, the lowest first. -/
def frameBodyLength (bytes : List Byte) : Nat :=
  (bytes.getD 0 0).toNat + (bytes.getD 1 0).toNat * 2 ^ 8 + (bytes.getD 2 0).toNat * 2 ^ 16 +
    (bytes.getD 3 0).toNat * 2 ^ 24

/-- `EPOLLIN`, `EPOLLERR` and `EPOLLHUP` of a notification. -/
structure EventMask where
  readable : Bool
  error : Bool
  hangUp : Bool
  deriving DecidableEq

inductive ReadResult where
  | bytes (chunk : List Byte)
  | endOfFile
  | wouldBlock
  | failure
  deriving DecidableEq

structure BrowserBridge (Message : Type) where
  buffer : List Byte := []
  active : Bool := true
  /-- What was published, in order. -/
  published : List Message := []

namespace BrowserBridge

variable {Message : Type} (parse : List Byte → Option Message)

/-- One round of `drain_complete_frames`. -/
def splitFrame (buffer : List Byte) : Split Byte (Option Message) :=
  if buffer.length < frameHeaderBytes then .incomplete
  else if maxFrameBodyBytes < frameBodyLength buffer then .invalid
  else if buffer.length < frameHeaderBytes + frameBodyLength buffer then .incomplete
  else
    .frame (parse ((buffer.drop frameHeaderBytes).take (frameBodyLength buffer)))
      (buffer.drop (frameHeaderBytes + frameBodyLength buffer))

theorem frameBodyLength_append {buffer : List Byte} (whole : ¬buffer.length < frameHeaderBytes)
    (more : List Byte) : frameBodyLength (buffer ++ more) = frameBodyLength buffer := by
  unfold frameHeaderBytes at whole
  unfold frameBodyLength
  rw [getD_append _ _ _ _ (by omega), getD_append _ _ _ _ (by omega),
    getD_append _ _ _ _ (by omega), getD_append _ _ _ _ (by omega)]

/-- The frames of the bridge. -/
def framing : Framing Byte (Option Message) where
  split := splitFrame parse
  shorter := by
    intro input item rest isFrame
    unfold splitFrame at isFrame
    split at isFrame
    · cases isFrame
    split at isFrame
    · cases isFrame
    split at isFrame
    · cases isFrame
    cases isFrame
    rw [length_drop]
    unfold frameHeaderBytes at *
    omega
  frame_append := by
    intro input item rest more isFrame
    unfold splitFrame at isFrame ⊢
    split at isFrame
    · cases isFrame
    rename_i whole
    split at isFrame
    · cases isFrame
    rename_i bounded
    split at isFrame
    · cases isFrame
    rename_i complete
    cases isFrame
    unfold frameHeaderBytes at *
    rw [frameBodyLength_append whole, length_append, if_neg (by omega),
      if_neg bounded, if_neg (by omega), drop_append_of_le_length (by omega),
      take_append_of_le_length (by rw [length_drop]; omega),
      drop_append_of_le_length (by omega)]
  invalid_append := by
    intro input more isInvalid
    unfold splitFrame at isInvalid ⊢
    split at isInvalid
    · cases isInvalid
    rename_i whole
    split at isInvalid
    · rename_i oversized
      rw [frameBodyLength_append whole, if_neg (by rw [length_append]; omega), if_pos oversized]
    · split at isInvalid <;> cases isInvalid

def drainCompleteFrames (bridge : BrowserBridge Message) : BrowserBridge Message × List Message :=
  let drained := (framing parse).unframe bridge.buffer
  ({ bridge with buffer := drained.rest, active := bridge.active && drained.valid },
    drained.items.reduceOption)

def applyTerminalEvents (bridge : BrowserBridge Message) (events : EventMask) :
    BrowserBridge Message :=
  let active := bridge.active && !(events.hangUp || events.error)
  { bridge with active, buffer := if active then bridge.buffer else [] }

def handleFd (bridge : BrowserBridge Message) (events : EventMask) (read : ReadResult) :
    BrowserBridge Message :=
  if !(events.readable || events.error || events.hangUp) then bridge
  else if !bridge.active then bridge
  else
    let (after, pending) :=
      match read with
      | .endOfFile => ({ bridge with active := false }, [])
      | .failure => ({ bridge with active := false }, [])
      | .wouldBlock => (bridge, [])
      | .bytes chunk =>
        drainCompleteFrames parse { bridge with buffer := bridge.buffer ++ chunk }
    let ended := after.applyTerminalEvents events
    { ended with published := ended.published ++ pending }

/-! ## The peer and the kernel -/

/-- A bridge with its peer: bytes still to be written, and bytes written and not read. -/
structure Connection (Message : Type) where
  bridge : BrowserBridge Message
  toWrite : List Byte
  unread : List Byte
  closed : Bool

inductive Event where
  /-- The peer writes some of its bytes. -/
  | write (count : Nat)
  /-- The peer closes its end, after it wrote everything. -/
  | close
  /-- The kernel reports readiness; one read takes what the chunk holds, or less. -/
  | notify (readable hangUp : Bool) (count : Nat)
  deriving DecidableEq

namespace Connection

def start (stream : List Byte) : Connection Message where
  bridge := {}
  toWrite := stream
  unread := []
  closed := false

/-- How much of a chunk a read takes: at least a byte, at most the chunk. -/
def readLength (count : Nat) : Nat := min readChunkBytes (max 1 count)

def readOnce (connection : Connection Message) (count : Nat) : ReadResult :=
  if connection.unread = [] then
    if connection.closed then .endOfFile else .wouldBlock
  else .bytes (connection.unread.take (readLength count))

/-- A hang-up is reported of a peer that closed. -/
def step (connection : Connection Message) : Event → Connection Message
  | .write count =>
    if connection.closed then connection
    else
      { connection with
        toWrite := connection.toWrite.drop count
        unread := connection.unread ++ connection.toWrite.take count }
  | .close => if connection.toWrite = [] then { connection with closed := true } else connection
  | .notify readable hangUp count =>
    if connection.bridge.active = false ∨ (hangUp = true ∧ connection.closed = false) ∨
        (readable = false ∧ hangUp = false) then connection
    else
      { connection with
        bridge := connection.bridge.handleFd parse
          { readable, error := false, hangUp } (connection.readOnce count)
        unread := connection.unread.drop (readLength count) }

def run (connection : Connection Message) (events : List Event) : Connection Message :=
  events.foldl (step parse) connection

/-- The messages of complete frames at the front of some bytes. -/
def messages (bytes : List Byte) : List Message :=
  ((framing parse).unframe bytes).items.reduceOption

/-- A hang-up that is reported while the one read of its callback leaves no message behind. -/
def Careful (connection : Connection Message) : Event → Prop
  | .notify _ hangUp count =>
    connection.bridge.active = true → hangUp = true → connection.closed = true →
      messages parse (connection.bridge.buffer ++ connection.unread) =
        messages parse (connection.bridge.buffer ++ connection.unread.take (readLength count))
  | _ => True

def CarefulRun (connection : Connection Message) : List Event → Prop
  | [] => True
  | event :: rest =>
    connection.Careful parse event ∧ CarefulRun (connection.step parse event) rest

/-- What was read, and what the bridge made of it. -/
structure Received (stream received : List Byte) (connection : Connection Message) : Prop where
  stream : received ++ connection.unread ++ connection.toWrite = stream
  closed : connection.closed = true → connection.toWrite = []
  published : connection.bridge.published = messages parse received
  buffer : connection.bridge.active = true →
    connection.bridge.buffer = ((framing parse).unframe received).rest
  ended : connection.bridge.active = false → connection.closed = true

/-- A bridge that is not active any more published every message of the stream. -/
def Complete (stream : List Byte) (connection : Connection Message) : Prop :=
  connection.bridge.active = false → connection.bridge.published = messages parse stream

variable {parse} {stream received : List Byte} {connection : Connection Message} {body : List Byte}

theorem messages_append {input : List Byte} (valid : ((framing parse).unframe input).valid = true)
    (more : List Byte) :
    messages parse (input ++ more) =
      messages parse input ++ messages parse (((framing parse).unframe input).rest ++ more) := by
  unfold messages
  rw [((framing parse).unframe_append input more).2 valid, reduceOption_append]

namespace Received

theorem valid (known : Received parse stream received connection)
    (valid : ((framing parse).unframe stream).valid = true) (more : List Byte)
    (isPart : ∃ rest, connection.unread = more ++ rest) :
    ((framing parse).unframe (received ++ more)).valid = true := by
  rcases isPart with ⟨rest, parts⟩
  rw [← known.stream, parts, ← append_assoc, append_assoc _ rest] at valid
  exact Framing.valid_of_append valid

end Received

section Notify

variable {readable hangUp : Bool} {count : Nat}
  (isActive : connection.bridge.active = true)
  (ready : ¬((hangUp = true ∧ connection.closed = false) ∨ (readable = false ∧ hangUp = false)))

include isActive ready

theorem step_notify :
    connection.step parse (.notify readable hangUp count) =
      { connection with
        bridge := connection.bridge.handleFd parse
          { readable, error := false, hangUp } (connection.readOnce count)
        unread := connection.unread.drop (readLength count) } :=
  if_neg fun blocked => by
    rcases blocked with inactive | blocked
    · rw [isActive] at inactive
      cases inactive
    · exact ready blocked

theorem handleFd_eq (read : ReadResult) :
    connection.bridge.handleFd parse { readable, error := false, hangUp } read =
      match read with
      | .endOfFile => { connection.bridge with active := false, buffer := [] }
      | .failure => { connection.bridge with active := false, buffer := [] }
      | .wouldBlock =>
        { connection.bridge with
          active := !hangUp, buffer := if hangUp then [] else connection.bridge.buffer }
      | .bytes chunk =>
        let drained := (framing parse).unframe (connection.bridge.buffer ++ chunk)
        { active := drained.valid && !hangUp
          buffer := if drained.valid && !hangUp then drained.rest else []
          published := connection.bridge.published ++
            messages parse (connection.bridge.buffer ++ chunk) } := by
  have flagged : ¬(!(readable || false || hangUp)) = true := by
    intro quiet
    apply ready
    right
    cases readable with
    | true => cases quiet
    | false =>
      cases hangUp with
      | true => cases quiet
      | false => exact ⟨rfl, rfl⟩
  unfold handleFd
  rw [if_neg flagged, if_neg (by rw [isActive]; exact Bool.false_ne_true)]
  unfold applyTerminalEvents drainCompleteFrames
  cases read with
  | endOfFile | failure => simp
  | wouldBlock => cases hangUp <;> simp [isActive]
  | bytes chunk => cases hangUp <;> simp [isActive, messages]

end Notify

variable (known : Received parse stream received connection)

include known

variable (valid : ((framing parse).unframe stream).valid = true)

include valid

/-- A readiness report of an active bridge: it keeps to the stream, and ends with everything
published exactly when its read left no message behind. -/
theorem Received.notify (isActive : connection.bridge.active = true) {readable hangUp : Bool}
    (count : Nat)
    (ready : ¬((hangUp = true ∧ connection.closed = false) ∨ (readable = false ∧ hangUp = false))) :
    (∃ received', Received parse stream received'
        (connection.step parse (.notify readable hangUp count))) ∧
      (Complete parse stream (connection.step parse (.notify readable hangUp count)) ↔
        connection.Careful parse (.notify readable hangUp count)) := by
  have closed : hangUp = true → connection.closed = true := by
    intro isHangUp
    by_contra isOpen
    exact ready (.inl ⟨isHangUp, by simpa using isOpen⟩)
  rw [step_notify isActive ready, handleFd_eq isActive ready]
  unfold readOnce
  by_cases empty : connection.unread = []
  · rw [if_pos empty]
    have nothing : connection.Careful parse (.notify readable hangUp count) := by
      intro _ _ _
      rw [empty, take_nil]
    rw [empty, drop_nil]
    cases isClosed : connection.closed with
    | true =>
      -- The end of the stream.
      have all : received = stream := by
        have parts := known.stream
        rw [empty, known.closed isClosed, append_nil, append_nil] at parts
        exact parts
      refine ⟨⟨received, ?_⟩, iff_of_true (fun _ => ?_) nothing⟩
      · constructor
        case stream => simpa [empty] using known.stream
        case closed => exact fun _ => known.closed isClosed
        case published => exact known.published
        case buffer => exact nofun
        case ended => exact fun _ => rfl
      · rw [← all]
        exact known.published
    | false =>
      have quiet : hangUp = false := by
        cases isHangUp : hangUp with
        | false => rfl
        | true =>
          rw [closed isHangUp] at isClosed
          cases isClosed
      rw [quiet] at nothing ⊢
      refine ⟨⟨received, ?_⟩, iff_of_true nofun nothing⟩
      constructor
      case stream => simpa [empty] using known.stream
      case closed => exact nofun
      case published => exact known.published
      case buffer => exact fun _ => known.buffer isActive
      case ended => exact nofun
  · rw [if_neg empty]
    dsimp only
    have parts := take_append_drop (readLength count) connection.unread
    have before : ((framing parse).unframe received).valid = true := by
      have none_ := known.valid valid [] ⟨connection.unread, rfl⟩
      rwa [append_nil] at none_
    have after : ((framing parse).unframe
        (received ++ connection.unread.take (readLength count))).valid = true :=
      known.valid valid _ ⟨_, parts.symm⟩
    have appended := ((framing parse).unframe_append received
      (connection.unread.take (readLength count))).2 before
    rw [← known.buffer isActive] at appended
    have isValid : ((framing parse).unframe (connection.bridge.buffer ++
        connection.unread.take (readLength count))).valid = true := by
      rw [appended] at after
      exact after
    have published : ∀ more, connection.bridge.published ++
        messages parse (connection.bridge.buffer ++ more) = messages parse (received ++ more) := by
      intro more
      rw [messages_append before, known.published, known.buffer isActive]
    rw [isValid]
    refine ⟨⟨received ++ connection.unread.take (readLength count), ?_⟩, ?_⟩
    · constructor
      case stream =>
        dsimp only
        rw [append_assoc received, parts]
        exact known.stream
      case closed => exact known.closed
      case published => exact published _
      case buffer =>
        intro stillActive
        dsimp only at stillActive ⊢
        rw [if_pos stillActive, appended]
      case ended =>
        intro isEnded
        apply closed
        simpa using isEnded
    · cases isHangUp : hangUp with
      | false =>
        refine iff_of_true ?_ ?_
        · exact nofun
        · exact fun _ impossible => nomatch impossible
      | true =>
        have whole : received ++ connection.unread = stream := by
          have parts := known.stream
          rwa [known.closed (closed isHangUp), append_nil] at parts
        unfold Complete Careful
        dsimp only
        rw [published, ← whole, ← published connection.unread, ← published, append_cancel_left_eq]
        constructor
        · intro same _ _ _
          exact (same rfl).symm
        · intro same _
          exact (same isActive rfl (closed isHangUp)).symm

/-- Every event keeps to the stream, and completeness holds on exactly as long as hang-ups are
careful. -/
theorem Received.step (complete : Complete parse stream connection) (event : Event) :
    (∃ received', Received parse stream received' (connection.step parse event)) ∧
      (Complete parse stream (connection.step parse event) ↔ connection.Careful parse event) := by
  have same : connection.step parse event = connection → connection.Careful parse event →
      (∃ received', Received parse stream received' (connection.step parse event)) ∧
      (Complete parse stream (connection.step parse event) ↔ connection.Careful parse event) := by
    intro unchanged careful
    rw [unchanged]
    exact ⟨⟨received, known⟩, iff_of_true complete careful⟩
  cases event with
  | write count =>
    by_cases isClosed : connection.closed = true
    · exact same (if_pos isClosed) trivial
    refine ⟨⟨received, ?_⟩, iff_of_true ?_ trivial⟩
    · rw [Connection.step, if_neg isClosed]
      refine { known with stream := ?_, closed := fun impossible => absurd impossible isClosed }
      rw [← known.stream, append_assoc received, append_assoc, append_assoc, take_append_drop]
    · rw [Connection.step, if_neg isClosed]
      exact complete
  | close =>
    by_cases written : connection.toWrite = []
    · refine ⟨⟨received, ?_⟩, iff_of_true ?_ trivial⟩
      · rw [Connection.step, if_pos written]
        exact { known with closed := fun _ => written, ended := fun _ => rfl }
      · rw [Connection.step, if_pos written]
        exact complete
    · exact same (if_neg written) trivial
  | notify readable hangUp count =>
    by_cases isActive : connection.bridge.active = true
    · by_cases ready : (hangUp = true ∧ connection.closed = false) ∨
          (readable = false ∧ hangUp = false)
      · refine same (if_pos (.inr ready)) ?_
        intro _ isHangUp isClosed
        rw [isHangUp, isClosed] at ready
        rcases ready with ⟨_, impossible⟩ | ⟨_, impossible⟩
        · cases impossible
        · cases impossible
      · exact known.notify valid isActive count ready
    · refine same (if_pos (.inl (by simpa using isActive))) ?_
      exact fun impossible => absurd impossible isActive

omit valid known

theorem Received.run (events : List Event) (known : Received parse stream received connection)
    (valid : ((framing parse).unframe stream).valid = true)
    (complete : Complete parse stream connection) :
    (∀ made, Complete parse stream (connection.run parse (events.take made))) ↔
      CarefulRun parse connection events := by
  induction events generalizing connection received with
  | nil => exact iff_of_true (fun made => by rw [take_nil]; exact complete) trivial
  | cons event rest later =>
    have ⟨⟨_, next⟩, exact_⟩ := known.step valid complete event
    constructor
    · intro all
      have first : Complete parse stream (connection.step parse event) := all 1
      exact ⟨exact_.mp first, (later next first).mp fun made => all (made + 1)⟩
    rintro ⟨careful, others⟩ made
    have first := exact_.mpr careful
    cases made with
    | zero => exact complete
    | succ made => exact (later next first).mpr others made

/-! ## Streams of frames -/

/-- A message as the extension writes it: the length of the body, then the body. -/
def encodeFrame (body : List Byte) : List Byte :=
  [UInt8.ofNat body.length, UInt8.ofNat (body.length / 2 ^ 8), UInt8.ofNat (body.length / 2 ^ 16),
    UInt8.ofNat (body.length / 2 ^ 24)] ++ body

/-- Bytes at which no complete frame begins. -/
def Incomplete (rest : List Byte) : Prop :=
  rest.length < frameHeaderBytes ∨
    frameBodyLength rest ≤ maxFrameBodyBytes ∧ rest.length < frameHeaderBytes + frameBodyLength rest

theorem frameBodyLength_encodeFrame (bounded : body.length ≤ maxFrameBodyBytes) (more : List Byte) :
    frameBodyLength (encodeFrame body ++ more) = body.length := by
  unfold maxFrameBodyBytes at bounded
  change (UInt8.ofNat body.length).toNat + (UInt8.ofNat (body.length / 2 ^ 8)).toNat * 2 ^ 8 +
    (UInt8.ofNat (body.length / 2 ^ 16)).toNat * 2 ^ 16 +
    (UInt8.ofNat (body.length / 2 ^ 24)).toNat * 2 ^ 24 = body.length
  simp only [UInt8.toNat_ofNat']
  omega

theorem split_encodeFrame (bounded : body.length ≤ maxFrameBodyBytes) (more : List Byte) :
    (framing parse).split (encodeFrame body ++ more) = .frame (parse body) more := by
  have length : (encodeFrame body ++ more).length = 4 + body.length + more.length := by
    unfold encodeFrame
    simp only [length_append, length_cons, length_nil]
  have header : (encodeFrame body ++ more).drop 4 = body ++ more := rfl
  change splitFrame parse (encodeFrame body ++ more) = _
  unfold splitFrame frameHeaderBytes
  rw [frameBodyLength_encodeFrame bounded, if_neg (by omega), if_neg (by omega),
    if_neg (by omega), ← drop_drop, header, take_left, drop_left]

theorem unframe_frames (parse : List Byte → Option Message) (frames : List (List Byte))
    (bounded : ∀ body ∈ frames, body.length ≤ maxFrameBodyBytes) {rest : List Byte}
    (incomplete : Incomplete rest) :
    ((framing parse).unframe (frames.flatMap encodeFrame ++ rest)).valid = true ∧
      messages parse (frames.flatMap encodeFrame ++ rest) = frames.filterMap parse := by
  unfold messages
  induction frames with
  | nil =>
    have none_ : (framing parse).split rest = .incomplete := by
      change splitFrame parse rest = _
      unfold splitFrame
      rcases incomplete with short | ⟨small, short⟩
      · rw [if_pos short]
      · split
        · rfl
        · rw [if_neg (by omega)]
    rw [flatMap_nil, nil_append, Framing.unframe_incomplete none_]
    exact ⟨rfl, rfl⟩
  | cons body frames later =>
    have ⟨valid, items⟩ := later fun other isRest => bounded other (mem_cons_of_mem _ isRest)
    rw [flatMap_cons, append_assoc,
      Framing.unframe_frame (split_encodeFrame (bounded body mem_cons_self) _)]
    refine ⟨valid, ?_⟩
    cases isMessage : parse body with
    | none => rw [reduceOption_cons_of_none, items, filterMap_cons_none isMessage]
    | some message =>
      rw [reduceOption_cons_of_some, items, filterMap_cons_some isMessage]

/-- For every stream of frames and every order of writes and reports: the bridge has published every
message, in order and once, when it ends, if and only if no hang-up was reported while the one read
of its callback left a message behind. -/
theorem published_at_hangUp_iff (parse : List Byte → Option Message) (frames : List (List Byte))
    (bounded : ∀ body ∈ frames, body.length ≤ maxFrameBodyBytes) (rest : List Byte)
    (incomplete : Incomplete rest) (events : List Event) :
    (∀ made, let after := (start (frames.flatMap encodeFrame ++ rest)).run parse (events.take made)
      after.bridge.active = false → after.bridge.published = frames.filterMap parse) ↔
      CarefulRun parse (start (frames.flatMap encodeFrame ++ rest)) events := by
  have ⟨valid, items⟩ := unframe_frames parse frames bounded incomplete
  have known : Received parse (frames.flatMap encodeFrame ++ rest) []
      (start (frames.flatMap encodeFrame ++ rest)) := by
    constructor
    case stream => rfl
    case closed => exact nofun
    case published => rfl
    case buffer => exact fun _ => rfl
    case ended => exact nofun
  rw [← known.run events valid nofun]
  unfold Complete
  rw [items]

/-- The peer writes some bytes and closes; the first report is of both. -/
def writeAndClose (count : Nat) : List Event :=
  [.write count, .close, .notify true true readChunkBytes]

/-- A message that fits one read. -/
theorem published_at_hangUp_short :
    ((start ([[0x7b, 0x7d]].flatMap encodeFrame ++ [])).run List.head?
      ((writeAndClose 6).take 3)).bridge.published = [[0x7b, 0x7d]].filterMap List.head? := by
  refine (published_at_hangUp_iff List.head? [[0x7b, 0x7d]] ?_ [] ?_ (writeAndClose 6)).mpr ?_ 3 ?_
  · intro body isFrame
    rw [mem_singleton.mp isFrame]
    decide
  · exact .inl (by decide)
  · refine ⟨trivial, trivial, ?_, trivial⟩
    intro _ _ _
    decide +kernel
  · decide +kernel

/-- A message of 5000 bytes: the hang-up comes with the first chunk, and the rest is never read. -/
theorem published_at_hangUp_long :
    let body : List Byte := List.replicate 5000 0x20
    let after := (start (encodeFrame body)).run List.head? (writeAndClose 5004)
    after.bridge.active = false ∧ after.bridge.published = [] ∧
      [body].filterMap List.head? = [0x20] := by
  decide +kernel

end Connection

end BrowserBridge

end Grab.Semantic
