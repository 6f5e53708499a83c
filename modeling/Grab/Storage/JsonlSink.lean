import Mathlib.Logic.Function.Basic
import Grab.Sequence.Types

/-!
# The event log

`storage/jsonl_sink.cpp`: lines are buffered and written, one batch for each run of lines of the
same date, to one file a day.  What the system calls answer is an input: a finite list of
replies, after which every call succeeds.

The serialised line of an event and its date are parameters.  Retention is unlimited, so that
`enforce_retention` only looks at the directory.
-/

namespace Grab.Storage

abbrev Bytes := List UInt8

/-- The answer to one system call.  A call that is not a `write` takes any count as success. -/
inductive Reply where
  | done
  | wrote (count : Nat)
  | interrupted
  | failed (cause : String)
  deriving DecidableEq, Repr

inductive Call where
  | close | exists | create | syncDirectory | openFile | write | fsync | scan
  deriving DecidableEq, Repr

structure BufferedLine (Date : Type) where
  date : Date
  line : Bytes
  deriving DecidableEq, Repr

/-- A sink, the directory it writes to and what the system will answer. -/
structure Sink (Date : Type) where
  bufferLimit : Nat
  buffer : List (BufferedLine Date) := []
  /-- The date whose file is open. -/
  currentDate : Option Date := none
  closed : Bool := false
  files : Date → Option Bytes := fun _ => none
  replies : List Reply := []
  /-- The system calls of the running call with their answers. -/
  calls : List (Call × Reply) := []

abbrev Result := Except Error Unit

def deviceInaccessible (step cause : String) : Error where
  code := .deviceInaccessible
  message := step ++ ": " ++ cause

namespace Sink

variable {Date Event : Type} [DecidableEq Date]

/-- Go on when nothing has failed. -/
def andThen (reached : Sink Date × Result) (next : Sink Date → Sink Date × Result) :
    Sink Date × Result :=
  match reached.2 with
  | .ok _ => next reached.1
  | .error error => (reached.1, .error error)

/-- One system call with its answer. -/
def answer (sink : Sink Date) (call : Call) (reply : Reply) : Sink Date :=
  { sink with calls := sink.calls ++ [(call, reply)] }

/-- One system call of which only success or failure matters. -/
def ask (sink : Sink Date) (call : Call) (failure : String → Error) : Sink Date × Result :=
  match sink.replies with
  | [] => (sink.answer call .done, .ok ())
  | reply :: rest =>
    ({ sink with replies := rest }.answer call reply,
      match reply with
      | .failed cause => .error (failure cause)
      | _ => .ok ())

def closeCurrentFile (sink : Sink Date) : Sink Date × Result :=
  match sink.currentDate with
  | none => (sink, .ok ())
  | some _ =>
    { sink with currentDate := none }.ask .close (deviceInaccessible "close")

/-- `StateDir::write_atomic` of an empty file. -/
def writeAtomic (sink : Sink Date) (date : Date) : Sink Date × Result :=
  let failure := fun cause => { code := .internalFault, message := cause }
  andThen (sink.ask .create failure) fun sink =>
    { sink with files := Function.update sink.files date (some []) }.ask .syncDirectory failure

def ensureFileExists (sink : Sink Date) (date : Date) : Sink Date × Result :=
  andThen (sink.ask .exists (deviceInaccessible "exists")) fun sink =>
    if (sink.files date).isSome then (sink, .ok ()) else sink.writeAtomic date

def openForDate (sink : Sink Date) (date : Date) : Sink Date × Result :=
  if sink.currentDate = some date then (sink, .ok ())
  else
    andThen sink.closeCurrentFile fun sink =>
    andThen (sink.ensureFileExists date) fun sink =>
    andThen (sink.ask .openFile (deviceInaccessible "open")) fun sink =>
      ({ sink with currentDate := some date }, .ok ())

def bytesPerMegabyte : Nat := 1048576

def append (sink : Sink Date) (date : Date) (bytes : Bytes) : Sink Date :=
  { sink with
    files := Function.update sink.files date (some ((sink.files date).getD [] ++ bytes)) }

/-- The loop of `write_all` on the open file of a date.  With no reply left every call writes all
it is given, a megabyte at most, until nothing is left. -/
def writeAllFrom (date : Date) : List Reply → Bytes → Sink Date → Sink Date × Result
  | replies, [], sink => ({ sink with replies := replies }, .ok ())
  | [], bytes, sink =>
    (({ sink with replies := [] }.append date bytes).answer .write (.wrote bytes.length), .ok ())
  | reply :: rest, bytes, sink =>
    let count := min bytes.length bytesPerMegabyte
    match reply with
    | .interrupted => writeAllFrom date rest bytes (sink.answer .write reply)
    | .failed cause =>
      ({ sink with replies := rest }.answer .write reply, .error (deviceInaccessible "write" cause))
    | .done =>
      writeAllFrom date rest (bytes.drop count)
        ((sink.append date (bytes.take count)).answer .write (.wrote count))
    | .wrote accepted =>
      if min accepted count = 0 then
        ({ sink with replies := rest }.answer .write (.failed "wrote zero bytes"),
          .error { code := .internalFault, message := "write: wrote zero bytes" })
      else
        writeAllFrom date rest (bytes.drop (min accepted count))
          ((sink.append date (bytes.take (min accepted count))).answer .write
            (.wrote (min accepted count)))

def writeAll (sink : Sink Date) (date : Date) (bytes : Bytes) : Sink Date × Result :=
  writeAllFrom date sink.replies bytes sink

/-- The loop of `fsync_current_file`. -/
def fsyncFrom : List Reply → Sink Date → Sink Date × Result
  | [], sink => ({ sink with replies := [] }.answer .fsync .done, .ok ())
  | .interrupted :: rest, sink => fsyncFrom rest (sink.answer .fsync .interrupted)
  | .failed cause :: rest, sink =>
    ({ sink with replies := rest }.answer .fsync (.failed cause),
      .error (deviceInaccessible "fsync" cause))
  | reply :: rest, sink => ({ sink with replies := rest }.answer .fsync reply, .ok ())

def fsyncCurrentFile (sink : Sink Date) : Sink Date × Result := fsyncFrom sink.replies sink

/-- A line as it stands in the file. -/
def ended (line : Bytes) : Bytes := line ++ [10]

/-- The buffer cut into runs of lines of one date. -/
def batches : List (BufferedLine Date) → List (Date × Bytes)
  | [] => []
  | line :: rest =>
    match batches rest with
    | [] => [(line.date, ended line.line)]
    | (date, bytes) :: later =>
      if date = line.date then (date, ended line.line ++ bytes) :: later
      else (line.date, ended line.line) :: (date, bytes) :: later

def flushBatches : List (Date × Bytes) → Sink Date → Sink Date × Result
  | [], sink => (sink, .ok ())
  | (date, bytes) :: rest, sink =>
    andThen (sink.openForDate date) fun sink =>
    andThen (sink.writeAll date bytes) fun sink =>
    andThen sink.fsyncCurrentFile fun sink =>
      flushBatches rest sink

def enforceRetention (sink : Sink Date) : Sink Date × Result :=
  sink.ask .scan (deviceInaccessible "is_regular_file")

def flush (sink : Sink Date) : Sink Date × Result :=
  if sink.closed ∨ sink.buffer = [] then (sink, .ok ())
  else
    andThen (flushBatches (batches sink.buffer) sink) fun sink =>
      { sink with buffer := [] }.enforceRetention

/-- How an event becomes a line of a day. -/
structure Format (Date Event : Type) where
  dateFromTimestamp : Event → Except Error Date
  serializeLine : Event → Except Error Bytes

/-- The line an event is buffered as. -/
def Format.buffered (format : Format Date Event) (event : Event) :
    Except Error (BufferedLine Date) :=
  match format.dateFromTimestamp event with
  | .error error => .error error
  | .ok date =>
    match format.serializeLine event with
    | .error error => .error error
    | .ok line => .ok { date := date, line := line }

def write (format : Format Date Event) (sink : Sink Date) (event : Event) : Sink Date × Result :=
  if sink.closed then
    (sink, .error { code := .sessionClosed, message := "jsonl sink is closed" })
  else
    match format.buffered event with
    | .error error => (sink, .error error)
    | .ok line =>
      let sink := { sink with buffer := sink.buffer ++ [line] }
      if sink.bufferLimit ≤ sink.buffer.length then sink.flush else (sink, .ok ())

end Sink

end Grab.Storage
