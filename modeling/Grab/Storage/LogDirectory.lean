import Grab.Lib.Fallible
import Grab.Lib.Path
import Grab.Storage.JsonlSink
import Mathlib.Algebra.Ring.Nat
import Mathlib.Data.List.Lex
import Mathlib.Data.List.Sort

/-!
# The event log and its directory

`storage/jsonl_sink.cpp` with the directory it writes to: names stand for files, a descriptor goes
on writing to its file when the name is removed, and `enforce_retention` removes the oldest files
of the log.  Of a file only its size is kept, of a date its text.

No two names of the directory stand for one file through a symbolic link.
-/

namespace Grab.Storage

open Grab.Lib

open Grab.Lib.Decimal (Text)

structure JsonlOptions where
  bufferLimit : ℕ := 100
  maxFiles : ℕ := 30
  maxDiskMb : ℕ := 500

/-- A name in the directory and the file it stands for. -/
structure DirectoryEntry where
  name : Text
  file : ℕ
  regular : Bool := true
  size : ℕ
  deriving DecidableEq, Repr

/-- What was done to the files.  A write remembers whether the directory listed its file under the
name of its date. -/
inductive Deed where
  | wrote (date : Text) (file : ℕ) (listed : Bool)
  | removed (name : Text) (file : ℕ)
  deriving DecidableEq, Repr

/-- The descriptor that is open, with `current_date_`. -/
structure OpenFile where
  date : Text
  file : ℕ
  deriving DecidableEq, Repr

structure LogSink where
  options : JsonlOptions := {}
  buffer : List (BufferedLine Text) := []
  current : Option OpenFile := none
  closed : Bool := false
  entries : List DirectoryEntry
  /-- No file has this number yet. -/
  fresh : ℕ
  replies : List Reply := []
  deeds : List Deed := []

namespace LogSink

def jsonlSuffix : Text := Path.ascii ".jsonl"

/-- `path_for_date`, within the directory. -/
def nameForDate (date : Text) : Text := date ++ jsonlSuffix

/-- Whether the extension of a name is that of the log: a name that is nothing else has none. -/
def hasJsonlExtension (name : Text) : Bool := name ≠ jsonlSuffix && jsonlSuffix.isSuffixOf name

/-! ## Calls -/

def nextReply : StateM LogSink Reply :=
  modifyGet fun sink =>
    match sink.replies with
    | [] => (.done, sink)
    | reply :: rest => (reply, { sink with replies := rest })

def answerOf (failure : String → Error) : Reply → Except Error Unit
  | .failed cause => .error (failure cause)
  | _ => .ok ()

/-- A call of which only success or failure matters. -/
def ask (failure : String → Error) : StateM LogSink Result := do
  return answerOf failure (← nextReply)

def change (update : LogSink → LogSink) : StateM LogSink Result := do
  modify update
  return .ok ()

/-! ## Writing -/

def closeCurrentFile : StateM LogSink Result := do
  match (← get).current with
  | none => return .ok ()
  | some _ =>
    modify fun sink => { sink with current := none }
    ask (deviceInaccessible "close")

def entryNamed (sink : LogSink) (name : Text) : Option DirectoryEntry :=
  sink.entries.find? fun entry => entry.name = name

/-- `StateDir::write_atomic` of an empty file. -/
def writeAtomic (name : Text) : StateM LogSink Result :=
  let failure := fun cause => { code := .internalFault, message := cause }
  proceed (ask failure) fun _ =>
  proceed (change fun sink =>
    { sink with
      entries := sink.entries ++ [{ name, file := sink.fresh, size := 0 }]
      fresh := sink.fresh + 1 }) fun _ =>
  ask failure

def ensureFileExists (name : Text) : StateM LogSink Result :=
  proceed (ask (deviceInaccessible "exists")) fun _ => do
    match (← get).entryNamed name with
    | some _ => return .ok ()
    | none => writeAtomic name

def openFile (date : Text) : StateM LogSink Result := do
  match (← get).entryNamed (nameForDate date) with
  | none => return .error (deviceInaccessible "open" "No such file or directory")
  | some entry => change fun sink => { sink with current := some { date, file := entry.file } }

def openForDate (date : Text) : StateM LogSink Result := do
  if (← get).current.map (·.date) = some date then return .ok ()
  else
    proceed closeCurrentFile fun _ =>
    proceed (ensureFileExists (nameForDate date)) fun _ =>
    proceed (ask (deviceInaccessible "open")) fun _ =>
    openFile date

/-- Whether the directory lists a file under the name of a date. -/
def lists (sink : LogSink) (date : Text) (file : ℕ) : Bool :=
  sink.entries.any fun entry => entry.name = nameForDate date && entry.file = file

/-- So many bytes go to the file that is open. -/
def append (count : ℕ) (sink : LogSink) : LogSink :=
  match sink.current with
  | none => sink
  | some opened =>
    { sink with
      entries := sink.entries.map fun entry =>
        if entry.file = opened.file then { entry with size := entry.size + count } else entry
      deeds := sink.deeds ++ [.wrote opened.date opened.file (sink.lists opened.date opened.file)] }

/-- The loop of `write_all`, for the bytes that are left and for the replies that are left: with
none every call writes all it is given, a megabyte at most. -/
def writeAllFrom : List Reply → ℕ → StateM LogSink Result
  | replies, 0 => change fun sink => { sink with replies }
  | [], unwritten => change fun sink => { sink with replies := [] }.append unwritten
  | reply :: rest, unwritten =>
    let count := min unwritten Sink.bytesPerMegabyte
    match reply with
    | .interrupted => writeAllFrom rest unwritten
    | .failed cause => do
        modify fun sink => { sink with replies := rest }
        return .error (deviceInaccessible "write" cause)
    | .done =>
      proceed (change (append count)) fun _ => writeAllFrom rest (unwritten - count)
    | .wrote accepted =>
      if min accepted count = 0 then do
        modify fun sink => { sink with replies := rest }
        return .error { code := .internalFault, message := "write: wrote zero bytes" }
      else
        proceed (change (append (min accepted count))) fun _ =>
          writeAllFrom rest (unwritten - min accepted count)

def writeAll (bytes : Bytes) : StateM LogSink Result := do
  writeAllFrom (← get).replies bytes.length

/-- The loop of `fsync_current_file`. -/
def fsyncFrom : List Reply → StateM LogSink Result
  | [] => change fun sink => { sink with replies := [] }
  | .interrupted :: rest => fsyncFrom rest
  | reply :: rest => do
      modify fun sink => { sink with replies := rest }
      return answerOf (deviceInaccessible "fsync") reply

def fsyncCurrentFile : StateM LogSink Result := do
  fsyncFrom (← get).replies

def flushBatches : List (Text × Bytes) → StateM LogSink Result
  | [] => return .ok ()
  | batch :: rest =>
    proceed (openForDate batch.1) fun _ =>
    proceed (writeAll batch.2) fun _ =>
    proceed fsyncCurrentFile fun _ =>
    flushBatches rest

/-! ## Retention -/

structure JsonlFile where
  name : Text
  size : UInt64
  deriving DecidableEq, Repr

/-- The entries that `enforce_retention` looks at, in the order of the directory. -/
def scan : List DirectoryEntry → StateM LogSink (Except Error (List JsonlFile))
  | [] => return .ok []
  | entry :: rest =>
    if ¬hasJsonlExtension entry.name then scan rest
    else
      proceed (ask (deviceInaccessible "is_regular_file")) fun _ =>
        if ¬entry.regular then scan rest
        else
          proceed (ask (deviceInaccessible "file_size")) fun _ =>
          proceed (scan rest) fun files =>
          return .ok ({ name := entry.name, size := UInt64.ofNat entry.size } :: files)

def totalOf (files : List JsonlFile) : UInt64 := files.foldl (fun total file => total + file.size) 0

/-- Names are compared byte by byte. -/
def NotAfter (first second : JsonlFile) : Prop := Path.octets first.name ≤ Path.octets second.name

instance : DecidableRel NotAfter := fun first second =>
  inferInstanceAs (Decidable (Path.octets first.name ≤ Path.octets second.name))

def diskBudgetBytes (options : JsonlOptions) : UInt64 :=
  if (2 ^ 64 - 1) / Sink.bytesPerMegabyte < options.maxDiskMb then UInt64.ofNat (2 ^ 64 - 1)
  else UInt64.ofNat (options.maxDiskMb * Sink.bytesPerMegabyte)

/-- The file that is open is closed before it is removed. -/
def closeNamed (name : Text) : StateM LogSink Result := do
  if (← get).current.map (fun opened => nameForDate opened.date) = some name then closeCurrentFile
  else return .ok ()

/-- The name is gone, and the file with it. -/
def forget (name : Text) (sink : LogSink) : LogSink :=
  { sink with
    entries := sink.entries.filter (·.name ≠ name)
    deeds := sink.deeds ++ ((sink.entries.filter (·.name = name)).map fun entry =>
      .removed name entry.file) }

/-- The loop over the files, oldest first. -/
def removeOldest (options : JsonlOptions) : UInt64 → List JsonlFile → StateM LogSink Result
  | _, [] => return .ok ()
  | total, oldest :: rest =>
    if options.maxFiles < rest.length + 1 ∨ diskBudgetBytes options < total then
      proceed (closeNamed oldest.name) fun _ =>
      proceed (ask (deviceInaccessible "remove")) fun _ =>
      proceed (change (forget oldest.name)) fun _ =>
      removeOldest options (total - oldest.size) rest
    else return .ok ()

def enforceRetention : StateM LogSink Result := do
  let sink ← get
  proceed (ask fun cause => { code := .internalFault, message := cause }) fun _ =>
  proceed (scan sink.entries) fun files =>
  removeOldest sink.options (totalOf files) (files.insertionSort NotAfter)

/-! ## The sink -/

/-- All batches of the buffer are written. -/
def writeBuffer : StateM LogSink Result := do
  let sink ← get
  proceed (flushBatches (Sink.batches sink.buffer)) fun _ =>
  change fun sink => { sink with buffer := [] }

def flush : StateM LogSink Result := do
  let sink ← get
  if sink.closed ∨ sink.buffer = [] then return .ok ()
  else proceed writeBuffer fun _ => enforceRetention

def write {Event : Type} (format : Sink.Format Text Event) (event : Event) :
    StateM LogSink Result := do
  if (← get).closed then
    return .error { code := .sessionClosed, message := "jsonl sink is closed" }
  else
    match format.buffered event with
    | .error error => return .error error
    | .ok line =>
      modify fun sink => { sink with buffer := sink.buffer ++ [line] }
      let sink ← get
      if sink.options.bufferLimit ≤ sink.buffer.length then flush else return .ok ()

def close : StateM LogSink PUnit := do
  let _ ← flush
  let _ ← closeCurrentFile
  modify fun sink => { sink with closed := true }

end LogSink

end Grab.Storage
