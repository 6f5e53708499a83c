import Mathlib.Logic.Function.Basic
import Grab.Sequence.Types

/-!
# The session registry

`session/registry.cpp` for one session name: its record, its lock file and the processes that
call `create`, `acquire_liveness_lock`, `is_live`, `remove` and `reap_dead` on them.  Every step
is one system call of one process.

A file is an inode.  `unlink` takes a name away and leaves the inode, its open files and their
locks.  An advisory lock belongs to one open file; a process that makes two uses of the registry
at once counts as two processes.  Closing a file that holds no lock has no effect and is part of
the step before it.
-/

namespace Grab.Session

abbrev Inode := Nat

abbrev ProcessId := Nat

/-- What a system call is answered with, where the file system does not decide it.  A loop of
reads or writes goes on after `partly`; any other call takes it as `done`. -/
inductive Outcome where
  | done | partly | failed
  deriving DecidableEq, Repr

/-- Who asked whether the session is live. -/
inductive Asker where
  | isLive | reapDead
  deriving DecidableEq, Repr

/-- Where a process stands: the system call it makes next. -/
inductive Point where
  | idle
  | createOpen | createWrite | createUnlink
  | acquireOpen | acquireLock (file : Inode)
  | probeOpen (asker : Asker) | probeLock (asker : Asker) (file : Inode)
  | probeUnlock (asker : Asker) (file : Inode)
  | listOpen | listRead
  | removeRecord (reaping : Bool) | removeLock (reaping : Bool)
  deriving DecidableEq, Repr

structure Process where
  point : Point := .idle
  /-- The locked file that `acquire_liveness_lock` returned and that is still open. -/
  held : Option Inode := none
  deriving DecidableEq, Repr

/-- The two names of a session in the registry's directory. -/
structure Directory where
  record : Option Inode := none
  lock : Option Inode := none
  nextInode : Inode := 0
  deriving DecidableEq, Repr

structure System extends Directory where
  /-- The process whose open file has the lock of an inode. -/
  owner : Inode → Option ProcessId := fun _ => none
  processes : ProcessId → Process := fun _ => {}

/-- What `reap_dead` did about the session. -/
inductive Reaped where
  | unlisted | live | removed | kept
  deriving DecidableEq, Repr

/-- What a call returns. -/
inductive Reply where
  | create (result : Except ErrorCode Unit)
  | acquire (result : Except ErrorCode Inode)
  | isLive (live : Bool)
  | remove (result : Except ErrorCode Unit)
  | reapDead (reaped : Reaped)

namespace System

/-! ## System calls -/

def put (system : System) (process : ProcessId) (state : Process) : System :=
  { system with processes := Function.update system.processes process state }

def moveTo (system : System) (process : ProcessId) (point : Point) : System :=
  system.put process { point := point, held := (system.processes process).held }

/-- `open` of the lock file with `O_CREAT`. -/
def openLock (system : System) : System × Inode :=
  match system.lock with
  | some file => (system, file)
  | none =>
    ({ system with lock := some system.nextInode, nextInode := system.nextInode + 1 },
      system.nextInode)

/-- `flock` with `LOCK_EX | LOCK_NB`. -/
def lockFile (system : System) (process : ProcessId) (file : Inode) : System :=
  { system with owner := Function.update system.owner file (some process) }

/-- `flock` with `LOCK_UN`, or `close` of a locked file. -/
def unlockFile (system : System) (file : Inode) : System :=
  { system with owner := Function.update system.owner file none }

def createRecord (system : System) : System :=
  { system with record := some system.nextInode, nextInode := system.nextInode + 1 }

def unlinkRecord (system : System) : System := { system with record := none }

def unlinkLock (system : System) : System := { system with lock := none }

/-! ## The calls, one system call at a time -/

/-- `is_live` has its answer.  `reap_dead` goes on to `remove` when it is no. -/
def answer (system : System) (process : ProcessId) (live : Bool) : Asker → System × Option Reply
  | .isLive => (system.moveTo process .idle, some (.isLive live))
  | .reapDead =>
    if live then (system.moveTo process .idle, some (.reapDead .live))
    else (system.moveTo process (.removeRecord true), none)

/-- `remove` returns to its caller, which is `reap_dead` or not. -/
def removed (system : System) (process : ProcessId) (reaping : Bool)
    (result : Except ErrorCode Unit) : System × Option Reply :=
  (system.moveTo process .idle,
    if reaping then
      match result with
      | .ok _ => some (.reapDead .removed)
      | .error _ => some (.reapDead .kept)
    else some (.remove result))

/-- The next system call of a process and, when its call returns, the reply. -/
def next (system : System) (process : ProcessId) (outcome : Outcome) : System × Option Reply :=
  match (system.processes process).point with
  | .idle => (system, none)
  | .createOpen =>
    if outcome = .failed then
      (system.moveTo process .idle, some (.create (.error .internalFault)))
    else if system.record.isSome then
      (system.moveTo process .idle, some (.create (.error .sessionExists)))
    else
      (system.createRecord.moveTo process .createWrite, none)
  | .createWrite =>
    match outcome with
    | .done => (system.moveTo process .idle, some (.create (.ok ())))
    | .partly => (system, none)
    | .failed => (system.moveTo process .createUnlink, none)
  | .createUnlink =>
    (system.unlinkRecord.moveTo process .idle, some (.create (.error .internalFault)))
  | .acquireOpen =>
    if outcome = .failed then
      (system.moveTo process .idle, some (.acquire (.error .internalFault)))
    else
      (system.openLock.1.moveTo process (.acquireLock system.openLock.2), none)
  | .acquireLock file =>
    if outcome = .failed then
      (system.moveTo process .idle, some (.acquire (.error .internalFault)))
    else if (system.owner file).isSome then
      (system.moveTo process .idle, some (.acquire (.error .sessionExists)))
    else
      ((system.lockFile process file).put process { point := .idle, held := some file },
        some (.acquire (.ok file)))
  | .probeOpen asker =>
    if outcome = .failed then
      system.answer process false asker
    else
      (system.openLock.1.moveTo process (.probeLock asker system.openLock.2), none)
  | .probeLock asker file =>
    if outcome = .failed then
      system.answer process false asker
    else if (system.owner file).isSome then
      system.answer process true asker
    else
      ((system.lockFile process file).moveTo process (.probeUnlock asker file), none)
  | .probeUnlock asker file =>
    (system.unlockFile file).answer process false asker
  | .listOpen =>
    if outcome = .failed ∨ system.record = none then
      (system.moveTo process .idle, some (.reapDead .unlisted))
    else
      (system.moveTo process .listRead, none)
  | .listRead =>
    match outcome with
    | .done => (system.moveTo process (.probeOpen .reapDead), none)
    | .partly => (system, none)
    | .failed => (system.moveTo process .idle, some (.reapDead .unlisted))
  | .removeRecord reaping =>
    if outcome = .failed then
      system.removed process reaping (.error .internalFault)
    else if system.record = none then
      system.removed process reaping (.error .sessionNotFound)
    else
      (system.unlinkRecord.moveTo process (.removeLock reaping), none)
  | .removeLock reaping =>
    if outcome = .failed then
      system.removed process reaping (.error .internalFault)
    else
      system.unlinkLock.removed process reaping (.ok ())

end System

/-! ## Processes -/

inductive Entry where
  | create | acquire | isLive | remove | reapDead
  deriving DecidableEq, Repr

def Entry.point : Entry → Point
  | .create => .createOpen
  | .acquire => .acquireOpen
  | .isLive => .probeOpen .isLive
  | .remove => .removeRecord false
  | .reapDead => .listOpen

inductive Action where
  | enter (process : ProcessId) (entry : Entry)
  | next (process : ProcessId) (outcome : Outcome)
  /-- A process closes the file `acquire_liveness_lock` returned. -/
  | release (process : ProcessId)
  /-- A process ends and all its files are closed. -/
  | exit (process : ProcessId)
  deriving DecidableEq, Repr

namespace System

/-- A call begins; it has made no system call yet. -/
def enter (system : System) (process : ProcessId) (entry : Entry) : System :=
  if (system.processes process).point ≠ .idle then system
  else if entry = .acquire ∧ (system.processes process).held.isSome then system
  else system.moveTo process entry.point

def release (system : System) (process : ProcessId) : System :=
  match (system.processes process).held with
  | none => system
  | some file =>
    (system.unlockFile file).put process { point := (system.processes process).point, held := none }

def exit (system : System) (process : ProcessId) : System :=
  { system.put process {} with
    owner := fun file => if system.owner file = some process then none else system.owner file }

def step (system : System) : Action → System
  | .enter process entry => system.enter process entry
  | .next process outcome => (system.next process outcome).1
  | .release process => system.release process
  | .exit process => system.exit process

/-- A directory as some earlier processes left it, and nobody at work. -/
def start (directory : Directory) : System := { directory with }

def run (directory : Directory) (actions : List Action) : System :=
  actions.foldl step (start directory)

end System

end Grab.Session
