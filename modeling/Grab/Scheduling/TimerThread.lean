import Mathlib.Order.Basic
import Mathlib.Data.Int.Order.Basic

/-!
# The timer thread

`kernel/scheduling/timer_thread.cpp`.  A step is what one thread does under the mutex or one
system call on one of the three descriptors.  `arm`, `cancel` and `stop` write to the control
descriptor after they have released the mutex, so each of them is two steps.

Descriptors behave as `eventfd` and `timerfd` do: an event descriptor is readable while its
count is positive and a read sets the count to zero; the timer is readable from the time it is
set to until it is read or set again.  The clock does not run backwards.  Tallies, counters and
log records are left out, and with them `timer_armed_for_`, which only they read.
-/

namespace Grab.Scheduling

abbrev Token := Nat

structure Entry where
  token : Token
  deadline : Int
  deriving DecidableEq, Repr

/-- Where the worker stands: what it does next. -/
inductive Worker where
  | collect
  | armTimer (next : Option Int)
  | poll
  | drainTimer (control : Bool)
  | drainControl
  | ended
  deriving DecidableEq, Repr

/-- A call that has left its locked part and not yet signalled. -/
inductive Signal where
  | arm (token : Token)
  | cancel (token : Token)
  | stop
  deriving DecidableEq, Repr

/-- What callers have seen, the newest first. -/
inductive Seen where
  | armed (token : Token) (deadline : Int)
  | cancelled (token : Token)
  | drained (tokens : List Token) (time : Nat)
  deriving DecidableEq, Repr

structure Timers where
  clock : Nat
  armed : List Entry := []
  due : List Token := []
  nextToken : Token := 1
  stopping : Bool := false
  /-- Counts of the event descriptors. -/
  wakeFd : Nat := 0
  controlFd : Nat := 0
  /-- The time the timer is set to and has not been read since. -/
  timerFd : Option Nat := none
  worker : Worker := .collect
  signals : List Signal := []
  history : List Seen := []
  deriving Repr

namespace Timers

/-! ## Calls -/

/-- The locked part of `arm`. -/
def arm (timers : Timers) (deadline : Int) : Timers :=
  let token := timers.nextToken
  let issued :=
    { timers with
      nextToken := token + 1
      history := .armed token deadline :: timers.history }
  if timers.stopping then issued
  else
    { issued with
      armed := timers.armed ++ [{ token := token, deadline := deadline }]
      signals := .arm token :: timers.signals }

/-- The locked part of `cancel`. -/
def cancel (timers : Timers) (token : Token) : Timers :=
  { timers with
    armed := timers.armed.filter fun entry => entry.token != token
    due := timers.due.filter fun other => other != token
    signals := .cancel token :: timers.signals
    history := .cancelled token :: timers.history }

/-- The locked part of `stop`. -/
def stop (timers : Timers) : Timers :=
  { timers with stopping := true, signals := .stop :: timers.signals }

/-- `signal_fd` of the control descriptor, at the end of a call. -/
def signal (timers : Timers) (signal : Signal) : Timers :=
  if signal ∈ timers.signals then
    { timers with
      signals := timers.signals.erase signal
      controlFd := timers.controlFd + 1 }
  else timers

/-- `drain`: the tokens that are due, with the readability cleared under the same lock. -/
def drain (timers : Timers) : Timers × List Token :=
  ({ timers with
      due := []
      wakeFd := 0
      history := .drained timers.due timers.clock :: timers.history },
    timers.due)

/-! ## The worker -/

/-- `collect_due_locked` at the time of the clock. -/
def collectDueLocked (timers : Timers) : Timers × Option Int :=
  let expired := timers.armed.filter fun entry => entry.deadline ≤ (timers.clock : Int)
  let waiting := timers.armed.filter fun entry => (timers.clock : Int) < entry.deadline
  ({ timers with
      armed := waiting
      due := timers.due ++ expired.map Entry.token
      wakeFd := if expired = [] then timers.wakeFd else timers.wakeFd + 1 },
    (waiting.map Entry.deadline).min?)

/-- The absolute time the timer is set to: a time of zero would switch it off. -/
def absoluteSpec (deadline : Int) : Nat := (max deadline 1).toNat

def armTimer (timers : Timers) (deadline : Option Int) : Timers :=
  { timers with timerFd := deadline.map absoluteSpec }

def timerReadable (timers : Timers) : Bool :=
  match timers.timerFd with
  | none => false
  | some time => time ≤ timers.clock

/-- What `poll` may answer when it is not interrupted. -/
inductive PollReply where
  | ready | interrupted | failed
  deriving DecidableEq, Repr

/-- One step of `run`. -/
def work (timers : Timers) (reply : PollReply) : Timers :=
  match timers.worker with
  | .collect =>
    if timers.stopping then { timers with worker := .ended }
    else
      let (collected, next) := timers.collectDueLocked
      { collected with worker := .armTimer next }
  | .armTimer next => { timers.armTimer next with worker := .poll }
  | .poll =>
    match reply with
    | .interrupted => { timers with worker := .collect }
    | .failed => { timers with worker := .ended }
    | .ready =>
      if timers.timerReadable then
        { timers with worker := .drainTimer (0 < timers.controlFd) }
      else if 0 < timers.controlFd then
        { timers with worker := .drainControl }
      else timers
  | .drainTimer control =>
    { timers with
      timerFd := if timers.timerReadable then none else timers.timerFd
      worker := if control then .drainControl else .collect }
  | .drainControl =>
    -- A read that finds the count at zero ends the loop.
    if timers.controlFd = 0 then { timers with worker := .collect }
    else { timers with controlFd := 0 }
  | .ended => timers

/-! ## Runs -/

inductive Step where
  | arm (deadline : Int)
  | cancel (token : Token)
  | stop
  | signal (signal : Signal)
  | drain
  | work (reply : PollReply)
  | tick (elapsed : Nat)
  deriving DecidableEq, Repr

def step (timers : Timers) : Step → Timers
  | .arm deadline => timers.arm deadline
  | .cancel token => timers.cancel token
  | .stop => timers.stop
  | .signal signal => timers.signal signal
  | .drain => timers.drain.1
  | .work reply => timers.work reply
  | .tick elapsed => { timers with clock := timers.clock + elapsed }

def run (clock : Nat) (steps : List Step) : Timers := steps.foldl step { clock := clock }

end Timers

end Grab.Scheduling
