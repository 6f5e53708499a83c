import Grab.Scheduling.TimerThread

/-!
# The reactor

`kernel/scheduling/reactor.cpp`.  A step is what one thread does under the mutex, one system call,
or one callback of the loop.  `enqueue` and `stop` write to the wake descriptor after they have let
go of the mutex or set the flag, so each of them is two steps, and the write may come late.  What a
callback posts is enqueued as anything else is.

The heap of timers is a list of which an earliest one is taken; among equals any may be.  The set of
interest events of a descriptor and the callbacks themselves are left out; a callback is known by
its token or its number.
-/

namespace Grab.Scheduling

inductive PendingOp where
  | addFd (token : Token) (fd : Nat)
  | removeFd (token : Token)
  | addTimer (token : Token) (delay : Int)
  | task (number : Nat)
  deriving DecidableEq, Repr

structure FdRegistration where
  token : Token
  fd : Nat
  deriving DecidableEq, Repr

structure TimerRegistration where
  token : Token
  deadline : Int
  deriving DecidableEq, Repr

/-- What an entry of `epoll_wait` is about. -/
inductive Ready where
  | wake
  | timer
  | fd (token : Token)
  deriving DecidableEq, Repr

/-- Where the loop stands: what it does next. -/
inductive Loop where
  | swap
  | operations (rest : List PendingOp)
  | timers (now : Nat)
  | arm
  /-- Blocked, with a timeout in milliseconds if there is one. -/
  | wait (timeout : Option Nat)
  | dispatch (ready : List Ready)
  | returned
  deriving DecidableEq, Repr

/-- What happened in the loop. -/
inductive Happened where
  | removed (token : Token)
  | called (token : Token)
  | fired (timer : TimerRegistration) (now : Nat)
  deriving DecidableEq, Repr

inductive ControlReply where
  | done
  /-- The descriptor is closed, or not in the set any more. -/
  | gone
  | refused
  deriving DecidableEq, Repr

inductive WaitReply where
  | ready (events : List Ready)
  | interrupted
  | failed
  deriving DecidableEq, Repr

/-- What a step of the loop gets from outside. -/
structure Answer where
  control : ControlReply := .done
  /-- Which of the earliest timers the heap yields. -/
  front : Nat := 0
  throws : Bool := false
  arms : Bool := true
  wait : WaitReply := .interrupted
  deriving Repr

structure Reactor where
  clock : Nat
  /-- There is a timer descriptor. -/
  precise : Bool
  pendingOps : List PendingOp := []
  stopRequested : Bool := false
  nextToken : Token := 1
  /-- Tokens that were taken and are not enqueued yet. -/
  taken : List Token := []
  /-- Writes to the wake descriptor that are still to come. -/
  signals : Nat := 0
  wakeFd : Nat := 0
  timerFd : Option Int := none
  fds : List FdRegistration := []
  timers : List TimerRegistration := []
  cancelledTokens : List Token := []
  loop : Loop := .swap
  enqueued : List PendingOp := []
  executed : List PendingOp := []
  /-- The newest first. -/
  history : List Happened := []
  deriving Repr

namespace Reactor

/-! ## Calls -/

/-- The token of `add_fd` and `add_timer`. -/
def takeToken (reactor : Reactor) : Reactor :=
  { reactor with
    nextToken := reactor.nextToken + 1
    taken := reactor.nextToken :: reactor.taken }

def push (reactor : Reactor) (op : PendingOp) : Reactor :=
  { reactor with
    pendingOps := reactor.pendingOps ++ [op]
    enqueued := reactor.enqueued ++ [op]
    signals := reactor.signals + 1 }

/-- The locked part of `enqueue`; an addition comes with a token of its own. -/
def enqueue (reactor : Reactor) (op : PendingOp) : Reactor :=
  match op with
  | .addFd token _ | .addTimer token _ =>
    if token ∈ reactor.taken then
      { reactor with taken := reactor.taken.erase token }.push op
    else reactor
  | _ => reactor.push op

def stop (reactor : Reactor) : Reactor :=
  if reactor.stopRequested then reactor
  else { reactor with stopRequested := true, signals := reactor.signals + 1 }

def wake (reactor : Reactor) : Reactor :=
  if reactor.signals = 0 then reactor
  else { reactor with signals := reactor.signals - 1, wakeFd := reactor.wakeFd + 1 }

/-! ## The loop -/

def addFdOnReactor (reactor : Reactor) (token : Token) (fd : Nat) (control : ControlReply) :
    Reactor :=
  if token ∈ reactor.cancelledTokens then
    { reactor with cancelledTokens := reactor.cancelledTokens.erase token }
  else if control = .done then
    { reactor with fds := reactor.fds ++ [{ token, fd }] }
  else reactor

def removeFdOnReactor (reactor : Reactor) (token : Token) (control : ControlReply) : Reactor :=
  if reactor.fds.all fun registration => registration.token != token then
    { reactor with
      cancelledTokens := reactor.cancelledTokens ++ [token]
      history := .removed token :: reactor.history }
  else if control = .refused then reactor
  else
    { reactor with
      fds := reactor.fds.eraseP fun registration => registration.token == token
      history := .removed token :: reactor.history }

def addTimerOnReactor (reactor : Reactor) (token : Token) (delay : Int) : Reactor :=
  { reactor with
    timers := reactor.timers ++ [{ token, deadline := reactor.clock + delay }] }

def execute (reactor : Reactor) (op : PendingOp) (control : ControlReply) : Reactor :=
  let reactor := { reactor with executed := reactor.executed ++ [op] }
  match op with
  | .addFd token fd => reactor.addFdOnReactor token fd control
  | .removeFd token => reactor.removeFdOnReactor token control
  | .addTimer token delay => reactor.addTimerOnReactor token delay
  | .task _ => reactor

/-- The timers that may be in front of the heap. -/
def earliest (timers : List TimerRegistration) : List TimerRegistration :=
  timers.filter fun timer => timers.all fun other => timer.deadline ≤ other.deadline

/-- The time the timer descriptor is set to: zero would switch it off. -/
def armedFor (deadline : Int) : Int :=
  if deadline = 0 then 1 else deadline

def armTimerFd (reactor : Reactor) : Reactor :=
  { reactor with timerFd := (reactor.timers.map TimerRegistration.deadline).min?.map armedFor }

/-- The millisecond fallback. -/
def epollTimeout (reactor : Reactor) : Option Nat :=
  (reactor.timers.map TimerRegistration.deadline).min?.map fun deadline =>
    let remaining : Int := deadline - reactor.clock
    if remaining ≤ 0 then 0
    else min ((remaining + 999999) / 1000000).toNat 2147483647

def dispatchReadyEvent (reactor : Reactor) : Ready → Reactor
  | .wake => { reactor with wakeFd := 0 }
  | .timer =>
    if reactor.timerFd.any fun time => time ≤ (reactor.clock : Int) then
      { reactor with timerFd := none }
    else reactor
  | .fd token =>
    if reactor.fds.any fun registration => registration.token == token then
      { reactor with history := .called token :: reactor.history }
    else reactor

/-- One step of `run`. -/
def work (reactor : Reactor) (answer : Answer) : Reactor :=
  match reactor.loop with
  | .swap => { reactor with pendingOps := [], loop := .operations reactor.pendingOps }
  | .operations (op :: rest) =>
    { reactor.execute op answer.control with
      loop := if answer.throws then .returned else .operations rest }
  | .operations [] =>
    { reactor with
      loop := if reactor.stopRequested then .returned else .timers reactor.clock }
  | .timers now =>
    if reactor.timers.all fun timer => now < timer.deadline then
      { reactor with loop := if reactor.stopRequested then .returned else .arm }
    else
      match (earliest reactor.timers)[answer.front]? with
      | none => reactor
      | some timer =>
        { reactor with
          timers := reactor.timers.erase timer
          history := .fired timer now :: reactor.history
          loop := if answer.throws || reactor.stopRequested then .returned
            else .timers now }
  | .arm =>
    if reactor.precise && answer.arms then { reactor.armTimerFd with loop := .wait none }
    else { reactor with loop := .wait reactor.epollTimeout }
  | .wait _ =>
    match answer.wait with
    | .ready events => { reactor with loop := .dispatch events }
    | .interrupted => { reactor with loop := .swap }
    | .failed => { reactor with loop := .returned }
  | .dispatch (event :: rest) =>
    { reactor.dispatchReadyEvent event with
      loop := if answer.throws then .returned else .dispatch rest }
  | .dispatch [] => { reactor with loop := .swap }
  | .returned => reactor

/-! ## Runs -/

inductive Step where
  | takeToken
  | enqueue (op : PendingOp)
  | stop
  | wake
  | work (answer : Answer)
  | tick (elapsed : Nat)
  deriving Repr

def step (reactor : Reactor) : Step → Reactor
  | .takeToken => reactor.takeToken
  | .enqueue op => reactor.enqueue op
  | .stop => reactor.stop
  | .wake => reactor.wake
  | .work answer => reactor.work answer
  | .tick elapsed => { reactor with clock := reactor.clock + elapsed }

def run (clock : Nat) (precise : Bool) (steps : List Step) : Reactor :=
  steps.foldl step { clock, precise }

end Reactor

end Grab.Scheduling
