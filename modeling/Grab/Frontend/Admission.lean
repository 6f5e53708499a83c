import Grab.Lib.WaitingLine
import Grab.Sequence.Types

/-!
# Admission control

`AdmissionController::run` admits a call at once while a slot is free and nobody waits, lets it
wait in a bounded queue otherwise, and gives its slot back when its work is over.  Each part
that holds the mutex is one step; any number of calls take their steps in any order, and what a
step reads of the health flag, of the cancellation of its call and of the clock is given with it.
-/

namespace Grab.Frontend

open Grab.Lib.WaitingLine List Function Option

/-! ## The controller -/

/-- The codes of `grpc::StatusCode`. -/
inductive StatusCode where
  | ok
  | cancelled
  | unknown
  | invalidArgument
  | deadlineExceeded
  | notFound
  | alreadyExists
  | permissionDenied
  | resourceExhausted
  | failedPrecondition
  | aborted
  | outOfRange
  | unimplemented
  | internal
  | unavailable
  | dataLoss
  | unauthenticated
deriving DecidableEq, Repr

/-- `grpc::Status`. -/
structure Status where
  code : StatusCode
  message : String := ""
deriving DecidableEq, Repr

def Status.ok : Status := { code := .ok }

def queueFullReason : String := "admission rejected: concurrency cap reached and bounded queue full"

def admissionDeadlineReason : String := "admission rejected: per-call deadline expired"

structure AdmissionPolicy where
  concurrencyCap : ℕ := 64
  queueCapacity : ℕ := 128
  perCallDeadline : Milliseconds := 30000
  unhealthyReason : String := "admission rejected: daemon health check failed"
deriving DecidableEq, Repr

abbrev Ticket := ℕ

structure AdmissionController where
  policy : AdmissionPolicy
  queue : List Ticket := []
  nextTicket : Ticket := 0
  active : ℕ := 0
deriving DecidableEq, Repr

/-- What one pass of the waiting loop reads. -/
structure Reading where
  healthy : Bool
  cancelled : Bool
  now : TimePoint
deriving DecidableEq, Repr

/-- How a part of `acquire` that holds the mutex ends. -/
inductive Verdict where
  | admitted
  | rejected (status : Status)
  | waiting (ticket : Ticket) (deadline : TimePoint)
deriving DecidableEq, Repr

namespace AdmissionController

def unhealthy (controller : AdmissionController) : Status :=
  { code := .unavailable, message := controller.policy.unhealthyReason }

def eraseTicket (controller : AdmissionController) (ticket : Ticket) : AdmissionController :=
  { controller with queue := controller.queue.erase ticket }

def enqueue (controller : AdmissionController) : AdmissionController :=
  { controller with
    queue := controller.queue ++ [controller.nextTicket]
    nextTicket := controller.nextTicket + 1 }

/-- One pass of the waiting loop. -/
def check (controller : AdmissionController) (ticket : Ticket) (deadline : TimePoint)
    (reading : Reading) : Verdict × AdmissionController :=
  if ¬reading.healthy then
    (.rejected controller.unhealthy, controller.eraseTicket ticket)
  else if reading.cancelled then
    (.rejected { code := .cancelled, message := "admission cancelled" },
      controller.eraseTicket ticket)
  else if controller.queue.head? = some ticket ∧
      controller.active < controller.policy.concurrencyCap then
    (.admitted, { controller with queue := controller.queue.tail, active := controller.active + 1 })
  else if deadline ≤ reading.now then
    (.rejected { code := .deadlineExceeded, message := admissionDeadlineReason },
      controller.eraseTicket ticket)
  else
    (.waiting ticket deadline, controller)

/-- `acquire` from the lock on, up to the first wait. -/
def acquire (controller : AdmissionController) (now : TimePoint) (reading : Reading) :
    Verdict × AdmissionController :=
  if controller.active < controller.policy.concurrencyCap ∧ controller.queue = [] then
    (.admitted, { controller with active := controller.active + 1 })
  else if controller.policy.queueCapacity ≤ controller.queue.length then
    (.rejected { code := .resourceExhausted, message := queueFullReason }, controller)
  else
    controller.enqueue.check controller.nextTicket
      (now + nanosecondsOf controller.policy.perCallDeadline) reading

def release (controller : AdmissionController) : AdmissionController :=
  if 0 < controller.active then { controller with active := controller.active - 1 }
  else controller

end AdmissionController

/-! ## The calls -/

abbrev CallId := ℕ

/-- What a call of `run` comes back with; its work may throw. -/
inductive Answer where
  | status (status : Status)
  | thrown
deriving DecidableEq, Repr

/-- Where a call of `run` is. -/
inductive Phase where
  | started
  | entering
  | waiting (ticket : Ticket) (deadline : TimePoint)
  | executing
  | returned (answer : Answer)
deriving DecidableEq, Repr

def Phase.ticket? : Phase → Option Ticket
  | .waiting ticket _ => some ticket
  | _ => none

def Phase.isExecuting : Phase → Bool
  | .executing => true
  | _ => false

def Phase.isReturned : Phase → Bool
  | .returned _ => true
  | _ => false

def Verdict.phase : Verdict → Phase
  | .admitted => .executing
  | .rejected status => .returned (.status status)
  | .waiting ticket deadline => .waiting ticket deadline

inductive Step where
  | call
  /-- The health check ahead of the lock. -/
  | lookAtHealth (id : CallId) (healthy : Bool)
  | lock (id : CallId) (now : TimePoint) (reading : Reading)
  | wake (id : CallId) (reading : Reading)
  /-- The work of a call is over and its slot is released. -/
  | finish (id : CallId) (answer : Answer)
deriving DecidableEq, Repr

/-- The controller with the calls of `run` so far, and those that joined its queue in the order
in which they did. -/
structure Admission where
  controller : AdmissionController
  calls : List Phase := []
  arrivals : List CallId := []
deriving DecidableEq, Repr

namespace Admission

def initial (policy : AdmissionPolicy) : Admission := { controller := { policy } }

def ticket? (admission : Admission) (id : CallId) : Option Ticket :=
  admission.calls[id]?.bind Phase.ticket?

/-- How many calls execute their work. -/
def executing (admission : Admission) : ℕ := admission.calls.countP Phase.isExecuting

/-- A call takes the outcome of its step. -/
def settle (admission : Admission) (id : CallId) (outcome : Verdict × AdmissionController) :
    Admission :=
  { admission with
    controller := outcome.2
    calls := admission.calls.set id outcome.1.phase }

/-- A step of a call that is not at that point leaves everything as it is. -/
def step (admission : Admission) : Step → Admission
  | .call => { admission with calls := admission.calls ++ [.started] }
  | .lookAtHealth id healthy =>
    match admission.calls[id]? with
    | some .started =>
      { admission with
        calls := admission.calls.set id
          (if healthy then .entering
            else .returned (.status admission.controller.unhealthy)) }
    | _ => admission
  | .lock id now reading =>
    match admission.calls[id]? with
    | some .entering =>
      let outcome := admission.controller.acquire now reading
      -- Only who takes a ticket has joined the queue.
      { admission.settle id outcome with
        arrivals :=
          if outcome.2.nextTicket = admission.controller.nextTicket then admission.arrivals
          else admission.arrivals ++ [id] }
    | _ => admission
  | .wake id reading =>
    match admission.calls[id]? with
    | some (.waiting ticket deadline) =>
      admission.settle id (admission.controller.check ticket deadline reading)
    | _ => admission
  | .finish id answer =>
    match admission.calls[id]? with
    | some .executing =>
      { admission with
        controller := admission.controller.release
        calls := admission.calls.set id (.returned answer) }
    | _ => admission

def run (admission : Admission) : List Step → Admission
  | [] => admission
  | first :: rest => (admission.step first).run rest

/-! ## Bounded -/

/-- The counters agree with where the calls are, and the queue is those of the line that still
wait. -/
structure Orderly (policy : AdmissionPolicy) (admission : Admission) : Prop where
  given : admission.controller.policy = policy
  active : admission.controller.active = admission.executing
  capped : admission.executing ≤ policy.concurrencyCap
  bounded : admission.controller.queue.length ≤ policy.queueCapacity
  queue : admission.controller.queue = line admission.arrivals admission.ticket?
  came : ∀ {id ticket}, admission.ticket? id = some ticket → id ∈ admission.arrivals
  once : admission.arrivals.Nodup
  apart : Apart admission.ticket?
  issued : ∀ {id ticket}, admission.ticket? id = some ticket →
    ticket < admission.controller.nextTicket
  /-- Who came to the queue is past the lock. -/
  past : ∀ id ∈ admission.arrivals, ∃ phase, admission.calls[id]? = some phase ∧
    phase ≠ .started ∧ phase ≠ .entering

section

variable {policy : AdmissionPolicy} {before after : Admission} {id : CallId} {old new : Phase}
  {ticket : Ticket} (here : before.calls[id]? = some old)

include here

theorem ticket?_eq : before.ticket? id = old.ticket? := by
  simp [ticket?, here]

theorem ticket?_set (calls : after.calls = before.calls.set id new) :
    after.ticket? = Function.update before.ticket? id new.ticket? := by
  have inside : id < before.calls.length := (List.getElem?_eq_some_iff.mp here).1
  funext other
  by_cases same : other = id
  · subst same
    simp [ticket?, calls, inside]
  · have differs : id ≠ other := fun equal => same equal.symm
    simp [ticket?, calls, differs, update_of_ne same]

theorem executing_set (calls : after.calls = before.calls.set id new) :
    after.executing + (if old.isExecuting then 1 else 0) =
      before.executing + (if new.isExecuting then 1 else 0) := by
  rcases List.getElem?_eq_some_iff.mp here with ⟨inside, found⟩
  have counted := countP_set (p := Phase.isExecuting) (a := new) inside
  have present : (if old.isExecuting then 1 else 0) ≤ before.calls.countP Phase.isExecuting := by
    split
    · next busy =>
        exact countP_pos_iff.mpr ⟨old, mem_of_getElem? here, busy⟩
    · exact Nat.zero_le _
  rw [found] at counted
  unfold executing
  rw [calls, counted]
  omega

omit here

variable (orderly : Orderly policy before) (here : before.calls[id]? = some old)
  (calls : after.calls = before.calls.set id new) (stays : new.ticket? = none)
  (arrivals : after.arrivals = before.arrivals)
  (kept : after.controller.policy = before.controller.policy)
  (next : after.controller.nextTicket = before.controller.nextTicket)
  (capped : after.controller.active ≤ policy.concurrencyCap)

include orderly here calls stays arrivals kept next capped

/-- A call goes on to where it does not wait. -/
theorem Orderly.settles
    (queue : after.controller.queue = line before.arrivals (Function.update before.ticket? id none))
    (fewer : after.controller.queue.length ≤ before.controller.queue.length)
    (active : after.controller.active + (if old.isExecuting then 1 else 0) =
      before.controller.active + (if new.isExecuting then 1 else 0))
    (onward : id ∈ before.arrivals → new ≠ .started ∧ new ≠ .entering) : Orderly policy after := by
  have tickets : after.ticket? = Function.update before.ticket? id none := by
    rw [ticket?_set here calls, stays]
  have still : ∀ {other slip}, after.ticket? other = some slip →
      before.ticket? other = some slip := by
    intro other slip holds
    rw [tickets, update_apply] at holds
    split at holds
    · cases holds
    · exact holds
  have counts := executing_set here calls
  have same : after.controller.active = after.executing := by
    have agrees := orderly.active
    omega
  constructor
  case given => exact kept.trans orderly.given
  case active => exact same
  case capped => exact same ▸ capped
  case bounded => exact fewer.trans orderly.bounded
  case queue => rw [queue, arrivals, tickets]
  case came =>
    intro other slip holds
    exact arrivals ▸ orderly.came (still holds)
  case once => exact arrivals ▸ orderly.once
  case apart =>
    intro first second slip left right
    exact orderly.apart (still left) (still right)
  case issued =>
    intro other slip holds
    exact next ▸ orderly.issued (still holds)
  case past =>
    intro other came
    rw [arrivals] at came
    rcases orderly.past other came with ⟨phase, found, past⟩
    by_cases equal : other = id
    · subst equal
      have inside : other < before.calls.length := (List.getElem?_eq_some_iff.mp here).1
      exact ⟨new, by simp [calls, inside], onward came⟩
    · have differs : id ≠ other := fun same => equal same.symm
      exact ⟨phase, by simp [calls, differs, found], past⟩

/-- A call that does not wait leaves the queue as it is. -/
theorem Orderly.moves (free : old.ticket? = none)
    (queue : after.controller.queue = before.controller.queue)
    (active : after.controller.active + (if old.isExecuting then 1 else 0) =
      before.controller.active + (if new.isExecuting then 1 else 0))
    (onward : id ∈ before.arrivals → new ≠ .started ∧ new ≠ .entering) : Orderly policy after := by
  have unchanged : Function.update before.ticket? id none = before.ticket? := by
    apply update_eq_self_iff.mpr
    rw [ticket?_eq here, free]
  apply orderly.settles here calls stays arrivals kept next capped _ (queue ▸ le_rfl) active onward
  rw [queue, unchanged, orderly.queue]

/-- A call that waits leaves the queue. -/
theorem Orderly.leaves (waits : old.ticket? = some ticket)
    (onward : new ≠ .started ∧ new ≠ .entering)
    (queue : after.controller.queue = before.controller.queue.erase ticket)
    (active : after.controller.active =
      before.controller.active + (if new.isExecuting then 1 else 0)) : Orderly policy after := by
  have holds : before.ticket? id = some ticket := (ticket?_eq here).trans waits
  have idle : old.isExecuting = false := by
    cases old with
    | waiting own deadline => rfl
    | _ => cases waits
  have fewer : after.controller.queue.length ≤ before.controller.queue.length := by
    rw [queue]
    exact erase_sublist.length_le
  apply orderly.settles here calls stays arrivals kept next capped _ fewer _ fun _ => onward
  · rw [queue, line_leave orderly.once orderly.apart (orderly.came holds) holds, orderly.queue]
  · simpa [idle] using active

end

/-- A call joins the queue and has not looked around yet. -/
def join (admission : Admission) (id : CallId) (now : TimePoint) : Admission where
  controller := admission.controller.enqueue
  calls := admission.calls.set id
    (.waiting admission.controller.nextTicket
      (now + nanosecondsOf admission.controller.policy.perCallDeadline))
  arrivals := admission.arrivals ++ [id]

variable {deadline : TimePoint} {ticket : Ticket}

section

variable {policy : AdmissionPolicy} {admission : Admission} {id : CallId}

theorem join_calls (now : TimePoint) : (admission.join id now).calls =
    admission.calls.set id (.waiting admission.controller.nextTicket
      (now + nanosecondsOf admission.controller.policy.perCallDeadline)) :=
  rfl

theorem joined_ticket? (here : admission.calls[id]? = some .entering) (now : TimePoint) :
    (admission.join id now).ticket? =
      Function.update admission.ticket? id (some admission.controller.nextTicket) :=
  ticket?_set here (join_calls now)

theorem Orderly.fresh (orderly : Orderly policy admission)
    (here : admission.calls[id]? = some .entering) : id ∉ admission.arrivals := by
  intro came
  rcases orderly.past id came with ⟨phase, found, notStarted, notEntering⟩
  rw [here] at found
  exact notEntering (some.inj found).symm

theorem Orderly.joins (orderly : Orderly policy admission)
    (here : admission.calls[id]? = some .entering)
    (room : admission.controller.queue.length < policy.queueCapacity) (now : TimePoint) :
    Orderly policy (admission.join id now) := by
  have fresh := orderly.fresh here
  have tickets : (admission.join id now).ticket? =
      Function.update admission.ticket? id (some admission.controller.nextTicket) :=
    joined_ticket? here now
  have counts : (admission.join id now).executing = admission.executing :=
    executing_set here (join_calls now)
  have still : ∀ {other slip}, (admission.join id now).ticket? other = some slip →
      (other = id ∧ slip = admission.controller.nextTicket) ∨
        (other ≠ id ∧ admission.ticket? other = some slip) := by
    intro other slip holds
    rw [tickets, update_apply] at holds
    split at holds
    · next same => exact .inl ⟨same, (some.inj holds).symm⟩
    · next differs => exact .inr ⟨differs, holds⟩
  constructor
  case given => exact orderly.given
  case active => exact orderly.active.trans counts.symm
  case capped => exact counts ▸ orderly.capped
  case bounded =>
    show (admission.controller.queue ++ [admission.controller.nextTicket]).length ≤ _
    rw [length_append, length_singleton]
    exact room
  case queue =>
    show admission.controller.queue ++ [admission.controller.nextTicket] = _
    rw [tickets, orderly.queue]
    exact (line_join fresh _).symm
  case came =>
    intro other slip holds
    apply mem_append.mpr
    rcases still holds with ⟨same, -⟩ | ⟨-, held⟩
    · exact .inr (mem_singleton.mpr same)
    · exact .inl (orderly.came held)
  case once =>
    apply Nodup.append orderly.once (nodup_singleton id)
    intro other came last
    exact fresh (mem_singleton.mp last ▸ came)
  case apart =>
    intro first second slip left right
    rcases still left with ⟨leftHere, leftNew⟩ | ⟨-, leftOld⟩
    · rcases still right with ⟨rightHere, -⟩ | ⟨-, rightOld⟩
      · exact leftHere.trans rightHere.symm
      · exact absurd (orderly.issued rightOld) (leftNew ▸ Nat.lt_irrefl _)
    · rcases still right with ⟨-, rightNew⟩ | ⟨-, rightOld⟩
      · exact absurd (orderly.issued leftOld) (rightNew ▸ Nat.lt_irrefl _)
      · exact orderly.apart leftOld rightOld
  case issued =>
    intro other slip holds
    show slip < admission.controller.nextTicket + 1
    rcases still holds with ⟨-, new⟩ | ⟨-, held⟩
    · exact Nat.lt_succ_of_le new.le
    · exact Nat.lt_succ_of_lt (orderly.issued held)
  case past =>
    intro other came
    have inside : id < admission.calls.length := (List.getElem?_eq_some_iff.mp here).1
    by_cases same : other = id
    · subst same
      refine ⟨.waiting admission.controller.nextTicket
        (now + nanosecondsOf admission.controller.policy.perCallDeadline), ?_, by simp, by simp⟩
      rw [join_calls]
      exact getElem?_set_self inside
    have differs : id ≠ other := fun equal => same equal.symm
    have earlier : other ∈ admission.arrivals := by
      rcases mem_append.mp came with old | last
      · exact old
      · exact absurd (mem_singleton.mp last) same
    rcases orderly.past other earlier with ⟨phase, found, past⟩
    exact ⟨phase, by simp [join, differs, found], past⟩

/-- What a pass of the waiting loop makes of a call that waits. -/
inductive Checked (before : Admission) (id : CallId) (ticket : Ticket) (deadline : TimePoint) :
    Admission → Prop where
  | left {status : Status} (other : status.code ≠ .resourceExhausted) :
      Checked before id ticket deadline
        { before with
          controller := before.controller.eraseTicket ticket
          calls := before.calls.set id (.returned (.status status)) }
  | admitted (front : before.controller.queue.head? = some ticket)
      (free : before.controller.active < before.controller.policy.concurrencyCap) :
      Checked before id ticket deadline
        { before with
          controller :=
            { before.controller with
              queue := before.controller.queue.tail
              active := before.controller.active + 1 }
          calls := before.calls.set id .executing }
  | stays :
      Checked before id ticket deadline
        { before with calls := before.calls.set id (.waiting ticket deadline) }

theorem wake_checked (here : admission.calls[id]? = some (.waiting ticket deadline))
    (reading : Reading) :
    Checked admission id ticket deadline (admission.step (.wake id reading)) := by
  have woken : admission.step (.wake id reading) =
      admission.settle id (admission.controller.check ticket deadline reading) := by
    simp only [step, here]
  rw [woken]
  unfold AdmissionController.check
  split
  · exact Checked.left (by simp [AdmissionController.unhealthy])
  split
  · exact Checked.left (by simp)
  split
  · next ready => exact Checked.admitted ready.1 ready.2
  · split
    · exact Checked.left (by simp)
    · exact Checked.stays

theorem Orderly.checked {before after : Admission} (orderly : Orderly policy before)
    (here : before.calls[id]? = some (.waiting ticket deadline))
    (checked : Checked before id ticket deadline after) : Orderly policy after := by
  have room : before.controller.active ≤ policy.concurrencyCap := orderly.active ▸ orderly.capped
  cases checked with
  | left other =>
    exact orderly.leaves here rfl rfl rfl rfl rfl room rfl (by simp) rfl rfl
  | admitted front free =>
    have popped : before.controller.queue.tail = before.controller.queue.erase ticket := by
      rcases head?_eq_some_iff.mp front with ⟨rest, queue⟩
      rw [queue, tail_cons, erase_cons_head]
    rw [orderly.given] at free
    exact orderly.leaves here rfl rfl rfl rfl rfl free rfl (by simp) popped rfl
  | stays =>
    have same : before.calls.set id (.waiting ticket deadline) = before.calls := by
      rcases List.getElem?_eq_some_iff.mp here with ⟨inside, found⟩
      rw [← found]
      exact set_getElem_self inside
    rw [same]
    exact orderly

end

/-! ## Fair -/

/-- What a step means for a call: it is admitted only when nobody waits ahead of it, it joins
the queue at the end, it learns of an exhausted resource only from a full queue or from its own
work, and turned away it takes along nothing but its own ticket. -/
structure Fair (before after : Admission) (id : CallId) : Prop where
  inTurn : before.calls[id]? ≠ some .executing → after.calls[id]? = some .executing →
    ∀ other ∈ ahead before.arrivals id, before.ticket? other = none
  joins : ∀ ticket deadline, before.calls[id]? ≠ some (.waiting ticket deadline) →
    after.calls[id]? = some (.waiting ticket deadline) →
    after.controller.active = before.controller.active ∧
      after.controller.queue = before.controller.queue ++ [ticket] ∧
      ∀ other, other ≠ id → after.calls[other]? = before.calls[other]?
  exhausted : ∀ status : Status, status.code = .resourceExhausted →
    before.calls[id]? ≠ some .executing →
    before.calls[id]? ≠ some (.returned (.status status)) →
    after.calls[id]? = some (.returned (.status status)) →
    before.controller.policy.queueCapacity ≤ before.controller.queue.length
  turnedAway : ∀ answer : Answer, before.calls[id]? ≠ some .executing →
    before.calls[id]? ≠ some (.returned answer) →
    after.calls[id]? = some (.returned answer) →
    after.controller.active = before.controller.active ∧
      after.controller.queue =
        before.controller.queue.filter (fun ticket => before.ticket? id ≠ some ticket) ∧
      ∀ other, other ≠ id → after.calls[other]? = before.calls[other]?

section

variable {policy : AdmissionPolicy} {before after : Admission} {id other : CallId} {old : Phase}

theorem Fair.of_early (early : after.calls[id]? = some .started ∨
    after.calls[id]? = some .entering) : Fair before after id where
  inTurn _ runs := by
    rcases early with at_ | at_ <;> rw [at_] at runs <;> cases runs
  joins _ _ _ waits := by
    rcases early with at_ | at_ <;> rw [at_] at waits <;> cases waits
  exhausted _ _ _ _ ended := by
    rcases early with at_ | at_ <;> rw [at_] at ended <;> cases ended
  turnedAway _ _ _ ended := by
    rcases early with at_ | at_ <;> rw [at_] at ended <;> cases ended

theorem Fair.of_same (same : after.calls[id]? = before.calls[id]?) : Fair before after id where
  inTurn idle runs := absurd (same ▸ runs) idle
  joins _ _ fresh waits := absurd (same ▸ waits) fresh
  exhausted _ _ _ fresh ended := absurd (same ▸ ended) fresh
  turnedAway _ _ fresh ended := absurd (same ▸ ended) fresh

theorem Fair.of_executing {answer : Answer} (works : before.calls[id]? = some .executing)
    (ended : after.calls[id]? = some (.returned answer)) : Fair before after id where
  inTurn idle := absurd works idle
  joins _ _ _ waits := by
    rw [ended] at waits
    cases waits
  exhausted _ _ idle := absurd works idle
  turnedAway _ idle := absurd works idle

theorem Fair.admitted (nobody : ∀ other ∈ ahead before.arrivals id, before.ticket? other = none)
    (works : after.calls[id]? = some .executing) : Fair before after id where
  inTurn _ _ := nobody
  joins _ _ _ waits := by
    rw [works] at waits
    cases waits
  exhausted _ _ _ _ ended := by
    rw [works] at ended
    cases ended
  turnedAway _ _ _ ended := by
    rw [works] at ended
    cases ended

theorem Fair.refused {status : Status}
    (ended : after.calls[id]? = some (.returned (.status status)))
    (full : status.code = .resourceExhausted →
      before.controller.policy.queueCapacity ≤ before.controller.queue.length)
    (active : after.controller.active = before.controller.active) (queue : after.controller.queue =
      before.controller.queue.filter fun ticket => before.ticket? id ≠ some ticket)
    (others : ∀ other, other ≠ id → after.calls[other]? = before.calls[other]?) :
    Fair before after id where
  inTurn _ runs := by
    rw [ended] at runs
    cases runs
  joins _ _ _ waits := by
    rw [ended] at waits
    cases waits
  exhausted told code _ _ is := by
    rw [ended] at is
    cases is
    exact full code
  turnedAway _ _ _ _ := ⟨active, queue, others⟩

theorem Fair.joined {ticket : Ticket} {deadline : TimePoint}
    (waits : after.calls[id]? = some (.waiting ticket deadline))
    (active : after.controller.active = before.controller.active)
    (queue : after.controller.queue = before.controller.queue ++ [ticket])
    (others : ∀ other, other ≠ id → after.calls[other]? = before.calls[other]?) :
    Fair before after id where
  inTurn _ runs := by
    rw [waits] at runs
    cases runs
  joins own _ _ holds := by
    rw [waits] at holds
    cases holds
    exact ⟨active, queue, others⟩
  exhausted _ _ _ _ ended := by
    rw [waits] at ended
    cases ended
  turnedAway _ _ _ ended := by
    rw [waits] at ended
    cases ended

variable {calls : List Phase} {phase : Phase} {reading : Reading} {now : TimePoint}

theorem get_set_other (differs : other ≠ id) : (calls.set id phase)[other]? = calls[other]? :=
  getElem?_set_ne fun equal => differs equal.symm

theorem get_set_same (here : calls[id]? = some old) : (calls.set id phase)[id]? = some phase :=
  getElem?_set_self (List.getElem?_eq_some_iff.mp here).1

theorem queue_of_free (free : before.ticket? id = none) :
    before.controller.queue.filter (fun ticket => before.ticket? id ≠ some ticket) =
      before.controller.queue := by
  simp [free]

variable (orderly : Orderly policy before)

include orderly

theorem Orderly.queue_nodup : before.controller.queue.Nodup := by
  rw [orderly.queue]
  exact line_nodup orderly.once orderly.apart

theorem Orderly.queue_of_waiting (waits : before.ticket? id = some ticket) :
    before.controller.queue.filter (fun slip => before.ticket? id ≠ some slip) =
      before.controller.queue.erase ticket := by
  rw [orderly.queue_nodup.erase_eq_filter]
  apply filter_congr
  intro slip _
  have same : before.ticket? id ≠ some slip ↔ slip ≠ ticket := by
    rw [waits]
    exact not_congr (some_inj.trans eq_comm)
  rw [Bool.eq_iff_iff, decide_eq_true_iff, bne_iff_ne]
  exact same

/-- A pass of the waiting loop is fair to everybody. -/
theorem Checked.fair (here : before.calls[id]? = some (.waiting ticket deadline))
    (checked : Checked before id ticket deadline after) (other : CallId) :
    Fair before after other := by
  have waits : before.ticket? id = some ticket := ticket?_eq here
  by_cases same : other = id
  · subst same
    cases checked with
    | left code =>
      apply Fair.refused
      case ended => exact get_set_same here
      case full => exact fun exhausted => absurd exhausted code
      case active => rfl
      case queue => exact (orderly.queue_of_waiting waits).symm
      case others => exact fun another differs => get_set_other differs
    | admitted front free =>
      apply Fair.admitted _ (get_set_same here)
      intro another earlier
      rcases head?_eq_some_iff.mp front with ⟨rest, queue⟩
      exact not_waiting_ahead orderly.apart (orderly.queue.symm.trans queue) waits earlier
    | stays =>
      apply Fair.of_same
      exact (get_set_same here).trans here.symm
  · apply Fair.of_same
    cases checked <;> exact get_set_other same

omit orderly

/-- What the lock makes of a call that enters. -/
inductive Locked (before : Admission) (id : CallId) (now : TimePoint) (reading : Reading) :
    Admission → Prop where
  | admitted (free : before.controller.active < before.controller.policy.concurrencyCap)
      (empty : before.controller.queue = []) :
      Locked before id now reading
        { before with
          controller := { before.controller with active := before.controller.active + 1 }
          calls := before.calls.set id .executing }
  | refused (full : before.controller.policy.queueCapacity ≤ before.controller.queue.length) :
      Locked before id now reading
        { before with
          calls := before.calls.set id (.returned (.status
            { code := .resourceExhausted, message := queueFullReason })) }
  | joined (room : before.controller.queue.length < before.controller.policy.queueCapacity) :
      Locked before id now reading ((before.join id now).step (.wake id reading))

theorem lock_locked (here : before.calls[id]? = some .entering) (now : TimePoint)
    (reading : Reading) : Locked before id now reading (before.step (.lock id now reading)) := by
  have locked : before.step (.lock id now reading) =
      { before.settle id (before.controller.acquire now reading) with
        arrivals :=
          if (before.controller.acquire now reading).2.nextTicket = before.controller.nextTicket
          then before.arrivals else before.arrivals ++ [id] } := by
    simp only [step, here]
  by_cases fast : before.controller.active < before.controller.policy.concurrencyCap ∧
      before.controller.queue = []
  · have outcome : before.controller.acquire now reading =
        (.admitted, { before.controller with active := before.controller.active + 1 }) := by
      rw [AdmissionController.acquire, if_pos fast]
    rw [locked, outcome, if_pos rfl]
    exact Locked.admitted fast.1 fast.2
  by_cases full : before.controller.policy.queueCapacity ≤ before.controller.queue.length
  · have outcome : before.controller.acquire now reading =
        (.rejected { code := .resourceExhausted, message := queueFullReason },
          before.controller) := by
      rw [AdmissionController.acquire, if_neg fast, if_pos full]
    rw [locked, outcome, if_pos rfl]
    exact Locked.refused full
  have outcome : before.controller.acquire now reading =
      before.controller.enqueue.check before.controller.nextTicket
        (now + nanosecondsOf before.controller.policy.perCallDeadline) reading := by
    rw [AdmissionController.acquire, if_neg fast, if_neg full]
  have took : (before.controller.acquire now reading).2.nextTicket ≠
      before.controller.nextTicket := by
    rw [outcome, AdmissionController.check]
    split_ifs <;> exact Nat.succ_ne_self _
  have waits : (before.join id now).calls[id]? = some (.waiting before.controller.nextTicket
      (now + nanosecondsOf before.controller.policy.perCallDeadline)) :=
    get_set_same here
  have woken : before.step (.lock id now reading) =
      (before.join id now).step (.wake id reading) := by
    rw [locked, if_neg took, outcome]
    simp only [step, waits]
    simp only [settle, join, set_set]
  rw [woken]
  exact Locked.joined (Nat.lt_of_not_le full)

theorem Orderly.locked (orderly : Orderly policy before) (here : before.calls[id]? = some .entering)
    (locked : Locked before id now reading after) : Orderly policy after := by
  have room : before.controller.active ≤ policy.concurrencyCap := orderly.active ▸ orderly.capped
  have fresh := orderly.fresh here
  cases locked with
  | admitted free empty =>
    rw [orderly.given] at free
    exact orderly.moves here rfl rfl rfl rfl rfl free rfl rfl rfl fun came => absurd came fresh
  | refused full =>
    exact orderly.moves here rfl rfl rfl rfl rfl room rfl rfl rfl fun came => absurd came fresh
  | joined short =>
    rw [orderly.given] at short
    have waits : (before.join id now).calls[id]? = some (.waiting before.controller.nextTicket
        (now + nanosecondsOf before.controller.policy.perCallDeadline)) :=
      get_set_same here
    exact (orderly.joins here short now).checked waits (wake_checked waits reading)

/-- Taking the lock is fair to everybody. -/
theorem Locked.fair (orderly : Orderly policy before) (here : before.calls[id]? = some .entering)
    (locked : Locked before id now reading after) (other : CallId) : Fair before after other := by
  have free : before.ticket? id = none := ticket?_eq here
  have fresh := orderly.fresh here
  by_cases same : other = id
  · subst same
    cases locked with
    | admitted slot empty =>
      apply Fair.admitted _ (get_set_same here)
      intro another earlier
      rw [ahead_of_not_mem fresh] at earlier
      exact not_waiting_of_line_nil (orderly.queue.symm.trans empty) earlier
    | refused full =>
      apply Fair.refused
      case ended => exact get_set_same here
      case full => exact fun _ => full
      case active => rfl
      case queue => exact (queue_of_free free).symm
      case others => exact fun another differs => get_set_other differs
    | joined short =>
      rw [orderly.given] at short
      have kept := orderly.joins here short now
      have waits : (before.join other now).calls[other]? = some (.waiting
          before.controller.nextTicket
          (now + nanosecondsOf before.controller.policy.perCallDeadline)) :=
        get_set_same here
      have out : before.controller.nextTicket ∉ before.controller.queue := by
        intro queued
        rw [orderly.queue] at queued
        rcases mem_line.mp queued with ⟨another, -, held⟩
        exact Nat.lt_irrefl _ (orderly.issued held)
      have checked := wake_checked waits reading
      generalize (before.join other now).step (.wake other reading) = after at checked ⊢
      cases checked with
      | left code =>
        apply Fair.refused
        case ended => exact get_set_same waits
        case full => exact fun exhausted => absurd exhausted code
        case active => rfl
        case queue =>
          rw [queue_of_free free]
          show (before.controller.queue ++ [before.controller.nextTicket]).erase _ = _
          rw [erase_append_right _ out, erase_cons_head, append_nil]
        case others =>
          intro another differs
          exact (get_set_other differs).trans (get_set_other differs)
      | admitted front slot =>
        apply Fair.admitted _ (get_set_same waits)
        intro another earlier
        rcases head?_eq_some_iff.mp front with ⟨rest, queue⟩
        have tickets := joined_ticket? here now
        have nobody : (before.join other now).ticket? another = none := by
          apply not_waiting_ahead kept.apart (kept.queue.symm.trans queue)
          case holds => exact ticket?_eq waits
          case before =>
            show another ∈ ahead (before.arrivals ++ [other]) other
            rw [ahead_of_not_mem fresh] at earlier
            have all : ∀ one ∈ before.arrivals, decide (one ≠ other) = true := by
              intro one came
              exact decide_eq_true fun equal => fresh (equal ▸ came)
            rw [ahead, takeWhile_append_of_pos all]
            exact mem_append_left _ earlier
        have differs : another ≠ other := by
          intro equal
          rw [ahead_of_not_mem fresh] at earlier
          exact fresh (equal ▸ earlier)
        rw [tickets, update_of_ne differs] at nobody
        exact nobody
      | stays =>
        apply Fair.joined
        case waits => exact get_set_same waits
        case active => rfl
        case queue => rfl
        case others =>
          intro another differs
          exact (get_set_other differs).trans (get_set_other differs)
  · apply Fair.of_same
    cases locked with
    | admitted slot empty | refused full => exact get_set_other same
    | joined short =>
      have waits : (before.join id now).calls[id]? = some (.waiting before.controller.nextTicket
          (now + nanosecondsOf before.controller.policy.perCallDeadline)) :=
        get_set_same here
      have checked := wake_checked waits reading
      generalize (before.join id now).step (.wake id reading) = after at checked ⊢
      cases checked <;> exact (get_set_other same).trans (get_set_other same)

/-! ## Every run -/

theorem get_append_other (differs : id ≠ calls.length) : (calls ++ [phase])[id]? = calls[id]? := by
  rcases Nat.lt_or_gt_of_ne differs with inside | outside
  · exact getElem?_append_left inside
  have past : (calls ++ [phase]).length ≤ id := by
    rw [length_append, length_singleton]
    exact outside
  rw [getElem?_eq_none past, getElem?_eq_none outside.le]

/-- A new call of `run` stands outside of everything. -/
theorem Orderly.called (orderly : Orderly policy before) : Orderly policy (before.step .call) := by
  have found : ∀ {id : CallId} {phase : Phase}, before.calls[id]? = some phase →
      (before.step .call).calls[id]? = some phase := by
    intro id phase here
    have inside : id < before.calls.length := (List.getElem?_eq_some_iff.mp here).1
    exact (get_append_other inside.ne).trans here
  have tickets : (before.step .call).ticket? = before.ticket? := by
    funext id
    by_cases last : id = before.calls.length
    · subst last
      simp [ticket?, step, Phase.ticket?]
    · show ((before.calls ++ [Phase.started])[id]?).bind _ = _
      rw [get_append_other last]
      rfl
  have counts : (before.step .call).executing = before.executing := by
    simp [executing, step, Phase.isExecuting]
  constructor
  case given => exact orderly.given
  case active => exact orderly.active.trans counts.symm
  case capped => exact counts ▸ orderly.capped
  case bounded => exact orderly.bounded
  case queue =>
    rw [tickets]
    exact orderly.queue
  case came =>
    rw [tickets]
    exact orderly.came
  case once => exact orderly.once
  case apart =>
    rw [tickets]
    exact orderly.apart
  case issued =>
    rw [tickets]
    exact orderly.issued
  case past =>
    intro id came
    rcases orderly.past id came with ⟨phase, here, past⟩
    exact ⟨phase, found here, past⟩

/-- One step keeps the order and is fair to everybody. -/
theorem Orderly.step (orderly : Orderly policy before) (step : Step) :
    Orderly policy (before.step step) ∧ ∀ id, Fair before (before.step step) id := by
  have room : before.controller.active ≤ policy.concurrencyCap := orderly.active ▸ orderly.capped
  cases step with
  | call =>
    constructor
    · exact orderly.called
    intro id
    by_cases last : id = before.calls.length
    · subst last
      have here : (before.step .call).calls[before.calls.length]? = some .started :=
        getElem?_concat_length
      exact Fair.of_early (.inl here)
    · exact Fair.of_same (get_append_other last)
  | lookAtHealth id healthy =>
    by_cases here : before.calls[id]? = some .started
    · have looked : before.step (.lookAtHealth id healthy) =
          { before with
            calls := before.calls.set id
              (if healthy then .entering
                else .returned (.status before.controller.unhealthy)) } := by
        simp only [Admission.step, here]
      have absent : id ∉ before.arrivals := by
        intro came
        rcases orderly.past id came with ⟨phase, found, notStarted, -⟩
        rw [here] at found
        exact notStarted (some.inj found).symm
      rw [looked]
      cases healthy with
      | true =>
        constructor
        · exact orderly.moves here rfl rfl rfl rfl rfl room rfl rfl rfl
            fun came => absurd came absent
        intro other
        by_cases same : other = id
        · subst same
          exact Fair.of_early (.inr (get_set_same here))
        · exact Fair.of_same (get_set_other same)
      | false =>
        constructor
        · exact orderly.moves here rfl rfl rfl rfl rfl room rfl rfl rfl
            fun came => absurd came absent
        intro other
        by_cases same : other = id
        · subst same
          apply Fair.refused
          case ended => exact get_set_same here
          case full => exact fun exhausted => by cases exhausted
          case active => rfl
          case queue => exact (queue_of_free (ticket?_eq here)).symm
          case others => exact fun another differs => get_set_other differs
        · exact Fair.of_same (get_set_other same)
    · have idle : before.step (.lookAtHealth id healthy) = before := by
        simp only [Admission.step]
      rw [idle]
      exact ⟨orderly, fun _ => Fair.of_same rfl⟩
  | lock id now reading =>
    by_cases here : before.calls[id]? = some .entering
    · have locked := lock_locked here now reading
      exact ⟨orderly.locked here locked, fun other => locked.fair orderly here other⟩
    have idle : before.step (.lock id now reading) = before := by
      simp only [Admission.step]
    rw [idle]
    exact ⟨orderly, fun _ => Fair.of_same rfl⟩
  | wake id reading =>
    by_cases here : ∃ ticket deadline, before.calls[id]? = some (.waiting ticket deadline)
    · rcases here with ⟨ticket, deadline, here⟩
      have checked := wake_checked here reading
      exact ⟨orderly.checked here checked, fun other => checked.fair orderly here other⟩
    have idle : before.step (.wake id reading) = before := by
      simp only [Admission.step]
      split
      · next ticket deadline found => exact absurd ⟨ticket, deadline, found⟩ here
      · rfl
    rw [idle]
    exact ⟨orderly, fun _ => Fair.of_same rfl⟩
  | finish id answer =>
    by_cases here : before.calls[id]? = some .executing
    · have finished : before.step (.finish id answer) =
          { before with
            controller := before.controller.release
            calls := before.calls.set id (.returned answer) } := by
        simp only [Admission.step, here]
      have busy : 0 < before.controller.active := by
        rw [orderly.active]
        exact countP_pos_iff.mpr ⟨.executing, mem_of_getElem? here, rfl⟩
      have released : before.controller.release =
          { before.controller with active := before.controller.active - 1 } := if_pos busy
      rw [finished, released]
      constructor
      · exact orderly.moves here rfl rfl rfl rfl rfl ((Nat.sub_le _ _).trans room) rfl rfl
          (Nat.sub_add_cancel busy) fun _ => by simp
      intro other
      by_cases same : other = id
      · subst same
        exact Fair.of_executing here (get_set_same here)
      · exact Fair.of_same (get_set_other same)
    · have idle : before.step (.finish id answer) = before := by
        simp only [Admission.step]
      rw [idle]
      exact ⟨orderly, fun _ => Fair.of_same rfl⟩

theorem Orderly.initial (policy : AdmissionPolicy) : Orderly policy (initial policy) where
  given := rfl
  active := rfl
  capped := Nat.zero_le _
  bounded := Nat.zero_le _
  queue := rfl
  came holds := by cases holds
  once := nodup_nil
  apart holds := by cases holds
  issued holds := by cases holds
  past _ came := absurd came not_mem_nil

theorem Orderly.run (orderly : Orderly policy before) (steps : List Step) :
    Orderly policy (before.run steps) := by
  induction steps generalizing before with
  | nil => exact orderly
  | cons first rest ih => exact ih (orderly.step first).1

/-- Nobody is left in the counters once everybody has returned. -/
theorem Orderly.empty (orderly : Orderly policy before)
    (returned : ∀ phase ∈ before.calls, phase.isReturned) :
    before.controller.active = 0 ∧ before.controller.queue = [] := by
  constructor
  · rw [orderly.active]
    apply countP_eq_zero.mpr
    intro phase present busy
    have ended := returned phase present
    cases phase <;> simp [Phase.isReturned, Phase.isExecuting] at ended busy
  rw [orderly.queue]
  apply filterMap_eq_nil_iff.mpr
  intro id came
  rcases orderly.past id came with ⟨phase, here, -⟩
  have ended := returned phase (mem_of_getElem? here)
  rw [ticket?_eq here]
  cases phase <;> simp [Phase.isReturned, Phase.ticket?] at ended ⊢

end

/-- Whatever the calls do and in whatever order, at most as many execute their work as there are
slots and the counter is their number, the queue is bounded and holds those who wait in the order
in which they came, every step is fair to every call, and when all have returned nothing is left
behind. -/
theorem admission_exact (policy : AdmissionPolicy) (steps : List Step) :
    Orderly policy ((initial policy).run steps) ∧
      (∀ step id, Fair ((initial policy).run steps) (((initial policy).run steps).step step) id) ∧
      ((∀ phase ∈ ((initial policy).run steps).calls, phase.isReturned) →
        ((initial policy).run steps).controller.active = 0 ∧
          ((initial policy).run steps).controller.queue = []) := by
  have orderly : Orderly policy ((initial policy).run steps) := (Orderly.initial policy).run steps
  exact ⟨orderly, fun step id => (orderly.step step).2 id, orderly.empty⟩

end Admission

end Grab.Frontend
