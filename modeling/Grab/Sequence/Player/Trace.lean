import Grab.Sequence.Player.Core

/-!
# The contract of a command runner

What a runner may rely on, stated over traces alone.  `Protocol.next` is the
automaton of legal requests: a step is entered when it is not open, ticked and
exited when it is, and a step whose command has answered anything but running
is exited before anything else is asked.

From an accepted trace the calls of each step form cycles of one entry, any
number of ticks and one exit, and the state of the runner is the replay of the
trace.
-/

namespace Grab.Kernel

open Grab.Sequence List Option

/-! ## The automaton of legal requests -/

/-- Which steps are open, and the step that has to be exited next. -/
structure Protocol where
  isOpen : StepId → Bool
  due : Option StepId

namespace Protocol

def initial : Protocol := ⟨fun _ => false, none⟩

/-- A step that has answered must be exited at once. -/
def dueAfter (id : StepId) (answer : Status) : Option StepId :=
  if answer = .running then none else some id

def next (protocol : Protocol) : Event → Option Protocol
  | .enter id _ answer _ =>
    if protocol.due = none ∧ protocol.isOpen id = false then
      some ⟨Function.update protocol.isOpen id true, dueAfter id answer⟩
    else none
  | .tick id _ answer =>
    if protocol.due = none ∧ protocol.isOpen id = true then
      some ⟨protocol.isOpen, dueAfter id answer⟩
    else none
  | .join id =>
    if protocol.isOpen id = true ∧ (protocol.due = none ∨ protocol.due = some id) then
      some protocol
    else none
  | .exit id _ _ =>
    if protocol.isOpen id = true ∧ (protocol.due = none ∨ protocol.due = some id) then
      some ⟨Function.update protocol.isOpen id false, none⟩
    else none
  | .releaseHolds id _ =>
    if protocol.due = none ∧ protocol.isOpen id = false then some protocol else none
  | .jump _ _ => if protocol.due = none then some protocol else none

/-- The protocol state a trace leads to, when every request of it is legal. -/
def after (trace : List Event) : Option Protocol := trace.foldlM next initial

theorem after_append (trace : List Event) (event : Event) :
    after (trace ++ [event]) = (after trace).bind (next · event) := by
  rw [after, foldlM_append, after]
  cases trace.foldlM next initial <;> simp

end Protocol

section Conversation

variable {ρ : Type} (sequence : Sequence) (runner : CommandRunner ρ)

/-- The runner answers an event and moves on. -/
def Answers (before : ρ) : Event → ρ → Prop
  | .enter id now answer _, after =>
    ∃ step, sequence.find id = some step ∧ runner.enter step now before = (answer, after)
  | .tick id now answer, after =>
    ∃ step, sequence.find id = some step ∧ runner.tick step now before = (answer, after)
  | .join id, after =>
    ∃ step, sequence.find id = some step ∧ runner.join step before = after
  | .exit id now outcome, after =>
    ∃ step, sequence.find id = some step ∧ runner.exit step now before = (outcome, after)
  | .releaseHolds id outcome, after =>
    ∃ step, sequence.find id = some step ∧ runner.releaseHolds step before = (outcome, after)
  | .jump _ _, after => after = before

/-- A trace of legal requests together with the protocol state and the runner
state it leads to. -/
inductive Conversation (start : ρ) : List Event → Protocol → ρ → Prop
  | start : Conversation start [] Protocol.initial start
  | step {trace : List Event} {protocol next : Protocol} {before after : ρ} {event : Event} :
      Conversation start trace protocol before →
      protocol.next event = some next →
      Answers sequence runner before event after →
      Conversation start (trace ++ [event]) next after

end Conversation

/-! ## The calls of one step -/

inductive Call where
  | enter | tick | exit
  deriving DecidableEq, Repr

/-- The call an event makes on one step, if it makes one. -/
def Event.callOn (id : StepId) : Event → Option Call
  | .enter other _ _ _ => if other = id then some .enter else none
  | .tick other _ _ => if other = id then some .tick else none
  | .exit other _ _ => if other = id then some .exit else none
  | _ => none

def callsOf (id : StepId) (trace : List Event) : List Call := trace.filterMap (Event.callOn id)

theorem callsOf_append (id : StepId) (first second : List Event) :
    callsOf id (first ++ second) = callsOf id first ++ callsOf id second :=
  filterMap_append

theorem callsOf_singleton (id : StepId) (event : Event) :
    callsOf id [event] = (event.callOn id).toList := by
  rw [callsOf, filterMap_cons, filterMap_nil]
  cases event.callOn id <;> rfl

/-- One entry, any number of ticks, one exit. -/
def IsCycle (calls : List Call) : Prop :=
  ∃ ticks, calls = .enter :: (List.replicate ticks .tick ++ [.exit])

/-- The language `(enter tick* exit)*`. -/
def Cycles (calls : List Call) : Prop :=
  ∃ cycles : List (List Call), (∀ cycle ∈ cycles, IsCycle cycle) ∧ calls = cycles.flatten

/-- Complete cycles followed by an entry that has not been exited yet. -/
def OpenCycles (calls : List Call) : Prop :=
  ∃ complete ticks, Cycles complete ∧ calls = complete ++ .enter :: List.replicate ticks .tick

theorem cycles_nil : Cycles [] := ⟨[], by simp, rfl⟩

variable {calls : List Call}

theorem Cycles.enter (cycles : Cycles calls) : OpenCycles (calls ++ [.enter]) :=
  ⟨calls, 0, cycles, rfl⟩

theorem OpenCycles.tick (cycles : OpenCycles calls) : OpenCycles (calls ++ [.tick]) := by
  obtain ⟨complete, ticks, isCycles, rfl⟩ := cycles
  refine ⟨complete, ticks + 1, isCycles, ?_⟩
  simp [replicate_succ']

theorem OpenCycles.exit (cycles : OpenCycles calls) : Cycles (calls ++ [.exit]) := by
  obtain ⟨complete, ticks, ⟨parts, partsCycle, rfl⟩, rfl⟩ := cycles
  refine ⟨parts ++ [.enter :: (List.replicate ticks .tick ++ [.exit])], ?_, by simp⟩
  intro part member
  rcases mem_append.mp member with old | new
  · exact partsCycle part old
  · exact ⟨ticks, mem_singleton.mp new⟩

section

variable {ρ : Type} {sequence : Sequence} {runner : CommandRunner ρ} {start : ρ}
  {protocol : Protocol} {trace : List Event} {state : ρ}

theorem Conversation.after (conversation : Conversation sequence runner start trace protocol state)
    : Protocol.after trace = some protocol := by
  induction conversation with
  | start => rfl
  | step _ legal _ ih =>
    rw [Protocol.after_append, ih]
    exact legal

/-- The last request of a conversation. -/
theorem Conversation.last {event : Event}
    (conversation : Conversation sequence runner start (trace ++ [event]) protocol state) :
    ∃ earlier before, Conversation sequence runner start trace earlier before ∧
      earlier.next event = some protocol ∧ Answers sequence runner before event state := by
  generalize whole : trace ++ [event] = events at conversation
  cases conversation with
  | start => simp at whole
  | step conversation legal answers =>
    obtain ⟨rfl, same⟩ := append_inj' whole rfl
    cases same
    exact ⟨_, _, conversation, legal, answers⟩

/-- The calls of each step follow the protocol state. -/
theorem Conversation.cycles (conversation : Conversation sequence runner start trace protocol state)
    (id : StepId) : if protocol.isOpen id = true then OpenCycles (callsOf id trace)
    else Cycles (callsOf id trace) := by
  induction conversation with
  | start => exact cycles_nil
  | @step trace protocol next before after event conversation legal _ ih =>
    rw [callsOf_append, callsOf_singleton]
    cases event with
      simp only [Protocol.next, ite_none_right_eq_some, some.injEq] at legal
    | enter other now answer statuses =>
      obtain ⟨⟨_, closed⟩, rfl⟩ := legal
      by_cases same : other = id
      · subst other
        rw [if_neg (by simp [closed])] at ih
        simpa [Event.callOn] using ih.enter
      · simpa [Event.callOn, same, Ne.symm same] using ih
    | tick other now answer =>
      obtain ⟨⟨_, isOpen⟩, rfl⟩ := legal
      by_cases same : other = id
      · subst other
        rw [if_pos isOpen] at ih ⊢
        simpa [Event.callOn] using ih.tick
      · simpa [Event.callOn, same] using ih
    | exit other now outcome =>
      obtain ⟨⟨isOpen, _⟩, rfl⟩ := legal
      by_cases same : other = id
      · subst other
        rw [if_pos isOpen] at ih
        simpa [Event.callOn] using ih.exit
      · simpa [Event.callOn, same, Ne.symm same] using ih
    | join other | releaseHolds other outcome | jump target refused =>
      obtain ⟨_, rfl⟩ := legal
      simpa [Event.callOn] using ih

end

/-! ## Entries -/

/-- The steps entered so far, in the order of their first entry. -/
def firstEntered (trace : List Event) : List StepId :=
  trace.foldl
    (fun entered event =>
      match event with
      | .enter id _ _ _ => if id ∈ entered then entered else entered ++ [id]
      | _ => entered)
    []

/-- How often a step was entered. -/
def entryCount (id : StepId) (trace : List Event) : Nat := (callsOf id trace).count .enter

/-- When a step was entered last. -/
def lastEntry (id : StepId) (trace : List Event) : Option TimePoint :=
  trace.foldl
    (fun last event =>
      match event with
      | .enter other now _ _ => if other = id then some now else last
      | _ => last)
    none

/-- Whether the last call on a step left it entered. -/
def openIn (trace : List Event) (id : StepId) : Bool :=
  match (callsOf id trace).getLast? with
  | some .enter => true
  | some .tick => true
  | _ => false

/-- The steps that are entered and not exited, in the order of first entry. -/
def openSteps (trace : List Event) : List StepId := (firstEntered trace).filter (openIn trace)

/-- The steps exited by a part of a trace, in order. -/
def exitsOf (trace : List Event) : List StepId :=
  trace.filterMap fun event =>
    match event with
    | .exit id _ _ => some id
    | _ => none

/-- Teardown events: nothing is entered or ticked. -/
def Event.isTeardown : Event → Bool
  | .enter .. => false
  | .tick .. => false
  | _ => true

/-- A step is exited, or what it left down is lifted. -/
def Event.isReleaseOf (id : StepId) : Event → Bool
  | .exit other _ _ => other == id
  | .releaseHolds other _ => other == id
  | _ => false

/-- A request that the step's command answered with a failure. -/
def Event.isFailureOf (id : StepId) : Event → Bool
  | .enter other _ answer _ => other == id && answer == .failure
  | .tick other _ answer => other == id && answer == .failure
  | _ => false

/-- An interruption tears down what a trace left open: nothing is entered or
ticked and the open steps are exited in the reverse of their first entries. -/
def InterruptTeardown (before after : List Event) : Prop :=
  ∃ teardown, after = before ++ teardown ∧
    (∀ event ∈ teardown, event.isTeardown = true) ∧
    exitsOf teardown = (openSteps before).reverse

/-- The trace up to a failure and the exits that answer it: the failing step,
then the other open steps in the reverse of their first entries. -/
def FailureOrder (before : List Event) (exits : List StepId) : Prop :=
  ∃ failing request earlier, before = earlier ++ [request] ∧
    request.isFailureOf failing = true ∧
    exits = failing :: ((openSteps before).erase failing).reverse

/-- A trace that ends with a failure and the teardown that answers it. -/
def FailureTeardown (trace : List Event) : Prop :=
  ∃ before teardown, trace = before ++ teardown ∧
    (∀ event ∈ teardown, event.isTeardown = true) ∧
    FailureOrder before (exitsOf teardown)

end Grab.Kernel
