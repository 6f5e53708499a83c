import Grab.Events.Bus

/-!
# Demand callbacks

A call to `subscribe` or `unsubscribe` finds its transitions under the lock of the bus and
invokes the demand callback for them after it has released the lock.  The callbacks of calls
that overlap may therefore be invoked in any order of the calls; only those of one call are in
order.

The callback is installed throughout.
-/

namespace Grab.Events

open List Function

/-- The bus together with the calls that have left their locked part. -/
structure Demand where
  bus : EventBusState := {}
  /-- For each call, in the order of their locked parts, what it has still to report. -/
  calls : List (List (EventKind × Bool)) := []
  /-- Invocations of the callback so far. -/
  delivered : List (EventKind × Bool) := []

inductive DemandStep where
  | subscribe (providers : EventKind → Option (List Event)) (scope : SubscriptionScope)
      (options : QueueOptions)
  | unsubscribe (id : SubscriptionId)
  | publish (event : Event)
  /-- The call at a position invokes its next callback. -/
  | invoke (call : Nat)

namespace Demand

def invoke (demand : Demand) (call : Nat) : Demand :=
  match demand.calls[call]? with
  | some (transition :: rest) =>
    { demand with
      calls := demand.calls.set call rest
      delivered := demand.delivered ++ [transition] }
  | _ => demand

def step (demand : Demand) : DemandStep → Demand
  | .subscribe providers scope options =>
    let (bus, transitions) := demand.bus.add providers scope options
    { demand with bus := bus, calls := demand.calls ++ [transitions] }
  | .unsubscribe id =>
    let (bus, transitions) := demand.bus.remove id
    { demand with bus := bus, calls := demand.calls ++ [transitions] }
  | .publish event => { demand with bus := demand.bus.publish event }
  | .invoke call => demand.invoke call

def run (steps : List DemandStep) : Demand := steps.foldl step {}

/-- Every call has returned. -/
def Returned (demand : Demand) : Prop := ∀ pending ∈ demand.calls, pending = []

instance (demand : Demand) : Decidable demand.Returned :=
  inferInstanceAs (Decidable (∀ pending ∈ demand.calls, pending = []))

end Demand

/-- What the last report of a kind said. -/
def lastReport (reports : List (EventKind × Bool)) (kind : EventKind) : Option Bool :=
  ((reports.filter fun report => report.1 == kind).getLast?).map Prod.snd

/-- The reports say of each kind whether it has a subscription. -/
def Reported (counts : EventKind → Nat) (reports : List (EventKind × Bool)) : Prop :=
  ∀ kind, lastReport reports kind = some true ↔ 0 < counts kind

/-! ## The order of reports -/

variable (reports : List (EventKind × Bool))

theorem lastReport_concat_self (kind : EventKind) (enabled : Bool) :
    lastReport (reports ++ [(kind, enabled)]) kind = some enabled := by
  simp [lastReport, filter_append]

theorem lastReport_concat_other {kind other : EventKind} (enabled : Bool) (different : kind ≠ other)
    : lastReport (reports ++ [(kind, enabled)]) other = lastReport reports other := by
  simp [lastReport, filter_append, different]

variable {before reports : List (EventKind × Bool)} {counts : EventKind → Nat}

theorem Reported.retain (reported : Reported counts (before ++ reports)) (kind : EventKind) :
    Reported (EventBusState.retain (counts, reports) kind).1
      (before ++ (EventBusState.retain (counts, reports) kind).2) := by
  intro other
  unfold EventBusState.retain
  dsimp only
  by_cases same : kind = other
  · subst same
    rw [update_self]
    split
    · rw [← append_assoc, lastReport_concat_self]
      simp
    have held := reported kind
    constructor
    · intro _
      omega
    · intro _
      apply held.mpr
      omega
  · rw [update_of_ne (Ne.symm same)]
    split
    · rw [← append_assoc, lastReport_concat_other _ true same]
      exact reported other
    · exact reported other

theorem Reported.release (reported : Reported counts (before ++ reports)) (kind : EventKind) :
    Reported (EventBusState.release (counts, reports) kind).1
      (before ++ (EventBusState.release (counts, reports) kind).2) := by
  unfold EventBusState.release
  by_cases none : counts kind = 0
  · rw [if_pos none]
    exact reported
  rw [if_neg none]
  intro other
  dsimp only
  by_cases same : kind = other
  · subst same
    rw [update_self]
    split
    · rw [← append_assoc, lastReport_concat_self]
      simp only [Option.some.injEq, Bool.false_eq_true, false_iff]
      omega
    have held := reported kind
    constructor
    · intro _
      omega
    · intro _
      apply held.mpr
      omega
  · rw [update_of_ne (Ne.symm same)]
    split
    · rw [← append_assoc, lastReport_concat_other _ false same]
      exact reported other
    · exact reported other

/-- A locked part counts one kind after the other. -/
theorem Reported.foldl (round : (EventKind → Nat) × List (EventKind × Bool) → EventKind →
      (EventKind → Nat) × List (EventKind × Bool))
    (keeps : ∀ counts reports kind, Reported counts (before ++ reports) →
      Reported (round (counts, reports) kind).1 (before ++ (round (counts, reports) kind).2))
    (kinds : List EventKind) (state : (EventKind → Nat) × List (EventKind × Bool))
    (reported : Reported state.1 (before ++ state.2)) :
    Reported (kinds.foldl round state).1 (before ++ (kinds.foldl round state).2) := by
  induction kinds generalizing state with
  | nil => exact reported
  | cons kind rest later =>
    apply later
    exact keeps state.1 state.2 kind reported

section

variable {bus : EventBusState} (reported : Reported bus.subscriptionRefcounts before)

include reported

theorem Reported.start : Reported bus.subscriptionRefcounts (before ++ []) := by
  rw [append_nil]
  exact reported

theorem Reported.add (providers : EventKind → Option (List Event)) (scope : SubscriptionScope)
    (options : QueueOptions) :
    Reported (bus.add providers scope options).1.subscriptionRefcounts
      (before ++ (bus.add providers scope options).2) :=
  Reported.foldl EventBusState.retain (fun _ _ kind reported => reported.retain kind)
    (normalizedKinds scope) (bus.subscriptionRefcounts, []) reported.start

theorem Reported.remove (id : SubscriptionId) :
    Reported (bus.remove id).1.subscriptionRefcounts (before ++ (bus.remove id).2) := by
  unfold EventBusState.remove
  cases bus.subscriptions.lookup id with
  | none => exact reported.start
  | some subscription =>
    exact Reported.foldl EventBusState.release (fun _ _ kind reported => reported.release kind)
      subscription.scope.kinds (bus.subscriptionRefcounts, []) reported.start

end

/-! ## One step -/

namespace Demand

/-- What has been reported, followed by what is still to be reported in the order of the
locked parts. -/
def history (demand : Demand) : List (EventKind × Bool) := demand.delivered ++ demand.calls.flatten

/-- The invariant of every run that reports each kind in order. -/
def Tracked (demand : Demand) : Prop := Reported demand.bus.subscriptionRefcounts demand.history

/-- The callback a call invokes next is the oldest one of its kind: no call whose locked part
came first has still to report that kind. -/
def InOrder (demand : Demand) : DemandStep → Prop
  | .invoke call =>
    ∀ transition rest, demand.calls[call]? = some (transition :: rest) →
      ∀ pending ∈ demand.calls.take call, ∀ earlier ∈ pending, earlier.1 ≠ transition.1
  | _ => True

/-- Every callback of a run is invoked in order. -/
def RunsInOrder : Demand → List DemandStep → Prop
  | _, [] => True
  | demand, step :: rest => demand.InOrder step ∧ RunsInOrder (demand.step step) rest

variable {demand : Demand}

/-- A call enters after its locked part, with everything it has to report. -/
theorem tracked_enter {bus : EventBusState} {transitions : List (EventKind × Bool)}
    (reported : Reported bus.subscriptionRefcounts (demand.history ++ transitions)) :
    Tracked { demand with bus := bus, calls := demand.calls ++ [transitions] } := by
  unfold Tracked history at *
  rw [flatten_append, flatten_singleton, ← append_assoc]
  exact reported

/-- Invoking the oldest callback of a kind moves it behind the delivered ones
without passing another one of its kind. -/
theorem history_invoke {call : Nat} (inOrder : demand.InOrder (.invoke call)) (kind : EventKind) :
    (demand.invoke call).history.filter (fun report => report.1 == kind) =
      demand.history.filter fun report => report.1 == kind := by
  unfold invoke
  split
  case h_2 => rfl
  case h_1 transition rest here =>
    rcases List.getElem?_eq_some_iff.mp here with ⟨inside, _⟩
    have shape : demand.calls = demand.calls.take call ++
        (transition :: rest) :: demand.calls.drop (call + 1) := by
      rw [← List.getElem?_eq_some_iff.mp here |>.2, cons_getElem_drop_succ, take_append_drop]
    have after : demand.calls.set call rest = demand.calls.take call ++
        rest :: demand.calls.drop (call + 1) := set_eq_take_append_cons_drop ▸ if_pos inside
    have passed := inOrder transition rest here
    unfold history
    dsimp only
    rw [after]
    nth_rewrite 3 [shape]
    simp only [flatten_append, flatten_cons, filter_append, append_assoc,
      cons_append, filter_cons, filter_nil]
    by_cases same : (transition.1 == kind) = true
    · have skipped : (demand.calls.take call).flatten.filter (fun report => report.1 == kind) =
          [] := by
        rw [filter_eq_nil_iff]
        intro earlier member
        rcases mem_flatten.mp member with ⟨pending, inCalls, inPending⟩
        rw [beq_iff_eq] at same ⊢
        rw [← same]
        exact passed pending inCalls earlier inPending
      rw [skipped, if_pos same, if_pos same]
      rfl
    · rw [if_neg same, if_neg same]
      rfl

theorem tracked_step (tracked : demand.Tracked) (step : DemandStep)
    (inOrder : demand.InOrder step) : (demand.step step).Tracked := by
  cases step with
  | subscribe providers scope options => exact tracked_enter (tracked.add providers scope options)
  | unsubscribe id => exact tracked_enter (tracked.remove id)
  | publish event => exact tracked
  | invoke call =>
    intro kind
    have sameBus : (demand.step (.invoke call)).bus = demand.bus := by
      unfold Demand.step invoke
      dsimp only
      split <;> rfl
    rw [sameBus, lastReport]
    change (((demand.invoke call).history.filter _).getLast?).map Prod.snd = some true ↔ _
    rw [history_invoke inOrder kind]
    exact tracked kind

/-! ## Every run -/

theorem tracked_foldl (steps : List DemandStep) (tracked : demand.Tracked)
    (inOrder : RunsInOrder demand steps) : (steps.foldl step demand).Tracked := by
  induction steps generalizing demand with
  | nil => exact tracked
  | cons first rest later =>
    apply later (tracked_step tracked first inOrder.1)
    exact inOrder.2

theorem tracked_start : Tracked {} := by
  intro kind
  constructor
  · nofun
  · intro counted
    exact absurd counted (Nat.lt_irrefl 0)

/-- In every run that invokes the callbacks of each kind in the order of the locked parts, once
all calls have returned the last callback of a kind says whether it has a subscription. -/
theorem demand_follows_subscriptions (steps : List DemandStep) (inOrder : RunsInOrder {} steps)
    (returned : (run steps).Returned) (kind : EventKind)
    (transition : ∃ report ∈ (run steps).delivered, report.1 = kind) :
    lastReport (run steps).delivered kind =
      some (decide (0 < (run steps).bus.subscriptionRefcounts kind)) := by
  have tracked : (run steps).Tracked := tracked_foldl steps tracked_start inOrder
  have finished : (run steps).calls.flatten = [] := by
    rw [flatten_eq_nil_iff]
    exact returned
  have reported := tracked kind
  rw [history, finished, append_nil] at reported
  rcases transition with ⟨report, member, rfl⟩
  cases last : lastReport (run steps).delivered report.1 with
  | none =>
    rw [lastReport, Option.map_eq_none_iff, getLast?_eq_none_iff, filter_eq_nil_iff] at last
    exact absurd (beq_self_eq_true report.1) (last report member)
  | some enabled =>
    rw [last] at reported
    cases enabled with
    | true =>
      have counted := reported.mp rfl
      rw [decide_eq_true counted]
    | false =>
      have notCounted : ¬0 < (run steps).bus.subscriptionRefcounts report.1 := by
        intro counted
        cases reported.mpr counted
      rw [decide_eq_false notCounted]

/-- The calls one after the other: each has returned before the next one starts. -/
def quietRun : List DemandStep :=
  [ .subscribe (fun _ => none) { kinds := [.keyDown] } {}, .invoke 0,
    .unsubscribe 1, .invoke 1,
    .subscribe (fun _ => none) { kinds := [.keyDown] } {}, .invoke 2 ]

theorem demand_follows_subscriptions_quiet :
    (run quietRun).delivered = [(.keyDown, true), (.keyDown, false), (.keyDown, true)] ∧
      lastReport (run quietRun).delivered .keyDown =
        some (decide (0 < (run quietRun).bus.subscriptionRefcounts .keyDown)) := by
  have delivered : (run quietRun).delivered =
      [(.keyDown, true), (.keyDown, false), (.keyDown, true)] := by decide +kernel
  refine ⟨delivered, demand_follows_subscriptions quietRun ?_ (by decide +kernel) .keyDown ?_⟩
  · have alone : ∀ (demand : Demand) (call : Nat),
        (∀ pending ∈ demand.calls.take call, pending = []) → demand.InOrder (.invoke call) := by
      intro demand call empty transition rest _ pending member earlier inPending
      rw [empty pending member] at inPending
      cases inPending
    refine ⟨trivial, alone _ _ ?_, trivial, alone _ _ ?_, trivial, alone _ _ ?_, trivial⟩ <;>
      decide +kernel
  · rw [delivered]
    exact ⟨_, mem_cons_self, rfl⟩

/-- The last subscriber leaves and a new one arrives before the callback of the first call was
invoked; the callback of the second call overtakes it. -/
def overtakenRun : List DemandStep :=
  [ .subscribe (fun _ => none) { kinds := [.keyDown] } {}, .invoke 0,
    .unsubscribe 1,
    .subscribe (fun _ => none) { kinds := [.keyDown] } {},
    .invoke 2, .invoke 1 ]

/-- The kind is left off although somebody is subscribed to it. -/
theorem demand_left_off :
    (run overtakenRun).Returned ∧
      lastReport (run overtakenRun).delivered .keyDown = some false ∧
      (run overtakenRun).bus.subscriptionRefcounts .keyDown = 1 := by
  decide +kernel

end Demand

end Grab.Events
