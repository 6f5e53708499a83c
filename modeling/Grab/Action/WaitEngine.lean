import Grab.Query.Evaluator
import Grab.Lib.Stateful

/-!
# Waiting for a node

The predicates of `kernel/action/wait_engine.cpp` and the composition of them that an action waits
for.  Every predicate asks the observer anew; `all_of` asks its predicates in their order and stops
at the first that is not satisfied.  So `state_stable` learns nothing of an evaluation in which
`node_present` did not find the node, and its count goes on where it stood.
-/

namespace Grab.Kernel.Action

open Grab Grab.Lib Grab.Kernel.Query List

/-! ## Predicates -/

inductive NodeState where
  | active | focused | visible | selected | enabled | editable | expanded | busy
  deriving DecidableEq, Repr

def stateMask : NodeState → UInt32
  | .active => 1
  | .focused => 2
  | .visible => 4
  | .selected => 8
  | .enabled => 16
  | .editable => 32
  | .expanded => 64
  | .busy => 128

def hasState (states : UInt32) (state : NodeState) : Bool := (states &&& stateMask state) != 0

structure NodeObservation where
  present : Bool := false
  states : UInt32 := 0
  detail : String := ""
  deriving DecidableEq, Repr

/-- What an observer answers with. -/
abbrev Observed := Except Error NodeObservation

structure PredicateObservation where
  satisfied : Bool := false
  detail : String
  deriving DecidableEq, Repr

structure StabilityState where
  previous : Option UInt32 := none
  consecutive : ℕ := 0
  deriving DecidableEq, Repr

/-- A wait under way: the answers of the observer that are still to come, those that the present
evaluation got, and the state that `state_stable` keeps from one evaluation to the next. -/
structure Watch where
  coming : ℕ → Observed
  made : List Observed := []
  stability : StabilityState := {}

abbrev NodeObserver := StateM Watch Observed

/-- One answer is given. -/
def Watch.next (watch : Watch) : Watch :=
  { watch with
    coming := fun later => watch.coming (later + 1)
    made := watch.made ++ [watch.coming 0] }

/-- The observer of a wait. -/
def observer : NodeObserver := modifyGet fun watch => (watch.coming 0, watch.next)

abbrev Observe := StateM Watch (Except Error PredicateObservation)

/-- An empty `std::function` observes nothing. -/
structure NamedPredicate where
  name : String
  observe : Option Observe

/-- One observation and what is made of it. -/
def judged (observer : NodeObserver) (judge : NodeObservation → PredicateObservation) :
    Observe := do
  return (← observer).map judge

def nodePresent (observer : NodeObserver) : NamedPredicate where
  name := "node_present"
  observe := some <| judged observer fun observed =>
    { satisfied := observed.present
      detail := if observed.present then "node is present" else observed.detail }

def enabled (observer : NodeObserver) : NamedPredicate where
  name := "enabled"
  observe := some <| judged observer fun observed =>
    let isEnabled := observed.present && hasState observed.states .enabled
    { satisfied := isEnabled
      detail := if isEnabled then "node is enabled"
        else "node is not enabled: " ++ observed.detail }

def windowMapped (observer : NodeObserver) : NamedPredicate where
  name := "window_mapped"
  observe := some <| judged observer fun observed =>
    let mapped := observed.present && hasState observed.states .visible
    { satisfied := mapped
      detail := if mapped then "window is mapped"
        else "window is not mapped: " ++ observed.detail }

/-- An observation of a node that is there, counted. -/
def StabilityState.count (state : StabilityState) (states : UInt32) : StabilityState :=
  if state.previous = some states then { state with consecutive := state.consecutive + 1 }
  else { previous := some states, consecutive := 1 }

/-- What `state_stable` makes of its observation. -/
def weigh (requiredObservations : ℕ) : Observed → Observe
  | .error error => return .error error
  | .ok observed =>
    modifyGet fun watch =>
      if ¬observed.present then
        (.ok { satisfied := false, detail := "node disappeared while observing stability" },
          { watch with stability := {} })
      else
        let stability := watch.stability.count observed.states
        let stable := decide (requiredObservations ≤ stability.consecutive)
        (.ok
          { satisfied := stable
            detail := if stable then "node state is stable"
              else "node state has not been observed enough times" },
          { watch with stability })

def steady (observer : NodeObserver) (requiredObservations : ℕ) : Observe := do
  if requiredObservations = 0 then
    return .error ⟨.invalidArgument, "state stability requires at least one observation"⟩
  weigh requiredObservations (← observer)

def stateStable (observer : NodeObserver) (requiredObservations : ℕ) : NamedPredicate where
  name := "state_stable"
  observe := some (steady observer requiredObservations)

/-- The loop of `all_of`. -/
def allSatisfied : List NamedPredicate → Observe
  | [] => return .ok { satisfied := true, detail := "all checks satisfied" }
  | predicate :: rest => do
      match predicate.observe with
      | none => return .error ⟨.invalidArgument, "composed predicate has no observer"⟩
      | some observe =>
        match ← observe with
        | .error error => return .error error
        | .ok observed =>
          if observed.satisfied then allSatisfied rest
          else
            return .ok
              { satisfied := false, detail := predicate.name ++ ": " ++ observed.detail }

def allOf (name : String) (predicates : List NamedPredicate) : NamedPredicate where
  name := name
  observe := some (allSatisfied predicates)

/-! ## The wait of an action -/

/-- `TransactionRunner::node_observer`: what is seen of the target when the tree source, if there
is one, answers with a snapshot. -/
def nodeObserver (target : WidgetRef) (source : Option (Except Error TreeNav)) : Observed :=
  match source with
  | none => .error ⟨.capabilityUnavailable, "runtime has no tree source"⟩
  | some (.error error) => .error error
  | some (.ok navigation) =>
    let metadata := navigation.metadata
    let node : NodeId := ⟨target.node⟩
    let identityMatches := metadata.runtime = target.runtime ∧ metadata.tree = target.tree ∧
      metadata.epoch = target.epoch ∧ navigation.contains node ∧
      navigation.generation node = target.generation
    .ok
      { present := decide identityMatches
        states := if identityMatches then navigation.states node else 0
        detail := if identityMatches then "resolved node observed"
          else "resolved node is stale or absent" }

/-- The predicate of `wait_for_actionability`, for any number of observations. -/
def actionable (requiredObservations : ℕ) : NamedPredicate :=
  allOf "actionable"
    [nodePresent observer, stateStable observer requiredObservations, enabled observer]

/-- One evaluation of the composed predicate: the observations it made, in order, and what came
of them. -/
structure Evaluation where
  made : List Observed
  outcome : Except Error PredicateObservation

def NamedPredicate.evaluate (predicate : NamedPredicate) (watch : Watch) : Evaluation × Watch :=
  match predicate.observe with
  | none =>
    (⟨[], .error ⟨.invalidArgument, "wait predicate must have a name and observer"⟩⟩, watch)
  | some observe =>
    let result := observe.run { watch with made := [] }
    (⟨result.2.made, result.1⟩, result.2)

/-- The first evaluations of a predicate, one after the other. -/
def NamedPredicate.evaluations (predicate : NamedPredicate) (watch : Watch) :
    ℕ → List Evaluation × Watch
  | 0 => ([], watch)
  | count + 1 =>
    let sofar := predicate.evaluations watch count
    let last := predicate.evaluate sofar.2
    (sofar.1 ++ [last.1], last.2)

/-! ## What the predicates do -/

section

variable {watch after : Watch} {observe : Observe} {error : Error} {node : NodeObservation}
  {observed : PredicateObservation} {predicate : NamedPredicate} {rest : List NamedPredicate}
  {required : ℕ}

theorem run_judged (judge : NodeObservation → PredicateObservation) :
    (judged observer judge).run watch = ((watch.coming 0).map judge, watch.next) :=
  rfl

variable (asks : predicate.observe = some observe)

include asks

theorem run_all_error (answers : observe.run watch = (.error error, after)) :
    (allSatisfied (predicate :: rest)).run watch = (.error error, after) := by
  have asked : observe watch = (.error error, after) := answers
  simp only [allSatisfied, asks, StateT.run, bind, StateT.bind, asked]
  rfl

variable (answers : observe.run watch = (.ok observed, after))

include answers

theorem run_all_unsatisfied (fails : observed.satisfied = false) :
    (allSatisfied (predicate :: rest)).run watch =
      (.ok { satisfied := false, detail := predicate.name ++ ": " ++ observed.detail }, after) := by
  have asked : observe watch = (.ok observed, after) := answers
  simp only [allSatisfied, asks, StateT.run, bind, StateT.bind, asked, fails]
  rfl

theorem run_all_satisfied (holds : observed.satisfied) :
    (allSatisfied (predicate :: rest)).run watch = (allSatisfied rest).run after := by
  have asked : observe watch = (.ok observed, after) := answers
  simp only [allSatisfied, asks, StateT.run, bind, StateT.bind, asked, holds]
  rfl

omit answers asks

theorem run_steady (asks : 0 < required) :
    (steady observer required).run watch = (weigh required (watch.coming 0)).run watch.next := by
  have some : required ≠ 0 := asks.ne'
  simp only [steady, some, if_false]
  rfl

theorem run_weigh_absent (absent : node.present = false) : (weigh required (.ok node)).run watch =
      (.ok { satisfied := false, detail := "node disappeared while observing stability" },
        { watch with stability := {} }) := by
  have gone : ¬node.present := by simp [absent]
  exact if_pos gone

theorem run_weigh_present (present : node.present) :
    ∃ detail, (weigh required (.ok node)).run watch =
      (.ok ⟨decide (required ≤ (watch.stability.count node.states).consecutive), detail⟩,
        { watch with stability := watch.stability.count node.states }) :=
  ⟨_, if_neg (not_not_intro present)⟩

end

/-! ## One evaluation -/

/-- After so many answers, with a count of the states. -/
def Watch.later (watch : Watch) (answers : ℕ) (stability : StabilityState) : Watch where
  coming := fun later => watch.coming (later + answers)
  made := (List.range answers).map watch.coming
  stability := stability

/-- Everything an evaluation of `actionable` can do. -/
inductive Evaluated (required : ℕ) (watch : Watch) : Evaluation × Watch → Prop where
  | unseen {error : Error} (first : watch.coming 0 = .error error) :
      Evaluated required watch (⟨[watch.coming 0], .error error⟩, watch.later 1 watch.stability)
  | gone {node : NodeObservation} {detail : String} (first : watch.coming 0 = .ok node)
      (absent : node.present = false) :
      Evaluated required watch
        (⟨[watch.coming 0], .ok ⟨false, detail⟩⟩, watch.later 1 watch.stability)
  | unasked {node : NodeObservation} {error : Error} (first : watch.coming 0 = .ok node)
      (present : node.present) (none : required = 0) :
      Evaluated required watch (⟨[watch.coming 0], .error error⟩, watch.later 1 watch.stability)
  | unknown {node : NodeObservation} {error : Error} (first : watch.coming 0 = .ok node)
      (present : node.present) (second : watch.coming 1 = .error error) :
      Evaluated required watch
        (⟨[watch.coming 0, watch.coming 1], .error error⟩, watch.later 2 watch.stability)
  | reset {node state : NodeObservation} {detail : String} (first : watch.coming 0 = .ok node)
      (present : node.present) (second : watch.coming 1 = .ok state)
      (absent : state.present = false) :
      Evaluated required watch
        (⟨[watch.coming 0, watch.coming 1], .ok ⟨false, detail⟩⟩, watch.later 2 {})
  | unstable {node state : NodeObservation} {detail : String} (first : watch.coming 0 = .ok node)
      (present : node.present) (second : watch.coming 1 = .ok state) (there : state.present)
      (few : (watch.stability.count state.states).consecutive < required) :
      Evaluated required watch
        (⟨[watch.coming 0, watch.coming 1], .ok ⟨false, detail⟩⟩,
          watch.later 2 (watch.stability.count state.states))
  | asked {node state : NodeObservation} {outcome : Except Error PredicateObservation}
      (first : watch.coming 0 = .ok node) (present : node.present)
      (second : watch.coming 1 = .ok state) (there : state.present) (some : 0 < required)
      (enough : required ≤ (watch.stability.count state.states).consecutive)
      (judged : ∀ observed, outcome = .ok observed → observed.satisfied →
        ∃ last, watch.coming 2 = .ok last ∧ last.present) :
      Evaluated required watch
        (⟨[watch.coming 0, watch.coming 1, watch.coming 2], outcome⟩,
          watch.later 3 (watch.stability.count state.states))

section

variable {required : ℕ} {watch : Watch}

theorem evaluate_actionable {outcome : Except Error PredicateObservation} {after : Watch}
    (ran : (allSatisfied [nodePresent observer, stateStable observer required,
      enabled observer]).run { watch with made := [] } = (outcome, after)) :
    (actionable required).evaluate watch = (⟨after.made, outcome⟩, after) := by
  simp only [NamedPredicate.evaluate, actionable, allOf]
  rw [ran]

/-- The watch when an evaluation begins. -/
def Watch.begin (watch : Watch) : Watch := { watch with made := [] }

/-- `enabled`, the last one asked. -/
theorem run_enabled (watch : Watch) (stability : StabilityState) :
    ∃ outcome, (allSatisfied [enabled observer]).run (watch.later 2 stability) =
        (outcome, watch.later 3 stability) ∧
      ∀ observed, outcome = .ok observed → observed.satisfied →
        ∃ last, watch.coming 2 = .ok last ∧ last.present := by
  have looks : (judged observer fun observed =>
      { satisfied := observed.present && hasState observed.states .enabled
        detail := if observed.present && hasState observed.states .enabled then "node is enabled"
          else "node is not enabled: " ++ observed.detail }).run (watch.later 2 stability) = _ :=
    run_judged _
  have third : (watch.later 2 stability).coming 0 = watch.coming 2 := rfl
  rw [third] at looks
  cases last : watch.coming 2 with
  | error error =>
    rw [last] at looks
    refine ⟨_, run_all_error rfl looks, ?_⟩
    intro observed failed
    cases failed
  | ok node =>
    rw [last] at looks
    cases fits : node.present && hasState node.states .enabled with
    | false =>
      refine ⟨_, run_all_unsatisfied rfl looks fits, ?_⟩
      intro observed failed satisfied
      cases failed
      cases satisfied
    | true =>
      have all : (allSatisfied [enabled observer]).run (watch.later 2 stability) =
          (allSatisfied []).run (watch.later 3 stability) :=
        run_all_satisfied rfl looks fits
      rw [Bool.and_eq_true] at fits
      exact ⟨_, all, fun _ _ _ => ⟨node, rfl, fits.1⟩⟩

theorem evaluated_of_present {node : NodeObservation} (first : watch.coming 0 = .ok node)
    (present : node.present)
    (all : (allSatisfied [nodePresent observer, stateStable observer required,
        enabled observer]).run watch.begin =
      (allSatisfied [stateStable observer required, enabled observer]).run
        (watch.later 1 watch.stability)) :
    Evaluated required watch ((actionable required).evaluate watch) := by
  rcases Nat.eq_zero_or_pos required with none | asks
  · subst none
    have refused : (steady observer 0).run (watch.later 1 watch.stability) =
        (.error ⟨.invalidArgument, "state stability requires at least one observation"⟩,
          watch.later 1 watch.stability) := rfl
    rw [evaluate_actionable (all.trans (run_all_error rfl refused))]
    exact Evaluated.unasked first present rfl
  have looks : (steady observer required).run (watch.later 1 watch.stability) =
      (weigh required (watch.coming 1)).run (watch.later 2 watch.stability) := run_steady asks
  cases second : watch.coming 1 with
  | error error =>
    rw [second] at looks
    rw [evaluate_actionable (all.trans (run_all_error rfl looks))]
    exact Evaluated.unknown first present second
  | ok state =>
    rw [second] at looks
    cases there : state.present with
    | false =>
      rw [run_weigh_absent there] at looks
      rw [evaluate_actionable (all.trans (run_all_unsatisfied rfl looks rfl))]
      exact Evaluated.reset first present second there
    | true =>
      rcases run_weigh_present there with ⟨detail, weighed⟩
      have counted := looks.trans weighed
      by_cases enough : required ≤ (watch.stability.count state.states).consecutive
      · have stable : decide (required ≤
            ((watch.later 2 watch.stability).stability.count state.states).consecutive) =
            true := decide_eq_true enough
        rcases run_enabled watch (watch.stability.count state.states) with
          ⟨outcome, ran, judged⟩
        have rest : (allSatisfied [stateStable observer required, enabled observer]).run
            (watch.later 1 watch.stability) =
            (allSatisfied [enabled observer]).run
              (watch.later 2 (watch.stability.count state.states)) :=
          run_all_satisfied rfl counted stable
        rw [evaluate_actionable ((all.trans rest).trans ran)]
        exact Evaluated.asked first present second there asks enough judged
      · have unstable : decide (required ≤
            ((watch.later 2 watch.stability).stability.count state.states).consecutive) =
            false := decide_eq_false enough
        rw [evaluate_actionable (all.trans (run_all_unsatisfied rfl counted unstable))]
        exact Evaluated.unstable first present second there (Nat.lt_of_not_le enough)

theorem evaluated (required : ℕ) (watch : Watch) :
    Evaluated required watch ((actionable required).evaluate watch) := by
  let checks := [stateStable observer required, enabled observer]
  have looks : (judged observer fun observed =>
      { satisfied := observed.present
        detail := if observed.present then "node is present" else observed.detail }).run
        watch.begin = _ :=
    run_judged _
  have begins : watch.begin.coming 0 = watch.coming 0 := rfl
  rw [begins] at looks
  cases first : watch.coming 0 with
  | error error =>
    rw [first] at looks
    have all : (allSatisfied (nodePresent observer :: checks)).run watch.begin = _ :=
      run_all_error rfl looks
    rw [evaluate_actionable all]
    exact Evaluated.unseen first
  | ok node =>
    rw [first] at looks
    cases present : node.present with
    | false =>
      have all : (allSatisfied (nodePresent observer :: checks)).run watch.begin = _ :=
        run_all_unsatisfied rfl looks present
      rw [evaluate_actionable all]
      exact Evaluated.gone first present
    | true => exact evaluated_of_present first present (run_all_satisfied rfl looks present)

end

/-! ## Stability -/

namespace Evaluation

/-- What `state_stable` saw, if it came to see something. -/
def stateSeen (evaluation : Evaluation) : Option NodeObservation :=
  evaluation.made[1]?.bind Except.toOption

/-- `node_present` found the node. -/
def Found (evaluation : Evaluation) : Prop :=
  ∃ node, evaluation.made[0]? = some (.ok node) ∧ node.present

/-- The observation of `state_stable` failed. -/
def StateFailed (evaluation : Evaluation) : Prop :=
  ∃ error, evaluation.made[1]? = some (.error error)

/-- `enabled` found the node gone. -/
def Vanished (evaluation : Evaluation) : Prop :=
  ∃ node, evaluation.made[2]? = some (.ok node) ∧ node.present = false

def Satisfied (evaluation : Evaluation) : Prop :=
  ∃ observed, evaluation.outcome = .ok observed ∧ observed.satisfied

end Evaluation

/-- The last of a list. -/
def lastOf {α : Type} (number : ℕ) (entries : List α) : List α :=
  entries.drop (entries.length - number)

/-- The observations from the first that `state_stable` made in these evaluations to the last. -/
def between (window : List Evaluation) : List Observed :=
  ((window.flatMap Evaluation.made).drop 1).dropLast

/-- The state observations that were counted last are those of the last evaluations, one of each,
all of a node that is there and in the same state, and nobody saw the node absent meanwhile. -/
structure Uninterrupted (required : ℕ) (trace : List Evaluation) : Prop where
  consecutive : (lastOf required trace).filterMap Evaluation.stateSeen =
    lastOf required (trace.filterMap Evaluation.stateSeen)
  counted : (lastOf required (trace.filterMap Evaluation.stateSeen)).length = required
  same : ∃ states, ∀ seen ∈ lastOf required (trace.filterMap Evaluation.stateSeen),
    seen.present ∧ seen.states = states
  present : ∀ node, .ok node ∈ between (lastOf required trace) → node.present

/-- In the last evaluations `node_present` found the node and `state_stable` got an answer, and
before the very last one `enabled` did not see the node gone. -/
structure Unbroken (required : ℕ) (trace : List Evaluation) : Prop where
  found : ∀ evaluation ∈ lastOf required trace, evaluation.Found ∧ ¬evaluation.StateFailed
  stayed : ∀ evaluation ∈ (lastOf required trace).dropLast, ¬evaluation.Vanished

section

variable {required : ℕ} {watch after : Watch} {evaluation : Evaluation} {trace : List Evaluation}

/-- What is true of every evaluation. -/
structure Formed (required : ℕ) (evaluation : Evaluation) : Prop where
  found : ∀ seen, evaluation.stateSeen = some seen → evaluation.Found
  goesOn : 0 < required → evaluation.Found → ∃ answer, evaluation.made[1]? = some answer
  short : evaluation.made.length ≤ 3
  satisfied : evaluation.Satisfied → 0 < required ∧ evaluation.stateSeen.isSome ∧
    ∃ node, evaluation.made[2]? = some (.ok node) ∧ node.present

theorem Evaluated.formed (result : Evaluated required watch (evaluation, after)) :
    Formed required evaluation := by
  cases result with
  | unseen first =>
    constructor
    case found => simp [Evaluation.stateSeen]
    case goesOn => simp [Evaluation.Found, first]
    case short => simp
    case satisfied => simp [Evaluation.Satisfied]
  | gone first absent =>
    constructor
    case found => simp [Evaluation.stateSeen]
    case goesOn => simp [Evaluation.Found, first, absent]
    case short => simp
    case satisfied => simp [Evaluation.Satisfied]
  | unasked first present none =>
    constructor
    case found => simp [Evaluation.stateSeen]
    case goesOn => simp [none]
    case short => simp
    case satisfied => simp [Evaluation.Satisfied]
  | unknown first present second =>
    constructor
    case found => simp [Evaluation.stateSeen, second, Except.toOption]
    case goesOn => simp
    case short => simp
    case satisfied => simp [Evaluation.Satisfied]
  | reset first present second absent | unstable first present second there few =>
    constructor
    case found => exact fun _ _ => ⟨_, congrArg some first, present⟩
    case goesOn => simp
    case short => simp
    case satisfied => simp [Evaluation.Satisfied]
  | asked first present second there some enough judged =>
    constructor
    case found => exact fun _ _ => ⟨_, congrArg Option.some first, present⟩
    case goesOn => simp
    case short => simp
    case satisfied =>
      intro satisfied
      rcases satisfied with ⟨observed, outcome, holds⟩
      rcases judged observed outcome holds with ⟨last, third, there⟩
      refine ⟨some, ?_, last, congrArg Option.some third, there⟩
      simp [Evaluation.stateSeen, second, Except.toOption]

/-- The count is that of the last state observations, all of them alike. -/
structure Counting (required : ℕ) (trace : List Evaluation) (stability : StabilityState) :
    Prop where
  formed : ∀ evaluation ∈ trace, Formed required evaluation
  run : ∃ older run, trace.filterMap Evaluation.stateSeen = older ++ run ∧
    run.length = stability.consecutive ∧
    ∀ seen ∈ run, seen.present ∧ stability.previous = some seen.states

variable {stability : StabilityState} (counting : Counting required trace stability)

include counting

variable (formed : Formed required evaluation)

include formed

theorem Counting.formed_append : ∀ member ∈ trace ++ [evaluation], Formed required member := by
  intro member present
  rcases mem_append.mp present with old | last
  · exact counting.formed member old
  · exact mem_singleton.mp last ▸ formed

/-- An evaluation that saw no state leaves the count as it is. -/
theorem Counting.passes (unseen : evaluation.stateSeen = none) :
    Counting required (trace ++ [evaluation]) stability := by
  constructor
  case formed => exact counting.formed_append formed
  case run =>
    have same : (trace ++ [evaluation]).filterMap Evaluation.stateSeen =
        trace.filterMap Evaluation.stateSeen := by
      simp [unseen]
    rw [same]
    exact counting.run

/-- An evaluation whose state observation found the node gone starts over. -/
theorem Counting.resets : Counting required (trace ++ [evaluation]) {} := by
  constructor
  case formed => exact counting.formed_append formed
  case run => exact ⟨_, [], (append_nil _).symm, rfl, by simp⟩

theorem Counting.counts {state : NodeObservation} (seen : evaluation.stateSeen = some state)
    (there : state.present) :
    Counting required (trace ++ [evaluation]) (stability.count state.states) := by
  constructor
  case formed => exact counting.formed_append formed
  case run =>
    have grown : (trace ++ [evaluation]).filterMap Evaluation.stateSeen =
        trace.filterMap Evaluation.stateSeen ++ [state] := by
      simp [seen]
    rcases counting.run with ⟨older, run, split, length, alike⟩
    by_cases same : stability.previous = some state.states
    · have counted : stability.count state.states =
          { stability with consecutive := stability.consecutive + 1 } := if_pos same
      rw [counted]
      refine ⟨older, run ++ [state], ?_, ?_, ?_⟩
      · rw [grown, split, append_assoc]
      · rw [length_append, length_singleton, length]
      intro member present
      rcases mem_append.mp present with old | last
      · exact alike member old
      · rw [mem_singleton.mp last]
        exact ⟨there, same⟩
    · have counted : stability.count state.states =
          { previous := some state.states, consecutive := 1 } := if_neg same
      rw [counted]
      refine ⟨_, [state], grown, rfl, ?_⟩
      intro member last
      rw [mem_singleton.mp last]
      exact ⟨there, rfl⟩

omit formed counting

/-- One evaluation keeps the count, and is satisfied only with enough of it. -/
theorem Counting.evaluated (counting : Counting required trace watch.stability)
    (result : Evaluated required watch (evaluation, after)) :
    Counting required (trace ++ [evaluation]) after.stability ∧
      (evaluation.Satisfied → required ≤ after.stability.consecutive) := by
  have formed := result.formed
  cases result with
  | unseen first | gone first absent | unasked first present none =>
    exact ⟨counting.passes formed rfl, by simp [Evaluation.Satisfied]⟩
  | unknown first present second =>
    have unseen : ∀ outcome,
        (⟨[watch.coming 0, watch.coming 1], outcome⟩ : Evaluation).stateSeen = none :=
      fun _ => congrArg (fun answer => answer.toOption) second
    exact ⟨counting.passes formed (unseen _), by simp [Evaluation.Satisfied]⟩
  | reset first present second absent =>
    exact ⟨counting.resets formed, by simp [Evaluation.Satisfied]⟩
  | unstable first present second there few =>
    have seen : ∀ outcome,
        (⟨[watch.coming 0, watch.coming 1], outcome⟩ : Evaluation).stateSeen = some _ :=
      fun _ => congrArg (fun answer => answer.toOption) second
    exact ⟨counting.counts formed (seen _) there, by simp [Evaluation.Satisfied]⟩
  | asked first present second there some enough judged =>
    have seen : ∀ outcome,
        (⟨[watch.coming 0, watch.coming 1, watch.coming 2], outcome⟩ : Evaluation).stateSeen =
          Option.some _ := fun _ => congrArg (fun answer => answer.toOption) second
    exact ⟨counting.counts formed (seen _) there, fun _ => enough⟩

theorem counting_evaluations (required : ℕ) (coming : ℕ → Observed) (count : ℕ) :
    Counting required ((actionable required).evaluations { coming } count).1
      ((actionable required).evaluations { coming } count).2.stability := by
  induction count with
  | zero =>
    constructor
    case formed => exact forall_mem_nil _
    case run => exact ⟨[], [], rfl, rfl, by simp⟩
  | succ count ih => exact (ih.evaluated (evaluated required _)).1

end

/-! ## Uninterrupted exactly when unbroken -/

section

variable {α : Type} {entries front : List α} {entry : α} {number : ℕ}

theorem mem_of_mem_lastOf (present : entry ∈ lastOf number entries) : entry ∈ entries :=
  mem_of_mem_drop present

theorem length_lastOf (enough : number ≤ entries.length) :
    (lastOf number entries).length = number := by
  rw [lastOf, length_drop]
  exact Nat.sub_sub_self enough

theorem lastOf_append (enough : number ≤ entries.length) :
    lastOf number (front ++ entries) = lastOf number entries := by
  have past : (front ++ entries).length - number = front.length + (entries.length - number) := by
    rw [length_append, Nat.add_sub_assoc enough]
  rw [lastOf, past, drop_append, drop_eq_nil_of_le (Nat.le_add_right _ _),
    Nat.add_sub_cancel_left, nil_append]
  rfl

theorem lastOf_eq_self (length : entries.length = number) : lastOf number entries = entries := by
  simp [lastOf, length]

theorem lastOf_concat (some : 0 < number) :
    lastOf number (front ++ [entry]) = lastOf (number - 1) front ++ [entry] := by
  have past : (front ++ [entry]).length - number = front.length - (number - 1) := by
    rw [length_append, length_singleton]
    omega
  rw [lastOf, past, drop_append_of_le_length (Nat.sub_le _ _)]
  rfl

/-- What is neither the first nor the last of a list is within. -/
theorem mem_inner (present : entry ∈ entries) (first : entries.head? ≠ some entry)
    (last : entries.getLast? ≠ some entry) : entry ∈ (entries.drop 1).dropLast := by
  cases entries with
  | nil => exact absurd present not_mem_nil
  | cons head tail =>
    have inTail : entry ∈ tail := by
      rcases mem_cons.mp present with here | there
      · exact absurd (congrArg some here.symm) first
      · exact there
    have filled : tail ≠ [] := ne_nil_of_mem inTail
    have ends : (head :: tail).getLast? = some (tail.getLast filled) := by
      rw [getLast?_cons_of_ne_nil filled, getLast?_eq_some_getLast filled]
    rw [← dropLast_append_getLast filled] at inTail
    rcases mem_append.mp inTail with inside | atEnd
    · exact inside
    · rw [ends, mem_singleton.mp atEnd] at last
      exact absurd rfl last

end

section

variable {required : ℕ} {trace : List Evaluation} {last : Evaluation} {stability : StabilityState}
  {evaluation : Evaluation}

/-- The last state observations are of a node that is there and in one state. -/
theorem Counting.alike (counting : Counting required trace stability)
    (enough : required ≤ stability.consecutive) :
    (lastOf required (trace.filterMap Evaluation.stateSeen)).length = required ∧
      ∃ states, ∀ seen ∈ lastOf required (trace.filterMap Evaluation.stateSeen),
        seen.present ∧ seen.states = states := by
  rcases counting.run with ⟨older, run, split, length, alike⟩
  have long : required ≤ run.length := length.symm ▸ enough
  rw [split, lastOf_append long]
  refine ⟨length_lastOf long, stability.previous.getD 0, ?_⟩
  intro seen present
  rcases alike seen (mem_of_mem_lastOf present) with ⟨there, same⟩
  exact ⟨there, by rw [same, Option.getD_some]⟩

theorem Evaluation.not_stateFailed {seen : NodeObservation}
    (saw : evaluation.stateSeen = some seen) : ¬evaluation.StateFailed := by
  intro failed
  rcases failed with ⟨error, second⟩
  simp [Evaluation.stateSeen, second, Except.toOption] at saw

/-- What the found node and the answered state of an evaluation come to. -/
theorem Formed.sees (formed : Formed required evaluation) (some : 0 < required)
    (found : evaluation.Found) (answered : ¬evaluation.StateFailed) :
    ∃ seen, evaluation.stateSeen = Option.some seen ∧
      evaluation.made[1]? = Option.some (.ok seen) := by
  rcases formed.goesOn some found with ⟨answer, second⟩
  cases answer with
  | error error => exact absurd ⟨error, second⟩ answered
  | ok seen => exact ⟨seen, by simp [Evaluation.stateSeen, second, Except.toOption], second⟩

/-- Every evaluation of an uninterrupted window saw a state. -/
theorem Uninterrupted.seen (uninterrupted : Uninterrupted required trace) :
    ∀ evaluation ∈ lastOf required trace, evaluation.stateSeen.isSome := by
  apply filterMap_length_eq_length.mp
  apply Nat.le_antisymm (length_filterMap_le _ _)
  rw [uninterrupted.consecutive, uninterrupted.counted, lastOf, length_drop]
  omega

/-- Whoever saw the node gone inside of an evaluation did so between the state observations. -/
theorem gone_between {window : List Evaluation} {node : NodeObservation}
    (formed : ∀ evaluation ∈ window ++ [last], Formed required evaluation)
    (found : ∀ evaluation ∈ window ++ [last], evaluation.Found) (satisfied : last.Satisfied)
    (made : .ok node ∈ (window ++ [last]).flatMap Evaluation.made)
    (absent : node.present = false) : .ok node ∈ between (window ++ [last]) := by
  have ends : last ∈ window ++ [last] := mem_append_right _ (mem_singleton_self _)
  apply mem_inner made
  · -- The first observation found the node.
    have first : ∃ seen, ((window ++ [last]).flatMap Evaluation.made).head? = some (.ok seen) ∧
        seen.present := by
      rcases shape : window ++ [last] with _ | ⟨head, rest⟩
      · exact absurd (shape ▸ ends) not_mem_nil
      have member : head ∈ window ++ [last] := shape ▸ mem_cons_self
      rcases found head member with ⟨seen, zeroth, there⟩
      refine ⟨seen, ?_, there⟩
      rw [flatMap_cons, head?_append, head?_eq_getElem?, zeroth]
      rfl
    rcases first with ⟨seen, head, there⟩
    rw [head]
    intro same
    cases same
    rw [absent] at there
    cases there
  · -- The last one found it enabled.
    rcases (formed last ends).satisfied satisfied with ⟨-, -, final, third, there⟩
    have short := (formed last ends).short
    have long : 2 < last.made.length := (List.getElem?_eq_some_iff.mp third).1
    have tail : last.made.getLast? = some (.ok final) := by
      rw [getLast?_eq_getElem?, ← third]
      congr 1
      omega
    have tailed : ((window ++ [last]).flatMap Evaluation.made).getLast? = some (.ok final) := by
      rw [flatMap_append, flatMap_singleton, getLast?_append, tail]
      rfl
    rw [tailed]
    intro same
    cases same
    rw [absent] at there
    cases there

variable (counting : Counting required (trace ++ [last]) stability)

include counting

theorem Counting.unbroken (satisfied : last.Satisfied)
    (uninterrupted : Uninterrupted required (trace ++ [last])) :
    Unbroken required (trace ++ [last]) := by
  have formed := counting.formed
  rcases (formed last (mem_append_right _ (mem_singleton_self _))).satisfied satisfied
    with ⟨some, -, -⟩
  have window : lastOf required (trace ++ [last]) = lastOf (required - 1) trace ++ [last] :=
    lastOf_concat some
  have found : ∀ evaluation ∈ lastOf required (trace ++ [last]),
      evaluation.Found ∧ ¬evaluation.StateFailed := by
    intro evaluation present
    rcases Option.isSome_iff_exists.mp (uninterrupted.seen evaluation present) with ⟨seen, saw⟩
    exact ⟨(formed evaluation (mem_of_mem_lastOf present)).found seen saw,
      Evaluation.not_stateFailed saw⟩
  constructor
  case found => exact found
  case stayed =>
    intro evaluation earlier vanished
    rcases vanished with ⟨node, gone, absent⟩
    have present : evaluation ∈ lastOf required (trace ++ [last]) := dropLast_subset _ earlier
    have made : Except.ok node ∈ (lastOf required (trace ++ [last])).flatMap Evaluation.made :=
      mem_flatMap.mpr ⟨evaluation, present, mem_of_getElem? gone⟩
    have within : Except.ok node ∈ between (lastOf required (trace ++ [last])) := by
      rw [window] at made ⊢
      apply gone_between _ _ satisfied made absent
      · exact required
      · exact fun member inside => formed member (mem_of_mem_lastOf (window ▸ inside))
      · exact fun member inside => (found member (window ▸ inside)).1
    rw [uninterrupted.present node within] at absent
    cases absent

theorem Counting.uninterrupted (enough : required ≤ stability.consecutive)
    (satisfied : last.Satisfied) (unbroken : Unbroken required (trace ++ [last])) :
    Uninterrupted required (trace ++ [last]) := by
  have formed := counting.formed
  have ends : last ∈ trace ++ [last] := mem_append_right _ (mem_singleton_self _)
  rcases (formed last ends).satisfied satisfied with ⟨some, -, final, third, there⟩
  have window : lastOf required (trace ++ [last]) = lastOf (required - 1) trace ++ [last] :=
    lastOf_concat some
  rcases counting.alike enough with ⟨counted, states, same⟩
  have sees : ∀ evaluation ∈ lastOf required (trace ++ [last]), ∃ seen,
      evaluation.stateSeen = Option.some seen ∧ evaluation.made[1]? = Option.some (.ok seen) :=
    fun evaluation present =>
      (formed evaluation (mem_of_mem_lastOf present)).sees some (unbroken.found _ present).1
        (unbroken.found _ present).2
  have long : required ≤ (trace ++ [last]).length := by
    have fewer := length_filterMap_le Evaluation.stateSeen (trace ++ [last])
    rw [lastOf, length_drop] at counted
    omega
  have all : ((lastOf required (trace ++ [last])).filterMap Evaluation.stateSeen).length =
      required := by
    have kept : ((lastOf required (trace ++ [last])).filterMap Evaluation.stateSeen).length =
        (lastOf required (trace ++ [last])).length :=
      filterMap_length_eq_length.mpr fun evaluation present => by
        rcases sees evaluation present with ⟨seen, saw, -⟩
        rw [saw]
        rfl
    rw [kept, length_lastOf long]
  have consecutive : (lastOf required (trace ++ [last])).filterMap Evaluation.stateSeen =
      lastOf required ((trace ++ [last]).filterMap Evaluation.stateSeen) := by
    have split : (trace ++ [last]).filterMap Evaluation.stateSeen =
        ((trace ++ [last]).take ((trace ++ [last]).length - required)).filterMap
          Evaluation.stateSeen ++
          (lastOf required (trace ++ [last])).filterMap Evaluation.stateSeen := by
      rw [← filterMap_append, lastOf, take_append_drop]
    rw [split, lastOf_append all.ge, lastOf_eq_self all]
  constructor
  case consecutive => exact consecutive
  case counted => exact counted
  case same => exact ⟨states, same⟩
  case present =>
    intro node inside
    have made : Except.ok node ∈ (lastOf required (trace ++ [last])).flatMap Evaluation.made :=
      mem_of_mem_drop (dropLast_subset _ inside)
    rcases mem_flatMap.mp made with ⟨evaluation, present, answer⟩
    rcases getElem?_of_mem answer with ⟨index, answered⟩
    have short := (formed evaluation (mem_of_mem_lastOf present)).short
    have bound : index < evaluation.made.length := (List.getElem?_eq_some_iff.mp answered).1
    match index with
    | 0 =>
      rcases (unbroken.found evaluation present).1 with ⟨found, zeroth, here⟩
      rw [zeroth] at answered
      cases answered
      exact here
    | 1 =>
      rcases sees evaluation present with ⟨seen, saw, second⟩
      rw [second] at answered
      cases answered
      have counts : node ∈ lastOf required ((trace ++ [last]).filterMap Evaluation.stateSeen) := by
        rw [← consecutive]
        exact mem_filterMap.mpr ⟨evaluation, present, saw⟩
      exact (same node counts).1
    | 2 =>
      rw [window] at present
      rcases mem_append.mp present with earlier | atEnd
      · have stayed : ¬evaluation.Vanished := by
          apply unbroken.stayed
          rw [window, dropLast_concat]
          exact earlier
        by_contra absent
        exact stayed ⟨node, answered, Bool.eq_false_iff.mpr absent⟩
      · rw [mem_singleton.mp atEnd, third] at answered
        cases answered
        exact there
    | more + 3 => omega

omit counting

/-- What the composed predicate found satisfied held through, uninterrupted, exactly when no
evaluation among the last ones missed the node ahead of `state_stable`, had its state observation
fail, or lost the node after it. -/
theorem uninterrupted_iff_unbroken (required : ℕ) (coming : ℕ → Observed) (count : ℕ)
    (satisfied : ((actionable required).evaluate
      ((actionable required).evaluations { coming } count).2).1.Satisfied) :
    Uninterrupted required ((actionable required).evaluations { coming } (count + 1)).1 ↔
      Unbroken required ((actionable required).evaluations { coming } (count + 1)).1 := by
  have before := counting_evaluations required coming count
  rcases before.evaluated (evaluated required _) with ⟨counting, enough⟩
  constructor
  · exact counting.unbroken satisfied
  · exact counting.uninterrupted (enough satisfied) satisfied

theorem uninterrupted_iff_unbroken_calm :
    Uninterrupted 2 ((actionable 2).evaluations
        { coming := fun _ => .ok { present := true, states := 16 } } 2).1 ↔
      Unbroken 2 ((actionable 2).evaluations
        { coming := fun _ => .ok { present := true, states := 16 } } 2).1 :=
  uninterrupted_iff_unbroken 2 (fun _ => .ok { present := true, states := 16 }) 1
    ⟨⟨true, "all checks satisfied"⟩, rfl, rfl⟩

/-- A node that is there, gone, and there again passes for stable. -/
theorem flicker_passes :
    ¬∀ (required : ℕ) (coming : ℕ → Observed) (count : ℕ),
      ((actionable required).evaluate
        ((actionable required).evaluations { coming } count).2).1.Satisfied →
      Uninterrupted required ((actionable required).evaluations { coming } (count + 1)).1 := by
  intro always
  have uninterrupted := always 2 (fun answer => .ok { present := answer != 2, states := 16 }) 2
    ⟨⟨true, "all checks satisfied"⟩, rfl, rfl⟩
  have once := congrArg List.length uninterrupted.consecutive
  rw [uninterrupted.counted] at once
  cases once

end

end Grab.Kernel.Action
