import Grab.Action.WaitEngine
import Grab.Lib.Fallible
import Grab.Query.Text
import Grab.Sequence.Command

/-!
# An action as a transaction

`TransactionRunner` of `kernel/action/transaction.cpp`.  The runtime is whatever answers its calls
from a state of its own, so that any answer may depend on all that was asked before.  The calls
from the reservation on are kept in order.

A wait goes on for as many turns as the runtime has patience, and is then given up with an error
of the runtime's choice: a deadline, a cancellation, or a failure of the event source.
-/

namespace Grab

open Grab.Kernel.Query

/-! ## Actions and receipts -/

inductive RoutePolicy where
  | preferSemantic | semanticOnly | physicalOnly
  deriving DecidableEq, Repr

structure ActionOptions where
  cardinality : Cardinality := .exactlyOne
  routing : RoutePolicy := .preferSemantic
  retry : RetryClass := .resolveOnly
  force : Bool := false

inductive ActionTarget where
  | locator (locator : Locator)
  | found (found : Match)

inductive Action where
  | click (target : ActionTarget)
  | typeText (target : ActionTarget) (text : String)
  | drag (target : ActionTarget) (start goal : Geometry.Point) (options : Input.DragOptions)
  | pressKey (target : ActionTarget) (keyName : String)
  | activate (target : ActionTarget)

inductive ActionVerb where
  | click | typeText | drag | pressKey | activate
  deriving DecidableEq, Repr

structure ActionRequest where
  verb : ActionVerb := .click
  target : Match
  text : String := ""
  dragFrom : Geometry.Point := {}
  dragTo : Geometry.Point := {}
  dragOptions : Input.DragOptions := {}
  keyName : String := ""

inductive RouteKind where
  | semantic | physical
  deriving DecidableEq, Repr

structure RouteDescriptor where
  name : String
  kind : RouteKind := .physical
  deriving DecidableEq, Repr

structure ProviderAttempt where
  provider : String
  reason : String
  deriving DecidableEq, Repr

inductive CommitStatus where
  | failedBeforeCommit | possiblyCommitted | committed | verified
  deriving DecidableEq, Repr

structure RouteAttempt where
  route : String
  selected : Bool := false
  rejection : ErrorCode := .routeUnavailable
  detail : String := ""
  deriving DecidableEq, Repr

structure BarrierOutcome where
  barrier : String
  satisfied : Bool := false
  timedOut : Bool := false
  deriving DecidableEq, Repr

structure Receipt (τ : Type) where
  locator : String
  snapshotRevision : UInt64 := 0
  commit : CommitStatus := .failedBeforeCommit
  routes : List RouteAttempt := []
  barriers : List BarrierOutcome := []
  transforms : List τ := []
  forced : Bool := false
  fallbackUsed : Bool := false
  neutralization : NeutralizationOutcome := .notAttempted
  retryClass : RetryClass := .never
  resolveRetries : ℕ := 0

end Grab

namespace Grab.Kernel.Action

open Grab Grab.Lib Grab.Kernel.Query

/-- An error with the target and the attempts it tells of. -/
structure TransactionError where
  code : ErrorCode
  message : String
  target : String := ""
  attempts : List ProviderAttempt := []
  deriving DecidableEq, Repr

def TransactionError.of (error : Error) : TransactionError where
  code := error.code
  message := error.message

/-- What a call of the runtime answers with. -/
abbrev Answer (α : Type) := Except TransactionError α

/-- The answer of a part that knows no targets and no attempts. -/
def ofResult {α : Type} (result : Except Error α) : Answer α := result.mapError TransactionError.of

def fail {α : Type} (code : ErrorCode) (message : String) : Answer α := .error { code, message }

structure TransactionOutcome (τ : Type) where
  receipt : Receipt τ
  error : Option TransactionError := none

/-! ## The runtime -/

/-- What a runtime answers; `ρ` are its reservations and `τ` the transforms of the mapping. -/
structure Runtime (σ ρ τ : Type) where
  check : StateM σ (Answer Unit)
  treeSource : StateM σ (Option (UInt32 → StateM σ (Except Error TreeNav)))
  hasEvents : StateM σ Bool
  enable : StateM σ (Answer Unit)
  disable : StateM σ (Answer Unit)
  patience : StateM σ (ℕ × TransactionError)
  /-- What the tree source will answer during a wait. -/
  observations : UInt32 → StateM σ (ℕ → Option (Except Error TreeNav))
  routes : StateM σ (List RouteDescriptor)
  /-- `action_route` and then `reserve`; nothing where the route has no executor. -/
  reserve : ℕ → ActionRequest → StateM σ (Option (Answer ρ))
  barriers : ρ → StateM σ (List String)
  armBarrier : ρ → String → StateM σ (Answer Unit)
  commit : ρ → StateM σ (Answer Unit)
  settle : ρ → StateM σ (Answer (List BarrierOutcome))
  verify : ρ → StateM σ (Answer Unit)
  inputSeat : StateM σ Bool
  neutralize : StateM σ (Answer NeutralizationOutcome)

structure Transaction (σ ρ τ : Type) where
  runtime : Runtime σ ρ τ
  tree : UInt32
  mappingRefresh : Option (Match → StateM σ (Answer (List τ))) := none
  library : JsonLibrary

/-- A call and its answer. -/
inductive Call (ρ : Type) where
  | reserve (descriptor : RouteDescriptor) (answer : Option (Answer ρ))
  | barriers (reservation : ρ) (names : List String)
  | arm (reservation : ρ) (barrier : String) (answer : Answer Unit)
  | commit (reservation : ρ) (answer : Answer Unit)
  | settle (reservation : ρ) (answer : Answer (List BarrierOutcome))
  | verify (reservation : ρ) (answer : Answer Unit)
  | inputSeat (found : Bool)
  | neutralize (answer : Answer NeutralizationOutcome)

/-- A runner under way. -/
structure Runner (σ ρ τ : Type) where
  world : σ
  receipt : Receipt τ
  error : Option TransactionError := none
  watch : Watch
  calls : List (Call ρ) := []

section

variable {σ ρ τ α : Type}

/-- A question to the runtime. -/
def consult (question : StateM σ α) : StateM (Runner σ ρ τ) α :=
  modifyGet fun runner =>
    ((question.run runner.world).1, { runner with world := (question.run runner.world).2 })

/-- A call that is kept. -/
def call (question : StateM σ α) (entry : α → Call ρ) : StateM (Runner σ ρ τ) α :=
  modifyGet fun runner =>
    ((question.run runner.world).1,
      { runner with
        world := (question.run runner.world).2
        calls := runner.calls ++ [entry (question.run runner.world).1] })

def report (change : Receipt τ → Receipt τ) : StateM (Runner σ ρ τ) PUnit :=
  modify fun runner => { runner with receipt := change runner.receipt }

/-! ## Texts and orders -/

def targetOf : Action → ActionTarget
  | .click target | .typeText target _ | .drag target _ _ _ | .pressKey target _
  | .activate target => target

def matchTargetString (found : Match) : String :=
  "\x7b\"type\":\"match\",\"runtime\":" ++ toString found.ref.runtime.value ++
    ",\"tree\":" ++ toString found.ref.tree ++
    ",\"epoch\":" ++ toString found.ref.epoch.value ++
    ",\"node\":" ++ toString found.ref.node ++
    ",\"generation\":" ++ toString found.ref.generation.value ++ "\x7d"

def canonicalTarget (library : JsonLibrary) : ActionTarget → String
  | .locator locator => locator.toString library
  | .found found => matchTargetString found

def resolutionRetryable (code : ErrorCode) : Bool :=
  code = .staleNode || code = .treeResynced || code = .runtimeRestarted ||
    code = .environmentChanged || code = .topologyChanged || code = .targetDetached

def routeAllowed (policy : RoutePolicy) (kind : RouteKind) : Bool :=
  match policy with
  | .semanticOnly => kind = .semantic
  | .physicalOnly => kind = .physical
  | .preferSemantic => true

/-- The routes in the order they are tried, with their indices. -/
def routeOrder (routes : List RouteDescriptor) (policy : RoutePolicy) :
    List (RouteDescriptor × ℕ) :=
  [RouteKind.semantic, .physical].flatMap fun kind =>
    routes.zipIdx.filter fun route => route.1.kind = kind && routeAllowed policy kind

def routeUnavailableError (receipt : Receipt τ) : TransactionError where
  code := .routeUnavailable
  message := "no action route could be reserved"
  target := receipt.locator
  attempts := receipt.routes.map fun attempt =>
    { provider := attempt.route, reason := attempt.detail }

def actionRequest (action : Action) (target : Match) : ActionRequest :=
  match action with
  | .click _ => { verb := .click, target }
  | .typeText _ text => { verb := .typeText, target, text }
  | .drag _ start goal options =>
    { verb := .drag, target, dragFrom := start, dragTo := goal, dragOptions := options }
  | .pressKey _ keyName => { verb := .pressKey, target, keyName }
  | .activate _ => { verb := .activate, target }

/-! ## Waits -/

/-- The loop of a wait; an observation without a value is not satisfied. -/
def observeUntil (observe : StateM (Runner σ ρ τ) (Answer (Option α)))
    (ending : TransactionError) : ℕ → StateM (Runner σ ρ τ) (Answer α)
  | 0 => return .error ending
  | turns + 1 =>
    proceed observe fun observed =>
      match observed with
      | some value => return .ok value
      | none => observeUntil observe ending turns

/-- An event that cannot be disabled spoils a wait that succeeded. -/
def finishWait (result : Answer α) (disabled : Answer Unit) : Answer α :=
  match result with
  | .ok value => disabled.map fun _ => value
  | .error error => .error error

def waitFor (runtime : Runtime σ ρ τ) (observe : StateM (Runner σ ρ τ) (Answer (Option α))) :
    StateM (Runner σ ρ τ) (Answer α) :=
  proceed (consult runtime.enable) fun _ => do
    let patience ← consult runtime.patience
    let result ← observeUntil observe patience.2 patience.1
    let disabled ← consult runtime.disable
    return finishWait result disabled

/-! ## Resolving the target -/

def refreshed (found : Match) (navigation : TreeNav) : Answer Match :=
  let metadata := navigation.metadata
  let node : NodeId := ⟨found.ref.node⟩
  if metadata.runtime ≠ found.ref.runtime then
    fail .runtimeRestarted "match runtime changed before action"
  else if metadata.tree ≠ found.ref.tree ∨ metadata.epoch ≠ found.ref.epoch then
    fail .treeResynced "match tree changed before action"
  else if ¬navigation.contains node ∨ navigation.generation node ≠ found.ref.generation then
    fail .staleNode "match node changed before action"
  else
    .ok
      { found with
        snapshotRevision := metadata.revision
        provenance :=
          { found.provenance with runtime := metadata.runtime, revision := metadata.revision } }

def refreshMatch (snapshot : UInt32 → StateM σ (Except Error TreeNav)) (options : ActionOptions)
    (found : Match) : StateM (Runner σ ρ τ) (Answer Match) :=
  if options.cardinality = .all then
    return fail .invalidArgument "single-target actions do not accept Cardinality::All"
  else do
    let answer ← consult (snapshot found.ref.tree)
    return (ofResult answer).bind (refreshed found)

def resolveLocator (transaction : Transaction σ ρ τ)
    (snapshot : UInt32 → StateM σ (Except Error TreeNav)) (options : ActionOptions)
    (locator : Locator) : StateM (Runner σ ρ τ) (Answer Match) := do
  let answer ← consult (snapshot transaction.tree)
  return ofResult (answer.bind fun navigation =>
    resolve locator options.cardinality { navigation } Locator.defaultMaxNodes)

def resolveFrom (transaction : Transaction σ ρ τ)
    (snapshot : UInt32 → StateM σ (Except Error TreeNav)) (options : ActionOptions) :
    ActionTarget → StateM (Runner σ ρ τ) (Answer Match)
  | .locator locator => resolveLocator transaction snapshot options locator
  | .found found => refreshMatch snapshot options found

def resolveOnce (transaction : Transaction σ ρ τ) (action : Action) (options : ActionOptions) :
    StateM (Runner σ ρ τ) (Answer Match) := do
  match ← consult transaction.runtime.treeSource with
  | none => return fail .capabilityUnavailable "runtime has no tree source"
  | some snapshot => resolveFrom transaction snapshot options (targetOf action)

/-- An error that may pass is not satisfied, any other one ends the wait. -/
def unlessRetryable (retried : Answer Match) : Answer (Option Match) :=
  match retried with
  | .ok found => .ok (some found)
  | .error error => if resolutionRetryable error.code then .ok none else .error error

def observeTarget (transaction : Transaction σ ρ τ) (action : Action) (options : ActionOptions) :
    StateM (Runner σ ρ τ) (Answer (Option Match)) := do
  report fun receipt => { receipt with resolveRetries := receipt.resolveRetries + 1 }
  let retried ← resolveOnce transaction action options
  return unlessRetryable retried

/-- A first attempt that failed. -/
def retryTarget (transaction : Transaction σ ρ τ) (action : Action) (options : ActionOptions)
    (error : TransactionError) : StateM (Runner σ ρ τ) (Answer Match) := do
  match ← consult transaction.runtime.hasEvents with
  | false => return .error error
  | true => waitFor transaction.runtime (observeTarget transaction action options)

def resolveTarget (transaction : Transaction σ ρ τ) (action : Action) (options : ActionOptions) :
    StateM (Runner σ ρ τ) (Answer Match) := do
  match ← resolveOnce transaction action options with
  | .ok found => return .ok found
  | .error error =>
    if options.retry = .never ∨ ¬resolutionRetryable error.code then return .error error
    else retryTarget transaction action options error

/-! ## Before the commit -/

def refreshMapping (transaction : Transaction σ ρ τ) (target : Match) :
    StateM (Runner σ ρ τ) (Answer PUnit) :=
  match transaction.mappingRefresh with
  | none => return .ok ⟨⟩
  | some hook =>
    proceed (consult (hook target)) fun transforms => do
      report fun receipt => { receipt with transforms }
      return .ok ⟨⟩

/-- One evaluation of the composed predicate. -/
def observeActionable : StateM (Runner σ ρ τ) (Answer (Option PUnit)) :=
  modifyGet fun runner =>
    let evaluated := (actionable 2).evaluate runner.watch
    (ofResult (evaluated.1.outcome.map fun observed =>
        if observed.satisfied then some ⟨⟩ else none),
      { runner with watch := evaluated.2 })

def waitForActionability (transaction : Transaction σ ρ τ) (target : Match) :
    StateM (Runner σ ρ τ) (Answer PUnit) := do
  match ← consult transaction.runtime.hasEvents with
  | false => return fail .capabilityUnavailable "runtime has no event source for actionability"
  | true =>
    let answers ← consult (transaction.runtime.observations target.ref.tree)
    modify fun runner =>
      { runner with watch := { coming := fun turn => nodeObserver target.ref (answers turn) } }
    waitFor transaction.runtime observeActionable

/-! ## The route -/

/-- What is reported of an attempt to reserve a route. -/
def routeAttempt (descriptor : RouteDescriptor) (answer : Option (Answer ρ)) : RouteAttempt :=
  let route := if descriptor.name = "" then "unnamed_route" else descriptor.name
  match answer with
  | none => { route, detail := "route has no action executor" }
  | some (.error error) => { route, rejection := error.code, detail := error.message }
  | some (.ok _) => { route, selected := true, detail := "selected" }

/-- A route that is not selected: the next one is tried, unless it may have committed. -/
def rejectRoute (error : TransactionError) (next : StateM (Runner σ ρ τ) (Answer ρ)) :
    StateM (Runner σ ρ τ) (Answer ρ) :=
  if error.code = .possiblyCommitted then do
    report fun receipt => { receipt with commit := .possiblyCommitted }
    return .error error
  else next

def reserveAmong (transaction : Transaction σ ρ τ) (options : ActionOptions)
    (request : ActionRequest) : List (RouteDescriptor × ℕ) → StateM (Runner σ ρ τ) (Answer ρ)
  | [] => do return .error (routeUnavailableError (← get).receipt)
  | route :: rest => do
      let answer ← call (transaction.runtime.reserve route.2 request) (.reserve route.1)
      report fun receipt =>
        { receipt with routes := receipt.routes ++ [routeAttempt route.1 answer] }
      match answer with
      | none => reserveAmong transaction options request rest
      | some (.error error) => rejectRoute error (reserveAmong transaction options request rest)
      | some (.ok reservation) =>
        report fun receipt =>
          { receipt with
            fallbackUsed := options.routing = .preferSemantic && route.1.kind = .physical }
        return .ok reservation

def reserveRoute (transaction : Transaction σ ρ τ) (action : Action) (options : ActionOptions)
    (target : Match) : StateM (Runner σ ρ τ) (Answer ρ) := do
  let descriptors ← consult transaction.runtime.routes
  reserveAmong transaction options (actionRequest action target)
    (routeOrder descriptors options.routing)

/-! ## From the barriers to the verification -/

def armBarriers (runtime : Runtime σ ρ τ) (reservation : ρ) :
    List String → StateM (Runner σ ρ τ) (Answer PUnit)
  | [] => return .ok ⟨⟩
  | barrier :: rest => do
      report fun receipt => { receipt with barriers := receipt.barriers ++ [{ barrier }] }
      proceed (call (runtime.armBarrier reservation barrier) (.arm reservation barrier)) fun _ =>
        armBarriers runtime reservation rest

/-- What was observed of a barrier takes the place of its first entry. -/
def mergeBarrier (barriers : List BarrierOutcome) (observation : BarrierOutcome) :
    List BarrierOutcome :=
  match barriers with
  | [] => [observation]
  | armed :: rest =>
    if armed.barrier = observation.barrier then observation :: rest
    else armed :: mergeBarrier rest observation

def mergeBarriers (settled : List BarrierOutcome) (receipt : Receipt τ) : Receipt τ :=
  { receipt with barriers := settled.foldl mergeBarrier receipt.barriers }

/-- A settling that missed its deadline. -/
def timeOut (error : TransactionError) (receipt : Receipt τ) : Receipt τ :=
  if error.code = .deadlineExceeded then
    { receipt with
      barriers := receipt.barriers.map fun barrier =>
        if barrier.satisfied then barrier else { barrier with timedOut := true } }
  else receipt

def verifyReserved (runtime : Runtime σ ρ τ) (reservation : ρ) :
    StateM (Runner σ ρ τ) (Answer PUnit) :=
  proceed (call (runtime.verify reservation) (.verify reservation)) fun _ => do
    report fun receipt => { receipt with commit := .verified }
    return .ok ⟨⟩

def settleReserved (runtime : Runtime σ ρ τ) (reservation : ρ) :
    StateM (Runner σ ρ τ) (Answer PUnit) := do
  match ← call (runtime.settle reservation) (.settle reservation) with
  | .error error =>
    report (timeOut error)
    return .error error
  | .ok settled =>
    report (mergeBarriers settled)
    verifyReserved runtime reservation

/-- The status that a failed commit leaves. -/
def failCommit (error : TransactionError) (receipt : Receipt τ) : Receipt τ :=
  if error.code ≠ .possiblyCommitted then { receipt with commit := .failedBeforeCommit }
  else receipt

def commitReserved (runtime : Runtime σ ρ τ) (reservation : ρ) :
    StateM (Runner σ ρ τ) (Answer PUnit) := do
  report fun receipt => { receipt with commit := .possiblyCommitted }
  match ← call (runtime.commit reservation) (.commit reservation) with
  | .error error =>
    report (failCommit error)
    return .error error
  | .ok _ =>
    report fun receipt => { receipt with commit := .committed }
    settleReserved runtime reservation

def executeReserved (runtime : Runtime σ ρ τ) (reservation : ρ) :
    StateM (Runner σ ρ τ) (Answer PUnit) := do
  let names ← call (runtime.barriers reservation) (.barriers reservation)
  proceed (armBarriers runtime reservation names) fun _ => commitReserved runtime reservation

/-! ## The whole transaction -/

/-- An action that is forced does not wait. -/
def actionability (transaction : Transaction σ ρ τ) (options : ActionOptions) (target : Match) :
    StateM (Runner σ ρ τ) (Answer PUnit) :=
  if options.force then return .ok ⟨⟩ else waitForActionability transaction target

def noteRevision (target : Match) : StateM (Runner σ ρ τ) (Answer PUnit) := do
  report fun receipt => { receipt with snapshotRevision := target.snapshotRevision }
  return .ok ⟨⟩

def execute (transaction : Transaction σ ρ τ) (action : Action) (options : ActionOptions) :
    StateM (Runner σ ρ τ) (Answer PUnit) :=
  proceed (consult transaction.runtime.check) fun _ =>
  proceed (resolveTarget transaction action options) fun target =>
  proceed (noteRevision target) fun _ =>
  proceed (refreshMapping transaction target) fun _ =>
  proceed (actionability transaction options target) fun _ =>
  proceed (reserveRoute transaction action options target) fun reservation =>
  executeReserved transaction.runtime reservation

/-- A neutralization that failed is the error of a transaction that has none. -/
def noteNeutralization (answer : Answer NeutralizationOutcome) (runner : Runner σ ρ τ) :
    Runner σ ρ τ :=
  match answer with
  | .ok outcome => { runner with receipt := { runner.receipt with neutralization := outcome } }
  | .error error =>
    { runner with
      receipt := { runner.receipt with neutralization := .failed }
      error := runner.error <|> some
        { code := .neutralizationFailed
          message := error.message
          target := runner.receipt.locator } }

def neutralize (runtime : Runtime σ ρ τ) : StateM (Runner σ ρ τ) PUnit := do
  match ← call runtime.inputSeat .inputSeat with
  | false => return ⟨⟩
  | true =>
    let answer ← call runtime.neutralize .neutralize
    modify (noteNeutralization answer)

def noteResult (result : Answer PUnit) (runner : Runner σ ρ τ) : Runner σ ρ τ :=
  match result with
  | .ok _ => runner
  | .error error => { runner with error := some error }

def run (transaction : Transaction σ ρ τ) (action : Action) (options : ActionOptions) :
    StateM (Runner σ ρ τ) PUnit := do
  let result ← execute transaction action options
  modify (noteResult result)
  neutralize transaction.runtime

/-- The runner of an action before it runs. -/
def runnerOf (transaction : Transaction σ ρ τ) (action : Action) (options : ActionOptions)
    (world : σ) : Runner σ ρ τ where
  world := world
  receipt :=
    { locator := canonicalTarget transaction.library (targetOf action)
      forced := options.force
      retryClass := options.retry }
  watch := { coming := fun _ => .ok {} }

/-- What is left when an action was performed. -/
def performed (transaction : Transaction σ ρ τ) (action : Action) (options : ActionOptions)
    (world : σ) : Runner σ ρ τ :=
  ((run transaction action options).run (runnerOf transaction action options world)).2

def perform (transaction : Transaction σ ρ τ) (action : Action) (options : ActionOptions)
    (world : σ) : TransactionOutcome τ where
  receipt := (performed transaction action options world).receipt
  error := (performed transaction action options world).error

end

end Grab.Kernel.Action
