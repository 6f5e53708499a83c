import Grab.Sequence.Build

/-!
# The player

The mutable half of the document/run split.  The cursor is a frontier: the
steps that are ready or running.  Commands are driven through the abstract
`CommandRunner`, whose state and answers are arbitrary; pumping reads no clock
of its own.

`World` pairs the run state with the runner and with the trace of everything
the player asked the runner for, which is what a recording runner would see.
The trace is never read back by the player.  Status tables are functions from
the index half of a step id; every access of the source is behind the same
bounds check as here.  Logging and the timing instrument are left out.
-/

namespace Grab.Kernel

open Grab.Sequence Grab.Lib

/-- How the player runs one step. -/
structure CommandRunner (ρ : Type) where
  enter : Step → TimePoint → ρ → Status × ρ
  tick : Step → TimePoint → ρ → Status × ρ
  exit : Step → TimePoint → ρ → NeutralizationOutcome × ρ
  join : Step → ρ → ρ
  releaseHolds : Step → ρ → NeutralizationOutcome × ρ
  lastError : ρ → Step → ErrorCode
  nextTick : ρ → Step → Option TimePoint
  declaredDuration : ρ → Step → Option Nanoseconds

/-- The default answer for a declared duration: only a wait declares one. -/
def declaredWait (step : Step) : Option Nanoseconds :=
  match step.command with
  | .wait duration => some duration
  | _ => none

/-- The gap between a step becoming ready and its entry. -/
def graceBefore (step : Step) (pacing : PacingOptions) : Nanoseconds :=
  if step.after = [] then 0
  else
    match pacing.mode with
    | .strict => 0
    | .grace => nanosecondsOf pacing.grace
    | .precise => nanosecondsOf (pacing.grace + step.extraGrace)

/-- The retry column of the descriptor table. -/
def retryClassOfStep (step : Step) : RetryClass :=
  match commandDescriptors.find? (fun row => row.kind == kindOf step.command) with
  | none => .never
  | some row => row.retry

/-- A possibly committed input is never sent again, whatever the column says. -/
def mayRetry (step : Step) (code : ErrorCode) : Bool :=
  if code = .possiblyCommitted then false
  else retryClassOfStep step == .idempotent

def maxRetriesPerStep : Nat := 1

def terminalStatus (status : StepStatus) : Bool :=
  status == .succeeded || status == .failed || status == .skipped

/-- Per-step run state. -/
structure StepRun where
  readyAt : TimePoint := 0
  enteredAt : TimePoint := 0
  finishedAt : TimePoint := 0
  declared : Option Nanoseconds := none
  callDuration : Nanoseconds := 0
  retries : Nat := 0
  entered : Bool := false
  exited : Bool := false
  deriving DecidableEq, Repr

structure Player where
  status : Nat → StepStatus := fun _ => .pending
  runs : Nat → StepRun := fun _ => {}
  frontier : List StepId := []
  entryOrder : List StepId := []
  state : PlayState := .idle
  neutralization : NeutralizationOutcome := .notAttempted
  failure : Option Error := none
  lastNow : TimePoint := 0
  firstEntry : TimePoint := 0
  lastFinish : TimePoint := 0
  anythingEntered : Bool := false
  deepestFrontier : Nat := 0

/-- Why a jump was refused. -/
inductive JumpError where
  | noStep (target : StepId)
  | alreadyRun (step : Step)
  | behindFrontier (step : Step) (blocker : Option Step)
  deriving DecidableEq

def JumpError.toError : JumpError → Error
  | .noStep target => ⟨.noMatch, "no step with index " ++ toString target.index⟩
  | .alreadyRun step =>
    ⟨.invalidArgument, "goto is forward-only; step " ++ stepName step ++ " has already run"⟩
  | .behindFrontier step blocker =>
    ⟨.invalidArgument, "goto is forward-only; step " ++ stepName step ++
      " is an ancestor of step " ++
      (match blocker with
        | none => "in the frontier"
        | some blocker => stepName blocker)⟩

/-- One request of the player.  An entry records the status table it was made
under, a jump how it was answered. -/
inductive Event where
  | enter (id : StepId) (now : TimePoint) (answer : Status) (statuses : Nat → StepStatus)
  | tick (id : StepId) (now : TimePoint) (answer : Status)
  | join (id : StepId)
  | exit (id : StepId) (now : TimePoint) (outcome : NeutralizationOutcome)
  | releaseHolds (id : StepId) (outcome : NeutralizationOutcome)
  | jump (target : StepId) (refused : Option JumpError)

/-- The run state, the runner's state, and what was asked of the runner. -/
structure World (ρ : Type) where
  player : Player
  runner : ρ
  trace : List Event

namespace Player

def setStatus (sequence : Sequence) (player : Player) (id : StepId) (next : StepStatus) :
    Player :=
  if sequence.steps.length ≤ id.index then player
  else { player with status := Function.update player.status id.index next }

def isTerminal (sequence : Sequence) (player : Player) (id : StepId) : Bool :=
  decide (id.index < sequence.steps.length) && terminalStatus (player.status id.index)

/-- Change the run record of one step. -/
def updateRun (player : Player) (id : StepId) (change : StepRun → StepRun) : Player :=
  { player with
    runs := Function.update player.runs id.index (change (player.runs id.index)) }

def admitToFrontier (sequence : Sequence) (player : Player) (id : StepId)
    (readyAt : TimePoint) : Player :=
  let player :=
    if id.index < sequence.steps.length then
      player.updateRun id fun run => { run with readyAt := readyAt }
    else player
  let frontier := player.frontier ++ [id]
  { player with
    frontier := frontier
    deepestFrontier := max player.deepestFrontier frontier.length }

def dropFromFrontier (player : Player) (id : StepId) : Player :=
  { player with frontier := player.frontier.erase id }

/-- Fold one report of a release into the run's verdict. -/
def recordNeutralization (player : Player) (outcome : NeutralizationOutcome) : Player :=
  match outcome with
  | .failed => { player with neutralization := .failed }
  | .released =>
    if player.neutralization ≠ .failed then { player with neutralization := .released }
    else player
  | .nothingHeld =>
    if player.neutralization = .notAttempted then
      { player with neutralization := .nothingHeld }
    else player
  | .notAttempted => player

/-- The same fold as `neutralize` spells it: an exit that attempted nothing
still turns an untouched verdict into "nothing held". -/
def recordExit (player : Player) (outcome : NeutralizationOutcome) : Player :=
  if outcome = .failed then { player with neutralization := .failed }
  else if outcome = .released ∧ player.neutralization ≠ .failed then
    { player with neutralization := .released }
  else if player.neutralization = .notAttempted then
    { player with neutralization := .nothingHeld }
  else player

/-- The predecessors' completions, latest first wins; `none` while one of them
is still to finish. -/
def eligibleAt (sequence : Sequence) (player : Player) : List StepId → TimePoint → Option TimePoint
  | [], eligible => some eligible
  | predecessor :: rest, eligible =>
    if player.isTerminal sequence predecessor then
      eligibleAt sequence player rest (max eligible (player.runs predecessor.index).finishedAt)
    else none

/-- One candidate of the successor walk. -/
def admitSuccessor (sequence : Sequence) (player : Player) (successor : StepId) : Player :=
  if sequence.steps.length ≤ successor.index ∨
      player.status successor.index ≠ .pending then player
  else
    match sequence.find successor with
    | none => player
    | some step =>
      match player.eligibleAt sequence step.after 0 with
      | none => player
      | some eligible =>
        let readyAt := eligible + graceBefore step sequence.pacing
        (player.setStatus sequence successor .ready).admitToFrontier sequence successor readyAt

/-- The successor table: the reverse of `after`, in compressed rows. -/
def successorTable (sequence : Sequence) : Rows.Table StepId :=
  Rows.build sequence.steps.length
    (sequence.steps.flatMap fun step =>
      step.after.map fun predecessor => (predecessor.index, step.id))

def admitSuccessors (sequence : Sequence) (player : Player) (id : StepId) : Player :=
  (Rows.row (successorTable sequence) id.index).foldl (admitSuccessor sequence) player

end Player

section

variable {ρ : Type} (sequence : Sequence) (runner : CommandRunner ρ)

namespace World

/-- Run a change of the player alone. -/
def mapPlayer (world : World ρ) (change : Player → Player) : World ρ :=
  { world with player := change world.player }

def callEnter (world : World ρ) (step : Step) (now : TimePoint) : Status × World ρ :=
  let answer := runner.enter step now world.runner
  (answer.1,
    { world with
      runner := answer.2
      trace := world.trace ++ [.enter step.id now answer.1 world.player.status] })

def callTick (world : World ρ) (step : Step) (now : TimePoint) : Status × World ρ :=
  let answer := runner.tick step now world.runner
  (answer.1,
    { world with
      runner := answer.2
      trace := world.trace ++ [.tick step.id now answer.1] })

def callJoin (world : World ρ) (step : Step) : World ρ :=
  { world with
    runner := runner.join step world.runner
    trace := world.trace ++ [.join step.id] }

def callExit (world : World ρ) (step : Step) (now : TimePoint) : NeutralizationOutcome × World ρ :=
  let answer := runner.exit step now world.runner
  (answer.1,
    { world with
      runner := answer.2
      trace := world.trace ++ [.exit step.id now answer.1] })

def callReleaseHolds (world : World ρ) (step : Step) : NeutralizationOutcome × World ρ :=
  let answer := runner.releaseHolds step world.runner
  (answer.1,
    { world with
      runner := answer.2
      trace := world.trace ++ [.releaseHolds step.id answer.1] })

/-- Exit an entered step once, joining a blocking worker first. -/
def neutralize (world : World ρ) (id : StepId) (now : TimePoint) : World ρ :=
  if sequence.steps.length ≤ id.index then world
  else if (world.player.runs id.index).entered = false ∨
      (world.player.runs id.index).exited = true then world
  else
    match sequence.find id with
    | none => world
    | some step =>
      let world :=
        if isBlockingCommand (kindOf step.command) then world.callJoin runner step
        else world
      let answer := world.callExit runner step now
      answer.2.mapPlayer fun player =>
        (player.updateRun id fun run => { run with exited := true }).recordExit answer.1

/-- Lift what an already exited step left down on purpose. -/
def reapHolds (world : World ρ) (id : StepId) : World ρ :=
  match sequence.find id with
  | none => world
  | some step =>
    let answer := world.callReleaseHolds runner step
    answer.2.mapPlayer fun player => player.recordNeutralization answer.1

/-- An entered step that is torn down is measured and exited. -/
def exitIfEntered (world : World ρ) (id : StepId) (now : TimePoint) : World ρ :=
  let run := world.player.runs id.index
  if run.entered = true ∧ run.exited = false then
    (world.mapPlayer fun player =>
      player.updateRun id fun run =>
        { run with callDuration := now - run.enteredAt }).neutralize sequence runner id now
  else world

/-- Mark a step skipped at a time. -/
def markSkipped (world : World ρ) (id : StepId) (now : TimePoint) : World ρ :=
  world.mapPlayer fun player =>
    (player.setStatus sequence id .skipped).updateRun id fun run =>
      { run with finishedAt := now }

/-- One step of the unwind, in reverse entry order. -/
def unwindEntered (now : TimePoint) (world : World ρ) (id : StepId) : World ρ :=
  if sequence.steps.length ≤ id.index then world
  else if (world.player.runs id.index).entered = false then world
  else if (world.player.runs id.index).exited = true then
    world.reapHolds sequence runner id
  else
    let world :=
      (world.mapPlayer fun player =>
        player.updateRun id fun run =>
          { run with callDuration := now - run.enteredAt }).neutralize sequence runner id now
    if terminalStatus (world.player.status id.index) then world
    else world.markSkipped sequence id now

/-- A frontier member that never entered is simply not going to run. -/
def unwindReady (now : TimePoint) (world : World ρ) (id : StepId) : World ρ :=
  if id.index < sequence.steps.length ∧
      terminalStatus (world.player.status id.index) = false then
    world.markSkipped sequence id now
  else world

def unwind (world : World ρ) (now : TimePoint) : World ρ :=
  let world := world.player.entryOrder.reverse.foldl
    (unwindEntered sequence runner now) world
  let world := world.player.frontier.foldl (unwindReady sequence now) world
  world.mapPlayer fun player => { player with frontier := [] }

/-- The frontier member the second forward-only check finds. -/
def blockerOf (player : Player) (target : StepId) : Option StepId :=
  player.frontier.find? fun member =>
    decide (member ≠ target) && decide (target ∈ sequence.ancestorsOf member)

/-- The forward-only checks of a jump. -/
def jumpCheck (player : Player) (target : StepId) : Except JumpError Step :=
  match sequence.find target with
  | none => .error (.noStep target)
  | some step =>
    if player.isTerminal sequence target then .error (.alreadyRun step)
    else
      match blockerOf sequence player target with
      | some member => .error (.behindFrontier step (sequence.find member))
      | none => .ok step

/-- An ancestor of the target that has not run is skipped. -/
def skipAncestor (now : TimePoint) (world : World ρ) (ancestor : StepId) : World ρ :=
  if sequence.steps.length ≤ ancestor.index ∨
      terminalStatus (world.player.status ancestor.index) = true then world
  else
    (world.exitIfEntered sequence runner ancestor now).markSkipped sequence ancestor now

/-- A frontier member other than the target is dropped: exited and skipped when
it was entered, back to pending otherwise. -/
def dropMember (target : StepId) (now : TimePoint) (world : World ρ) (member : StepId) : World ρ :=
  if member = target ∨ sequence.steps.length ≤ member.index ∨
      terminalStatus (world.player.status member.index) = true then world
  else
    let run := world.player.runs member.index
    if run.entered = true ∧ run.exited = false then
      (world.exitIfEntered sequence runner member now).markSkipped sequence member now
    else
      world.mapPlayer fun player => player.setStatus sequence member .pending

/-- Place the target on the emptied frontier. -/
def placeTarget (player : Player) (step : Step) (now : TimePoint) : Player :=
  let player := { player with frontier := [] }
  if player.status step.id.index ≠ .running then
    (player.setStatus sequence step.id .ready).admitToFrontier sequence step.id
      (now + graceBefore step sequence.pacing)
  else
    player.admitToFrontier sequence step.id (player.runs step.id.index).readyAt

def jumpTo (world : World ρ) (target : StepId) : Option JumpError × World ρ :=
  match jumpCheck sequence world.player target with
  | .error refused =>
    (some refused, { world with trace := world.trace ++ [.jump target (some refused)] })
  | .ok step =>
    let now := world.player.lastNow
    let world := { world with trace := world.trace ++ [.jump target none] }
    let world := (sequence.ancestorsOf target).foldl
      (skipAncestor sequence runner now) world
    let world := world.player.frontier.foldl
      (dropMember sequence runner target now) world
    (none, world.mapPlayer fun player => placeTarget sequence player step now)

def admitSuccessors (world : World ρ) (id : StepId) : World ρ :=
  world.mapPlayer fun player => player.admitSuccessors sequence id

/-- The measured end of a step's call. -/
def finishRun (world : World ρ) (id : StepId) (now : TimePoint) : World ρ :=
  world.mapPlayer fun player =>
    player.updateRun id fun run =>
      { run with callDuration := now - run.enteredAt, finishedAt := now }

/-- Give a step its final status and take it off the frontier. -/
def retire (world : World ρ) (id : StepId) (status : StepStatus) (now : TimePoint) : World ρ :=
  world.mapPlayer fun player =>
    let player := player.setStatus sequence id status
    { player with lastFinish := max player.lastFinish now }.dropFromFrontier id

/-- A clean completion still exits the step, without counting as a
neutralization. -/
def exitCompleted (world : World ρ) (id : StepId) (now : TimePoint) : World ρ :=
  let run := world.player.runs id.index
  match sequence.find id with
  | none => world
  | some step =>
    if run.entered = true ∧ run.exited = false then
      (world.callExit runner step now).2.mapPlayer fun player =>
        player.updateRun id fun run => { run with exited := true }
    else world

def succeed (world : World ρ) (id : StepId) (now : TimePoint) : World ρ :=
  let world := (world.finishRun id now).exitCompleted sequence runner id now
  (world.retire sequence id .succeeded now).admitSuccessors sequence id

/-- A failure that ends the run: unwind and stop. -/
def abortWith (world : World ρ) (error : Error) (now : TimePoint) : World ρ :=
  let world := world.mapPlayer fun player => { player with failure := some error }
  (world.unwind sequence runner now).mapPlayer fun player =>
    { player with state := .interrupted }

/-- What the error policy of a failed step does. -/
def applyPolicy (world : World ρ) (step : Step) (code : ErrorCode) (now : TimePoint) : World ρ :=
  match step.onError with
  | .continue => world.admitSuccessors sequence step.id
  | .goto =>
    match sequence.resolveLabel step.onErrorTarget with
    | none =>
      world.abortWith sequence runner
        ⟨.noMatch, "step " ++ stepName step ++ " recovers to label '" ++
          step.onErrorTarget ++ "', which names no step"⟩ now
    | some target =>
      let jumped := world.jumpTo sequence runner target
      match jumped.1 with
      | none => jumped.2
      | some refused => jumped.2.abortWith sequence runner refused.toError now
  | .abort =>
    world.abortWith sequence runner
      ⟨code, "step " ++ stepName step ++ " failed and its policy is abort"⟩ now

def failStep (world : World ρ) (id : StepId) (code : ErrorCode) (now : TimePoint) : World ρ :=
  let world := (world.finishRun id now).neutralize sequence runner id now
  let world := world.retire sequence id .failed now
  match sequence.find id with
  | none => world
  | some step => world.applyPolicy sequence runner step code now

/-- Enter a failed step once more. -/
def reenter (world : World ρ) (step : Step) (now : TimePoint) : Status × World ρ :=
  let world := world.mapPlayer fun player =>
    player.updateRun step.id fun run => { run with retries := run.retries + 1 }
  let world := world.neutralize sequence runner step.id now
  let world := world.mapPlayer fun player =>
    player.updateRun step.id fun run => { run with exited := false, enteredAt := now }
  world.callEnter runner step now

def onStatus (world : World ρ) (id : StepId) (status : Status) (now : TimePoint) : World ρ :=
  match status with
  | .running => world
  | .success => world.succeed sequence runner id now
  | .failure =>
    match sequence.find id with
    | none => world.failStep sequence runner id .internalFault now
    | some step =>
      let code := runner.lastError world.runner step
      if mayRetry step code = true ∧
          (world.player.runs id.index).retries < maxRetriesPerStep then
        let again := world.reenter sequence runner step now
        match again.1 with
        | .running => again.2
        | .success => again.2.succeed sequence runner id now
        | .failure =>
          again.2.failStep sequence runner id (runner.lastError again.2.runner step) now
      else
        world.failStep sequence runner id code now

/-! ## The pump -/

/-- Playing or paused: the states a pump works in. -/
def isLive (world : World ρ) : Bool :=
  world.player.state == .playing || world.player.state == .paused

/-- Tick one candidate of the scratch copy.  The flag says whether anything
progressed. -/
def tickOne (now : TimePoint) (world : World ρ) (id : StepId) : Bool × World ρ :=
  if sequence.steps.length ≤ id.index ∨ world.player.status id.index ≠ .running then
    (false, world)
  else
    match sequence.find id with
    | none => (false, world)
    | some step =>
      match runner.nextTick world.runner step with
      | some due =>
        if now < due then (false, world)
        else
          let answer := world.callTick runner step now
          if answer.1 = .running then (false, answer.2)
          else (true, answer.2.onStatus sequence runner id answer.1 now)
      | none =>
        let answer := world.callTick runner step now
        if answer.1 = .running then (false, answer.2)
        else (true, answer.2.onStatus sequence runner id answer.1 now)

/-- The running members of the frontier, until the run stops. -/
def tickPass (now : TimePoint) : List StepId → Bool → World ρ → Bool × World ρ
  | [], progressed, world => (progressed, world)
  | id :: rest, progressed, world =>
    let ticked := world.tickOne sequence runner now id
    if ticked.2.isLive then tickPass now rest (progressed || ticked.1) ticked.2
    else (progressed || ticked.1, ticked.2)

/-- The bookkeeping of an entry, before the runner is asked. -/
def markEntered (world : World ρ) (step : Step) (now : TimePoint) : World ρ :=
  world.mapPlayer fun player =>
    let player := player.setStatus sequence step.id .running
    let player := player.updateRun step.id fun run =>
      { run with
        entered := true
        exited := false
        enteredAt := now
        declared := runner.declaredDuration world.runner step }
    { player with
      entryOrder := player.entryOrder ++ [step.id]
      anythingEntered := true
      firstEntry := if player.anythingEntered then player.firstEntry else now }

/-- Enter one candidate of the scratch copy when it is due. -/
def enterOne (now : TimePoint) (world : World ρ) (id : StepId) : Bool × World ρ :=
  if sequence.steps.length ≤ id.index ∨ world.player.status id.index ≠ .ready ∨
      now < (world.player.runs id.index).readyAt then
    (false, world)
  else
    match sequence.find id with
    | none => (false, world)
    | some step =>
      let answer := (world.markEntered sequence runner step now).callEnter runner step now
      (true, answer.2.onStatus sequence runner id answer.1 now)

/-- The due members of the frontier, while the run is playing. -/
def enterPass (now : TimePoint) : List StepId → Bool → World ρ → Bool × World ρ
  | [], progressed, world => (progressed, world)
  | id :: rest, progressed, world =>
    let entered := world.enterOne sequence runner now id
    if entered.1 = false then enterPass now rest progressed entered.2
    else if entered.2.player.state = .playing then enterPass now rest true entered.2
    else (true, entered.2)

/-- One iteration of the fixpoint loop: both passes walk a copy of the frontier
taken when they start. -/
def pumpOnce (now : TimePoint) (world : World ρ) : Bool × World ρ :=
  let ticked := tickPass sequence runner now world.player.frontier false world
  if ticked.2.player.state = .playing then
    enterPass sequence runner now ticked.2.player.frontier ticked.1 ticked.2
  else ticked

def pumpLoop (now : TimePoint) : Nat → World ρ → World ρ
  | 0, world => world
  | limit + 1, world =>
    let pumped := world.pumpOnce sequence runner now
    if pumped.1 = true ∧ pumped.2.isLive = true then pumpLoop now limit pumped.2
    else pumped.2

/-- A run is done when its frontier empties. -/
def settle (world : World ρ) : World ρ :=
  if world.player.state = .playing ∧ world.player.frontier = [] then
    world.mapPlayer fun player => { player with state := .done }
  else world

def pump (world : World ρ) (now : TimePoint) : Except Error Unit × World ρ :=
  let world := world.mapPlayer fun player => { player with lastNow := now }
  if world.isLive = false then (.ok (), world)
  else
    let failedBefore := world.player.failure
    let world := (world.pumpLoop sequence runner now (2 * sequence.steps.length + 2)).settle
    match failedBefore, world.player.failure with
    | none, some error => (.error error, world)
    | _, _ => (.ok (), world)

/-! ## The controls -/

def admitRoots (player : Player) : Player :=
  sequence.steps.foldl
    (fun player step =>
      if step.after ≠ [] then player
      else
        (player.setStatus sequence step.id .ready).admitToFrontier sequence step.id player.lastNow)
    player

def play (world : World ρ) : Except Error Unit × World ρ :=
  match world.player.state with
  | .paused => (.ok (), world.mapPlayer fun player => { player with state := .playing })
  | .playing => (.ok (), world)
  | .idle =>
    (.ok (), world.mapPlayer fun player =>
      admitRoots sequence { player with state := .playing })
  | _ =>
    (.error ⟨.invalidArgument,
      "this run has already finished; construct a new player to replay the document"⟩,
      world)

def pause (world : World ρ) : Except Error Unit × World ρ :=
  if world.player.state ≠ .playing then
    (.error ⟨.invalidArgument, "nothing is playing, so there is nothing to pause"⟩, world)
  else (.ok (), world.mapPlayer fun player => { player with state := .paused })

def interrupt (world : World ρ) : Except Error Unit × World ρ :=
  if world.isLive = false then
    (.error ⟨.invalidArgument, "nothing is playing, so there is nothing to interrupt"⟩, world)
  else
    (.ok (), (world.unwind sequence runner world.player.lastNow).mapPlayer fun player =>
      { player with state := .interrupted })

/-- One member of the skipped frontier. -/
def skipMember (now : TimePoint) (world : World ρ) (id : StepId) : World ρ :=
  if sequence.steps.length ≤ id.index then world
  else (world.exitIfEntered sequence runner id now).markSkipped sequence id now

def skip (world : World ρ) : Except Error Unit × World ρ :=
  if world.isLive = false then
    (.error ⟨.invalidArgument, "nothing is playing, so there is nothing to skip"⟩, world)
  else
    let now := world.player.lastNow
    let scratch := world.player.frontier
    let world := world.mapPlayer fun player => { player with frontier := [] }
    let world := scratch.foldl (skipMember sequence runner now) world
    let world := scratch.foldl (admitSuccessors sequence) world
    (.ok (), world.settle)

def gotoStep (world : World ρ) (target : StepId) : Except Error Unit × World ρ :=
  if world.isLive = false then
    (.error ⟨.invalidArgument, "nothing is playing, so there is nowhere to go from"⟩, world)
  else
    let jumped := world.jumpTo sequence runner target
    match jumped.1 with
    | none => (.ok (), jumped.2)
    | some refused => (.error refused.toError, jumped.2)

def gotoLabel (world : World ρ) (label : String) : Except Error Unit × World ρ :=
  match sequence.resolveLabel label with
  | none => (.error ⟨.noMatch, "no step is labelled '" ++ label ++ "'"⟩, world)
  | some target => world.gotoStep sequence runner target

end World

/-- One call on the player's public interface. -/
inductive Control where
  | play
  | pause
  | pump (now : TimePoint)
  | skip
  | gotoStep (target : StepId)
  | gotoLabel (label : String)
  | interrupt
  deriving DecidableEq

def World.control (world : World ρ) : Control → Except Error Unit × World ρ
  | .play => world.play sequence
  | .pause => world.pause
  | .pump now => world.pump sequence runner now
  | .skip => world.skip sequence runner
  | .gotoStep target => world.gotoStep sequence runner target
  | .gotoLabel label => world.gotoLabel sequence runner label
  | .interrupt => world.interrupt sequence runner

/-- A fresh player over a runner in some state. -/
def World.initial (runnerState : ρ) : World ρ := ⟨{}, runnerState, []⟩

/-- The states of a run: any finite order of calls on a fresh player. -/
def World.run (world : World ρ) (controls : List Control) : World ρ :=
  controls.foldl (fun world control => (world.control sequence runner control).2) world

end

end Grab.Kernel
