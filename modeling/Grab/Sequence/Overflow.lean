import Grab.Sequence.Loaded
import Grab.Sequence.Statistics

/-!
# Durations in signed words

The values that the sums of durations go through, in nanoseconds.  The loader bounds each field by
a day, and that bounds the total of the waits, but neither the total of the motions nor a plan.
-/

namespace Grab.Kernel

open Grab.Sequence Grab.Kernel.Sequence Grab.Lib List

/-! ## Values on the way -/

/-- The greatest value of a duration. -/
def durationLimit : Int := 2 ^ 63 - 1

def Fits (value : Int) : Prop := -2 ^ 63 ≤ value ∧ value ≤ durationLimit

/-- The values of all turns of a loop. -/
def valuesOver {σ ι : Type} (turn : σ → ι → σ) (values : σ → ι → List Int) : σ → List ι → List Int
  | _, [] => []
  | state, item :: rest => values state item ++ valuesOver turn values (turn state item) rest

/-- What one turn of the loop of `statistics` computes of durations. -/
def statisticsValues (stats : DocumentStats) (step : Step) : List Int :=
  (match declaredWait step with
    | none => []
    | some declared => [stats.declaredTotal + declared]) ++
  match motionOptions step with
  | none => []
  | some options =>
    let derivable := nanosecondsOf (options.stepDwell * options.interpolationSteps)
    [options.stepDwell * options.interpolationSteps, derivable, stats.derivableTotal + derivable]

/-- What the grace before a step computes. -/
def graceValues (step : Step) (pacing : PacingOptions) : List Int :=
  if step.after = [] then []
  else
    match pacing.mode with
    | .strict => []
    | .grace => [nanosecondsOf pacing.grace]
    | .precise => [pacing.grace + step.extraGrace, nanosecondsOf (pacing.grace + step.extraGrace)]

/-- What one turn of the loop of `planned` computes. -/
def planValues (sequence : Sequence) (pacing : PacingOptions)
    (plan : (Nat → Nanoseconds) × Nanoseconds) (id : StepId) : List Int :=
  match sequence.find id with
  | none => []
  | some step =>
    let entry := readyAfter sequence plan.1 step.after + graceBefore step pacing
    graceValues step pacing ++ [entry, entry + ownDuration step]

/-- The values of the loop of `statistics` that sums durations. -/
def totalValues (program : Sequence) : List Int :=
  valuesOver (DocumentStats.countStep program) statisticsValues
    { steps := program.steps.length, edges := program.graph.edgeCount } program.steps

/-- The values of `statistics` and of `planned`. -/
def durationValues (program : Sequence) : List Int :=
  totalValues program ++
    valuesOver (planStep program program.pacing) (planValues program program.pacing)
      (fun _ => 0, 0) program.order

/-- The time of the dwells of all motions. -/
def motionTimes (steps : List Step) : Nanoseconds :=
  ((steps.filterMap motionOptions).map fun options =>
    nanosecondsOf (options.stepDwell * options.interpolationSteps)).sum

/-! ## Fields of a document that was read -/

/-- A step with times as the loader bounds them. -/
structure Timed (pacing : PacingOptions) (step : Step) : Prop where
  wait : ∀ declared, declaredWait step = some declared → 0 ≤ declared ∧ declared ≤ maximumDurationNs
  motion : ∀ options, motionOptions step = some options →
    (1 ≤ options.interpolationSteps ∧ options.interpolationSteps ≤ 65535) ∧
      0 ≤ options.stepDwell ∧ options.stepDwell ≤ maximumDurationMs
  extra : 0 ≤ step.extraGrace ∧ step.extraGrace ≤ maximumDurationMs
  grace : 0 ≤ pacing.grace ∧ pacing.grace ≤ maximumDurationMs

variable {node : Members} {scope : Scope}

theorem requireOptions_ok {options : Input.DragOptions}
    (accepted : requireOptions scope node = .ok options) :
    (1 ≤ options.interpolationSteps ∧ options.interpolationSteps ≤ 65535) ∧
      0 ≤ options.stepDwell ∧ options.stepDwell ≤ maximumDurationMs := by
  unfold requireOptions reject at accepted
  dsimp only at accepted
  split at accepted
  · cases accepted
    decide
  · rcases bind_ok accepted with ⟨steps, isSteps, afterSteps⟩
    rcases bind_ok afterSteps with ⟨dwell, isDwell, afterDwell⟩
    rcases bind_ok afterDwell with ⟨path, _, made⟩
    cases made
    exact ⟨optionalInteger_ok (by decide) isSteps, optionalInteger_ok (by decide) isDwell⟩
  · cases accepted

theorem parseWait_ok {command : Command} (accepted : parseWait scope node = .ok command) :
    ∃ declared, command = .wait declared ∧ 0 ≤ declared ∧ declared ≤ maximumDurationNs := by
  unfold parseWait reject at accepted
  split at accepted
  · rcases bind_ok accepted with ⟨span, isSpan, made⟩
    cases made
    have bounds := boundedInteger_ok isSpan
    rw [maximumDurationMs] at bounds
    have converted : 0 ≤ span * 1000000 ∧ span * 1000000 ≤ 86400000000000 := by omega
    exact ⟨_, rfl, converted⟩
  · rcases bind_ok accepted with ⟨span, isSpan, made⟩
    cases made
    exact ⟨_, rfl, boundedInteger_ok isSpan⟩
  · cases accepted

theorem timed_of_parsed {readers : Readers} {stepCount index : Nat} {step : Step}
    {pacing : PacingOptions} (parsed : ParsedStep readers stepCount index step)
    (grace : 0 ≤ pacing.grace ∧ pacing.grace ≤ maximumDurationMs) : Timed pacing step := by
  rcases parsed.payload with ⟨scope, node, kind, accepted⟩
  have times : (∀ declared, declaredWait step = some declared →
        0 ≤ declared ∧ declared ≤ maximumDurationNs) ∧
      ∀ options, motionOptions step = some options →
        (1 ≤ options.interpolationSteps ∧ options.interpolationSteps ≤ 65535) ∧
          0 ≤ options.stepDwell ∧ options.stepDwell ≤ maximumDurationMs := by
    unfold declaredWait motionOptions
    generalize step.command = command at accepted
    unfold parsePayload at accepted
    split at accepted
    case h_14 =>
      unfold parseCapture reject at accepted
      split at accepted
      · cases accepted
      split at accepted
      · rcases bind_ok accepted with ⟨_, _, made⟩
        cases made
        simp
      · rcases bind_ok accepted with ⟨_, _, made⟩
        cases made
        simp
    case h_15 =>
      rcases parseWait_ok accepted with ⟨declared, rfl, bounds⟩
      simpa using bounds
    all_goals repeat rcases bind_ok accepted with ⟨_, isField, accepted⟩
    all_goals cases accepted
    case h_11.refl | h_12.refl | h_13.refl => simpa using requireOptions_ok isField
    all_goals simp
  exact ⟨times.1, times.2, parsed.extra, grace⟩

/-! ## Arithmetic -/

section

variable {total span : Int}

theorem fits_of_bounds (nonnegative : 0 ≤ total) (small : total ≤ durationLimit) : Fits total :=
  ⟨nonnegative.trans' (by decide), small⟩

/-- A grace of at most two days fits, in milliseconds and in nanoseconds. -/
theorem span_fits (lower : 0 ≤ span) (upper : span ≤ maximumDurationMs + maximumDurationMs) :
    Fits span ∧ Fits (span * 1000000) ∧ 0 ≤ span * 1000000 := by
  simp only [Fits, durationLimit, maximumDurationMs] at *
  omega

/-- The finish of a step fits exactly when the values before it do. -/
theorem finish_fits_iff {ready grace own : Int} (first : 0 ≤ ready) (second : 0 ≤ grace)
    (third : 0 ≤ own) :
    (Fits (ready + grace) ∧ Fits (ready + grace + own)) ↔ ready + grace + own ≤ durationLimit := by
  simp only [Fits, durationLimit]
  omega

/-- One wait fits into the room for one more of the longest. -/
theorem room_left {count : Nat} (upper : span ≤ maximumDurationNs)
    (room : total + (count + 1 : Nat) * maximumDurationNs ≤ durationLimit) :
    total + span ≤ durationLimit ∧ total + span + count * maximumDurationNs ≤ durationLimit := by
  rw [maximumDurationNs] at *
  push_cast at room
  omega

/-- Only the total of the motions can be too large. -/
theorem motion_fits_iff (nonnegative : 0 ≤ total) (lower : 0 ≤ span)
    (upper : span ≤ 86400000 * 65535) :
    (Fits span ∧ Fits (span * 1000000) ∧ Fits (total + span * 1000000)) ↔
      total + span * 1000000 ≤ durationLimit := by
  simp only [Fits, durationLimit]
  omega

end

/-! ## The sums of the statistics -/

section

variable {program : Sequence} {pacing : PacingOptions} {stats : DocumentStats} {step : Step}
  {steps : List Step}

theorem motionTimes_cons (step : Step) (rest : List Step) :
    motionTimes (step :: rest) = motionTimes [step] + motionTimes rest := by
  rw [motionTimes, motionTimes, motionTimes, ← sum_append, ← map_append,
    ← filterMap_append, singleton_append]

/-- The dwells of a motion, in milliseconds. -/
theorem motion_bounds (timed : Timed pacing step) {options : Input.DragOptions}
    (isMotion : motionOptions step = some options) :
    (0 : Int) ≤ options.stepDwell * options.interpolationSteps ∧
      (options.stepDwell * options.interpolationSteps : Int) ≤ 86400000 * 65535 := by
  rcases timed.motion options isMotion with ⟨⟨least, most⟩, positive, short⟩
  have several : (0 : Int) ≤ options.interpolationSteps := by omega
  exact ⟨Int.mul_nonneg positive several, Int.mul_le_mul short most several (by decide)⟩

theorem motionTimes_nonneg (timed : ∀ step ∈ steps, Timed pacing step) :
    (0 : Int) ≤ motionTimes steps := by
  apply sum_nonneg
  intro time member
  rcases mem_map.mp member with ⟨options, isOptions, rfl⟩
  rcases mem_filterMap.mp isOptions with ⟨step, inside, isMotion⟩
  exact Int.mul_nonneg (motion_bounds (timed step inside) isMotion).1 (by decide)

theorem ownDuration_bounds (timed : Timed pacing step) :
    (0 : Int) ≤ ownDuration step ∧ ownDuration step ≤ maximumDurationNs := by
  unfold ownDuration
  cases isWait : declaredWait step with
  | none => decide
  | some span => exact timed.wait span isWait

theorem countStep_totals (stats : DocumentStats) (step : Step) :
    (DocumentStats.countStep program stats step).declaredTotal =
        stats.declaredTotal + ownDuration step ∧
      (DocumentStats.countStep program stats step).derivableTotal =
        stats.derivableTotal + motionTimes [step] := by
  have labelled : (stats.countLabel step).declaredTotal = stats.declaredTotal ∧
      (stats.countLabel step).derivableTotal = stats.derivableTotal := by
    unfold DocumentStats.countLabel
    split <;> exact ⟨rfl, rfl⟩
  simp only [DocumentStats.countStep, DocumentStats.countFan, DocumentStats.countDerivable,
    DocumentStats.countDeclared, derivableDuration, ownDuration, motionTimes]
  cases declaredWait step with
  | none | some declared =>
    cases isMotion : motionOptions step with
    | none | some options => simp [labelled, isMotion]
theorem fits_statisticsValues (timed : Timed pacing step)
    (declared : (0 : Int) ≤ stats.declaredTotal)
    (small : (stats.declaredTotal + ownDuration step : Int) ≤ durationLimit)
    (derivable : (0 : Int) ≤ stats.derivableTotal)
    (fitsBefore : (stats.derivableTotal : Int) ≤ durationLimit) :
    (∀ value ∈ statisticsValues stats step, Fits value) ↔
      (stats.derivableTotal + motionTimes [step] : Int) ≤ durationLimit := by
  have declaredFits : ∀ value ∈ (match declaredWait step with
      | none => []
      | some declared => [stats.declaredTotal + declared] : List Int), Fits value := by
    have bounds := ownDuration_bounds timed
    unfold ownDuration at small bounds
    cases isWait : declaredWait step with
    | none => simp
    | some span =>
      rw [isWait] at small bounds
      simpa using fits_of_bounds (Int.add_nonneg declared bounds.1) small
  rw [statisticsValues, forall_mem_append, iff_true_intro declaredFits, true_and, motionTimes]
  cases isMotion : motionOptions step with
  | none => simpa [isMotion] using fitsBefore
  | some options =>
    rcases motion_bounds timed isMotion with ⟨lower, upper⟩
    simpa [isMotion, nanosecondsOf] using motion_fits_iff derivable lower upper

theorem fits_statistics (timed : ∀ step ∈ steps, Timed pacing step)
    (declared : (0 : Int) ≤ stats.declaredTotal)
    (small : (stats.declaredTotal + steps.length * maximumDurationNs : Int) ≤ durationLimit)
    (derivable : (0 : Int) ≤ stats.derivableTotal)
    (fitsBefore : (stats.derivableTotal : Int) ≤ durationLimit) :
    (∀ value ∈ valuesOver (DocumentStats.countStep program) statisticsValues stats steps,
        Fits value) ↔
      (stats.derivableTotal + motionTimes steps : Int) ≤ durationLimit := by
  induction steps generalizing stats with
  | nil => simpa [valuesOver, motionTimes] using fitsBefore
  | cons step rest ih =>
    rw [forall_mem_cons] at timed
    have later := motionTimes_nonneg timed.2
    have own := @motionTimes_nonneg pacing [step] (by simpa using timed.1)
    have wait := ownDuration_bounds timed.1
    rcases @countStep_totals program stats step with ⟨declaredEq, derivableEq⟩
    have smallHere : (stats.declaredTotal + ownDuration step : Int) ≤ durationLimit ∧
        (stats.declaredTotal + ownDuration step + rest.length * maximumDurationNs : Int) ≤
          durationLimit := by
      rw [length_cons] at small
      exact room_left wait.2 small
    have here := fits_statisticsValues timed.1 declared smallHere.1 derivable fitsBefore
    have step' := @ih (DocumentStats.countStep program stats step) timed.2
      (declaredEq ▸ Int.add_nonneg declared wait.1) (declaredEq ▸ smallHere.2)
      (derivableEq ▸ Int.add_nonneg derivable own)
    rw [valuesOver, forall_mem_append, here, motionTimes_cons step rest, ← add_assoc]
    rw [derivableEq] at step'
    constructor
    · rintro ⟨fits, laterFits⟩
      exact (step' fits).mp laterFits
    · intro fits
      have fitsHere := (Int.le_add_of_nonneg_right later).trans fits
      exact ⟨fitsHere, (step' fitsHere).mpr fits⟩

end

/-! ## The finishes of a plan -/

section

variable {program : Sequence} {pacing : PacingOptions}

theorem readyAfter_nonneg (finish : Nat → Nanoseconds) (after : List StepId) :
    (0 : Int) ≤ readyAfter program finish after := by
  rw [readyAfter]
  generalize (0 : Nanoseconds) = start
  induction after generalizing start with
  | nil => exact le_rfl
  | cons predecessor rest ih =>
    apply le_trans _ (ih _)
    dsimp only
    split
    · exact le_max_left _ _
    · exact le_rfl

/-- The values of the grace fit, and it is not negative. -/
theorem graceValues_fit {step : Step} (timed : Timed pacing step) :
    (∀ value ∈ graceValues step pacing, Fits value) ∧ (0 : Int) ≤ graceBefore step pacing := by
  unfold graceValues graceBefore
  by_cases first : step.after = []
  · simp [first]
  rw [if_neg first, if_neg first]
  cases pacing.mode with
  | strict => simp
  | grace =>
    rcases span_fits timed.grace.1 (timed.grace.2.trans (by decide)) with
      ⟨_, converted, nonnegative⟩
    exact ⟨by simpa [nanosecondsOf] using converted, nonnegative⟩
  | precise =>
    rcases span_fits (Int.add_nonneg timed.grace.1 timed.extra.1)
      (Int.add_le_add timed.grace.2 timed.extra.2) with ⟨span, converted, nonnegative⟩
    exact ⟨by simpa [nanosecondsOf] using ⟨span, converted⟩, nonnegative⟩

/-- The total never sinks. -/
theorem le_foldl_planStep (ids : List StepId) (plan : (Nat → Nanoseconds) × Nanoseconds) :
    (plan.2 : Int) ≤ (ids.foldl (planStep program pacing) plan).2 := by
  induction ids generalizing plan with
  | nil => exact le_rfl
  | cons id rest ih =>
    apply le_trans _ (ih _)
    unfold planStep
    split
    · exact le_rfl
    · exact le_max_left _ _

theorem fits_plan {ids : List StepId} {plan : (Nat → Nanoseconds) × Nanoseconds}
    (timed : ∀ step ∈ program.steps, Timed pacing step)
    (fitsBefore : (plan.2 : Int) ≤ durationLimit) :
    (∀ value ∈ valuesOver (planStep program pacing) (planValues program pacing) plan ids,
        Fits value) ↔
      ((ids.foldl (planStep program pacing) plan).2 : Int) ≤ durationLimit := by
  induction ids generalizing plan with
  | nil => simpa [valuesOver] using fitsBefore
  | cons id rest ih =>
    rw [valuesOver, forall_mem_append, foldl_cons]
    cases found : program.find id with
    | none =>
      have same : planStep program pacing plan id = plan := by
        rw [planStep, found]
      rw [same, ih fitsBefore, planValues, found]
      simp
    | some step =>
      have stepTimed := timed step (Sequence.Built.mem_of_find found).1
      rcases graceValues_fit stepTimed with ⟨graceFits, grace⟩
      have doneIff := finish_fits_iff (@readyAfter_nonneg program plan.1 step.after) grace
        (ownDuration_bounds stepTimed).1
      have turn : (∀ value ∈ planValues program pacing plan id, Fits value) ↔
          (readyAfter program plan.1 step.after + graceBefore step pacing +
            ownDuration step : Int) ≤ durationLimit := by
        rw [← doneIff, planValues, found, forall_mem_append, iff_true_intro graceFits]
        simp
      have grown : ((planStep program pacing plan id).2 : Int) =
          max plan.2 (readyAfter program plan.1 step.after + graceBefore step pacing +
            ownDuration step) := by
        rw [planStep, found]
      have later := @le_foldl_planStep program pacing rest (planStep program pacing plan id)
      rw [turn]
      constructor
      · rintro ⟨fits, laterFits⟩
        exact (ih (grown ▸ max_le fitsBefore fits)).mp laterFits
      intro fits
      have here := later.trans fits
      refine ⟨?_, (ih here).mpr fits⟩
      rw [grown] at here
      exact (le_max_right _ _).trans here

end

/-! ## Documents -/

section

variable {readers : Readers} {json origin : String} {program : Sequence}
  (accepted : parseDocument readers json origin = .ok program)

include accepted

theorem built_of_parse :
    ∃ document, Parsed readers document ∧
      build document.steps document.pacing document.name = .ok program := by
  unfold parseDocument reject at accepted
  rcases bind_ok accepted with ⟨document, isRead, isBuilt⟩
  refine ⟨document, parsed_of_read isRead, ?_⟩
  dsimp only at isBuilt
  split at isBuilt
  · cases isBuilt
  · rename_i built
    cases isBuilt
    exact built

theorem timed_of_parse : ∀ step ∈ program.steps, Timed program.pacing step := by
  rcases built_of_parse accepted with ⟨document, parsed, built⟩
  rcases fields_of_build built with ⟨stepsEq, pacingEq⟩
  rw [stepsEq, pacingEq]
  intro assigned member
  rcases mem_assignIds_iff.mp member with ⟨position, step, found, rfl⟩
  have timed := timed_of_parsed (parsed.steps position step found) parsed.grace
  exact ⟨timed.wait, timed.motion, timed.extra, timed.grace⟩

/-- The waits of a document always fit; the motions may not. -/
theorem totalValues_fit_iff : (∀ value ∈ totalValues program, Fits value) ↔
      (motionTimes program.steps : Int) ≤ durationLimit := by
  rcases built_of_parse accepted with ⟨document, parsed, built⟩
  have few : program.steps.length ≤ maxSteps := by
    rw [(fields_of_build built).1, length_assignIds]
    exact parsed.small
  have room : (0 : Int) + program.steps.length * maximumDurationNs ≤ durationLimit := by
    simp only [maxSteps, maximumDurationNs, durationLimit] at few ⊢
    omega
  have start : (0 : Int) ≤ durationLimit := by decide
  rw [totalValues, fits_statistics (timed_of_parse accepted) le_rfl room le_rfl start]
  exact iff_of_eq (congrArg (· ≤ durationLimit) (Int.zero_add _))

omit accepted

/-- The sums of durations of an accepted document stay in a signed word exactly when the dwells of
its motions together do, and on every dependency chain the waits and the graces do. -/
theorem durations_fit_iff (readers : Readers) (json origin : String) (program : Sequence)
    (accepted : parseDocument readers json origin = .ok program) :
    (∀ value ∈ durationValues program, Fits value) ↔
      motionTimes program.steps ≤ durationLimit ∧
        ∀ chain, program.IsDependencyChain chain →
          (chain.map fun step => graceBefore step program.pacing + ownDuration step).sum ≤
            durationLimit := by
  rcases built_of_parse accepted with ⟨document, _, built⟩
  have greatest := Sequence.isGreatest_chains built
    fun step => graceBefore step program.pacing + ownDuration step
  rw [← foldl_planStep built program.pacing] at greatest
  have planIff := @fits_plan program program.pacing program.order (fun _ => 0, 0)
    (timed_of_parse accepted) (by decide)
  rw [durationValues, forall_mem_append, totalValues_fit_iff accepted, planIff]
  apply and_congr_right
  intro _
  constructor
  · intro fits chain isChain
    exact (greatest.2 ⟨chain, isChain, rfl⟩).trans fits
  · intro every
    rcases greatest.1 with ⟨chain, isChain, same⟩
    exact same ▸ every chain isChain

end

/-! ## Two motions that take almost two centuries each -/

def slowMove : Json :=
  .object [("op", .string "input.move"), ("to", .array [.uint 0, .uint 0]),
    ("options", .object [("steps", .uint 65535), ("step_dwell_ms", .uint 86400000)])]

def slowMoveText : String :=
  "\x7b\"op\":\"input.move\",\"to\":[0,0],\"options\":" ++
    "\x7b\"steps\":65535,\"step_dwell_ms\":86400000\x7d\x7d"

def slowMoves : String := "\x7b\"steps\":[" ++ slowMoveText ++ "," ++ slowMoveText ++ "]\x7d"

def slowReaders : Readers := readersOf slowMoves (.object [("steps", .array [slowMove, slowMove])])

def slowSteps : List Step :=
  [{ command := .move none {} ⟨65535, 86400000, .linear⟩ },
    { command := .move none {} ⟨65535, 86400000, .linear⟩, after := [StepId.ofIndex 0] }]

theorem read_slowMoves : readDocument slowReaders slowMoves "" = .ok ⟨slowSteps, {}, ""⟩ := by
  decide +kernel

theorem parse_slowMoves : ∃ program, parseDocument slowReaders slowMoves "" = .ok program ∧
    program.steps = assignIds slowSteps := by
  have builds : (build slowSteps {} "").isOk = true := by
    decide +kernel
  cases built : build slowSteps {} "" with
  | error error =>
    rw [built] at builds
    cases builds
  | ok program =>
    refine ⟨program, ?_, (fields_of_build built).1⟩
    apply (bind_of_ok read_slowMoves _).trans
    simp only [built]

/-- Each field is within its bound, and yet the total of the dwells is not a signed word. -/
theorem slowMoves_overflow : ∃ program, parseDocument slowReaders slowMoves "" = .ok program ∧
    ¬∀ value ∈ durationValues program, Fits value := by
  rcases parse_slowMoves with ⟨program, accepted, stepsEq⟩
  refine ⟨program, accepted, ?_⟩
  intro fits
  rw [durationValues, forall_mem_append, totalValues_fit_iff accepted, stepsEq] at fits
  exact absurd fits.1 (by decide +kernel)

theorem durations_fit_iff_slowMoves : ∃ program,
    parseDocument slowReaders slowMoves "" = .ok program ∧
      ((∀ value ∈ durationValues program, Fits value) ↔
        motionTimes program.steps ≤ durationLimit ∧
          ∀ chain, program.IsDependencyChain chain →
            (chain.map fun step => graceBefore step program.pacing + ownDuration step).sum ≤
              durationLimit) := by
  rcases parse_slowMoves with ⟨program, accepted, _⟩
  exact ⟨program, accepted, durations_fit_iff _ _ _ program accepted⟩

end Grab.Kernel
