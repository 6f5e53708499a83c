import Grab.Sequence.Loader

/-!
# What the loader leaves to the builder

The labels of a document that was read are distinct, and its dependencies name other steps of it,
once each.  So the builder refuses such a document for a cycle only.
-/

namespace Grab.Kernel.Sequence

open Grab.Sequence Grab.Lib List
open Std (ExtTreeMap)

/-- Dependencies of the step at an index: other steps of the document, once each. -/
structure AfterFine (stepCount index : Nat) (after : List StepId) : Prop where
  once : after.Nodup
  others : ∀ id ∈ after, ∃ position < stepCount, position ≠ index ∧ id = StepId.ofIndex position

structure ParsedStep (readers : Readers) (stepCount index : Nat) (step : Step) : Prop where
  payload : ∃ scope node kind, parsePayload readers scope node kind = .ok step.command
  after : AfterFine stepCount index step.after
  extra : 0 ≤ step.extraGrace ∧ step.extraGrace ≤ maximumDurationMs

/-- A document as the builder gets it. -/
structure Parsed (readers : Readers) (document : Document) : Prop where
  small : document.steps.length ≤ maxSteps
  labels : (labelsOf document.steps).Nodup
  steps : ∀ position step, document.steps[position]? = some step →
    ParsedStep readers document.steps.length position step
  grace : 0 ≤ document.pacing.grace ∧ document.pacing.grace ≤ maximumDurationMs

/-! ## Fields -/

section

variable {scope : Scope} {pointer field : String} {low high raw : Int}

theorem boundedInteger_ok {value : Json}
    (accepted : boundedInteger scope pointer value low high = .ok raw) :
    low ≤ raw ∧ raw ≤ high := by
  unfold boundedInteger reject at accepted
  split at accepted
  · cases accepted
  split at accepted
  · cases accepted
  rename_i inside
  cases accepted
  rcases not_or.mp inside with ⟨above, below⟩
  exact ⟨not_lt.mp above, not_lt.mp below⟩

theorem optionalInteger_ok {node : Members} {fallback : Int}
    (inside : low ≤ fallback ∧ fallback ≤ high)
    (accepted : optionalInteger scope node field fallback low high = .ok raw) :
    low ≤ raw ∧ raw ≤ high := by
  unfold optionalInteger at accepted
  split at accepted
  · cases accepted
    exact inside
  · exact boundedInteger_ok accepted

end

/-! ## Dependencies -/

section

variable {scope : Scope} {pointer : String} {labels : LabelMap} {stepCount index : Nat}

variable
  (known : ∀ (label : String) (target : Nat), labels[label]? = some target → target < stepCount)

include known

theorem afterTarget_ok {entry : Json} {target : Nat}
    (accepted : afterTarget scope pointer labels stepCount entry = .ok target) :
    target < stepCount := by
  unfold afterTarget reject at accepted
  split at accepted
  · split at accepted
    · cases accepted
    · rename_i found
      cases accepted
      exact known _ target found
  split at accepted
  · cases accepted
  split at accepted
  · cases accepted
  · rename_i position inside
    cases accepted
    have bounds := boundedInteger_ok inside
    omega

theorem parseEntries_ok {entries : List Json} {slot : Nat} {before after : List StepId}
    (fine : AfterFine stepCount index before)
    (accepted : parseEntries scope pointer index labels stepCount slot entries before = .ok after) :
    AfterFine stepCount index after := by
  induction entries generalizing slot before with
  | nil =>
    cases accepted
    exact fine
  | cons entry rest ih =>
    unfold parseEntries reject at accepted
    rcases bind_ok accepted with ⟨target, found, listed⟩
    have inside := afterTarget_ok known found
    split at listed
    · cases listed
    rename_i apart
    split at listed
    · cases listed
    rename_i fresh
    apply ih _ listed
    constructor
    case once =>
      apply fine.once.append (nodup_singleton _)
      intro id old new
      exact fresh (mem_singleton.mp new ▸ old)
    case others =>
      intro id member
      rcases mem_append.mp member with old | new
      · exact fine.others id old
      · exact ⟨target, inside, apart, mem_singleton.mp new⟩

theorem parseAfter_ok {node : Members} {after : List StepId} (inside : index < stepCount)
    (accepted : parseAfter scope node index labels stepCount = .ok after) :
    AfterFine stepCount index after := by
  have nothing : AfterFine stepCount index [] := ⟨nodup_nil, forall_mem_nil _⟩
  unfold parseAfter reject at accepted
  split at accepted
  · cases accepted
    split
    · rename_i positive
      constructor
      case once => exact nodup_singleton _
      case others =>
        intro id member
        exact ⟨index - 1, by omega, by omega, mem_singleton.mp member⟩
    · exact nothing
  · exact parseEntries_ok known nothing accepted
  · cases accepted

end

/-! ## The two passes -/

section

variable {readers : Readers} {origin : String} {scope : Scope} {index : Nat} {label : String}

theorem parseLabel_ok {labels : LabelMap} {node : Json}
    (accepted : parseLabel scope index labels node = .ok label) :
    label = "" ∨ labels.contains label = false := by
  unfold parseLabel reject at accepted
  split at accepted
  · dsimp only at accepted
    split at accepted
    · cases accepted
      exact .inl rfl
    · split at accepted
      · cases accepted
      · split at accepted
        · cases accepted
        · rename_i fresh
          cases accepted
          exact .inr (Bool.eq_false_iff.mpr fresh)
    · cases accepted
  · cases accepted

/-- The first pass lists a label for every step, no name twice, and maps names to indexes. -/
theorem collectLabels_ok {nodes : List Json} {labels all : LabelMap} {found : List String}
    (accepted : collectLabels scope index nodes labels = .ok (found, all)) :
    found.length = nodes.length ∧ (found.filter (· ≠ "")).Nodup ∧
      (∀ label ∈ found.filter (· ≠ ""), labels.contains label = false) ∧
      ∀ (label : String) (target : Nat), all[label]? = some target →
        labels[label]? = some target ∨ target < index + nodes.length := by
  induction nodes generalizing index labels found with
  | nil =>
    cases accepted
    exact ⟨rfl, nodup_nil, forall_mem_nil _, fun _ _ => .inl⟩
  | cons node rest ih =>
    unfold collectLabels at accepted
    rcases bind_ok accepted with ⟨label, labelled, further⟩
    rcases bind_ok further with ⟨⟨later, last⟩, collected, made⟩
    cases made
    rcases ih collected with ⟨lengthEq, distinct, fresh, mapped⟩
    have own := parseLabel_ok labelled
    by_cases unnamed : label = ""
    · rw [if_pos unnamed] at fresh mapped
      have skipped : (label :: later).filter (· ≠ "") = later.filter (· ≠ "") := by
        simp [unnamed]
      rw [skipped, length_cons, length_cons, lengthEq]
      refine ⟨rfl, distinct, fresh, ?_⟩
      intro other target isMapped
      rcases mapped other target isMapped with old | new
      · exact .inl old
      · exact .inr (by omega)
    · rw [if_neg unnamed] at fresh mapped
      have kept : (label :: later).filter (· ≠ "") = label :: later.filter (· ≠ "") := by
        simp [unnamed]
      rw [kept, length_cons, length_cons, lengthEq, nodup_cons, forall_mem_cons]
      have freshLater : ∀ other ∈ later.filter (· ≠ ""),
          label ≠ other ∧ labels.contains other = false := by
        intro other member
        have absent := fresh other member
        rw [ExtTreeMap.contains_insert, Bool.or_eq_false_iff, beq_eq_false_iff_ne] at absent
        refine ⟨?_, absent.2⟩
        rintro rfl
        exact absent.1 (@Std.ReflCmp.compare_self String compare _ label)
      refine ⟨rfl, ⟨fun member => (freshLater label member).1 rfl, distinct⟩,
        ⟨own.resolve_left unnamed, fun other member => (freshLater other member).2⟩, ?_⟩
      intro other target isMapped
      rcases mapped other target isMapped with old | new
      · rw [ExtTreeMap.getElem?_insert] at old
        split at old
        · cases old
          exact .inr (by omega)
        · exact .inl old
      · exact .inr (by omega)

variable {labels : LabelMap} {stepCount : Nat}

variable
  (known : ∀ (label : String) (target : Nat), labels[label]? = some target → target < stepCount)

include known

theorem parseStep_ok {node : Members} {live tracked : Finset String} {step : Step}
    (inside : index < stepCount)
    (accepted : parseStep readers origin labels stepCount index label node live =
      .ok (step, tracked)) : step.label = label ∧ ParsedStep readers stepCount index step := by
  unfold parseStep reject at accepted
  rcases bind_ok accepted with ⟨op, _, named⟩
  dsimp only at named
  split at named
  · cases named
  split at named
  · cases named
  rcases bind_ok named with ⟨command, isPayload, afterPayload⟩
  rcases bind_ok afterPayload with ⟨_, _, afterHandles⟩
  rcases bind_ok afterHandles with ⟨after, isAfter, afterAfter⟩
  rcases bind_ok afterAfter with ⟨policy, _, afterPolicy⟩
  rcases bind_ok afterPolicy with ⟨extra, isExtra, made⟩
  cases made
  refine ⟨rfl, ⟨_, _, _, isPayload⟩, parseAfter_ok known inside isAfter, ?_⟩
  exact optionalInteger_ok (by decide) isExtra

theorem parseSteps_ok {nodes : List (String × Json)} {live : Finset String} {steps : List Step}
    (inside : index + nodes.length ≤ stepCount)
    (accepted : parseSteps readers origin labels stepCount index nodes live = .ok steps) :
    steps.map Step.label = nodes.map Prod.fst ∧
      ∀ position step, steps[position]? = some step →
        ParsedStep readers stepCount (index + position) step := by
  induction nodes generalizing index live steps with
  | nil =>
    cases accepted
    exact ⟨rfl, fun _ _ impossible => by simp at impossible⟩
  | cons entry rest ih =>
    unfold parseSteps at accepted
    rcases bind_ok accepted with ⟨⟨first, tracked⟩, isFirst, further⟩
    rcases bind_ok further with ⟨later, isLater, made⟩
    cases made
    rw [length_cons] at inside
    rcases parseStep_ok known (by omega) isFirst with ⟨labelEq, parsed⟩
    rcases ih (by omega) isLater with ⟨labelsEq, allParsed⟩
    constructor
    · rw [map_cons, map_cons, labelEq, labelsEq]
    intro position step found
    cases position with
    | zero =>
      cases found
      exact parsed
    | succ position =>
      rw [Nat.add_succ, ← Nat.succ_add]
      exact allParsed position step found

omit known

theorem parsePacing_ok {document : Members} {pacing : PacingOptions}
    (accepted : parsePacing scope document = .ok pacing) :
    0 ≤ pacing.grace ∧ pacing.grace ≤ maximumDurationMs := by
  unfold parsePacing reject at accepted
  split at accepted
  · cases accepted
    decide
  · rcases bind_ok accepted with ⟨mode, _, further⟩
    rcases bind_ok further with ⟨grace, isGrace, made⟩
    cases made
    exact optionalInteger_ok (by decide) isGrace
  · cases accepted

theorem parsed_of_read {json : String} {document : Document}
    (reached : readDocument readers json origin = .ok document) : Parsed readers document := by
  unfold readDocument reject at reached
  dsimp only at reached
  split at reached
  · cases reached
  · rename_i members _
    rcases bind_ok reached with ⟨_, _, afterVersion⟩
    rcases bind_ok afterVersion with ⟨name, _, afterName⟩
    rcases bind_ok afterName with ⟨pacing, isPacing, afterPacing⟩
    rcases bind_ok afterPacing with ⟨steps, isSteps, made⟩
    cases made
    unfold parseNodes reject at isSteps
    dsimp only at isSteps
    split at isSteps
    · cases isSteps
    · rename_i nodes _
      split at isSteps
      · cases isSteps
      rename_i few
      rcases bind_ok isSteps with ⟨⟨found, labels⟩, collected, parsed⟩
      rcases collectLabels_ok collected with ⟨lengthEq, distinct, _, mapped⟩
      have known : ∀ (label : String) (target : Nat), labels[label]? = some target →
          target < nodes.length := by
        intro label target isMapped
        rcases mapped label target isMapped with impossible | inside
        · simp at impossible
        · simpa using inside
      have zipLength : 0 + (found.zip nodes).length ≤ nodes.length := by
        rw [Nat.zero_add, length_zip]
        exact Nat.min_le_right _ _
      rcases parseSteps_ok known zipLength parsed with ⟨labelsEq, allParsed⟩
      rw [map_fst_zip lengthEq.le] at labelsEq
      have stepsLength : steps.length = nodes.length := by
        rw [← length_map Step.label, labelsEq, lengthEq]
      constructor
      case small => exact stepsLength ▸ Nat.not_lt.mp few
      case labels =>
        rw [labelsOf, labelsEq]
        exact distinct
      case steps =>
        intro position step isStep
        have parsedStep := allParsed position step isStep
        rw [Nat.zero_add] at parsedStep
        exact stepsLength.symm ▸ parsedStep
      case grace => exact parsePacing_ok isPacing
    · cases isSteps
  · cases reached

end

/-! ## The builder -/

/-- Readers for one text, for documents without shapes. -/
def readersOf (json : String) (value : Json) : Readers where
  parse text := if text = json then .ok value else .error "syntax error"
  shape scope pointer _ := reject scope pointer "unknown shape"

def oneWait : String := "\x7b\"steps\":[\x7b\"op\":\"time.wait\",\"ms\":5\x7d]\x7d"

def oneWaitJson : Json :=
  .object [("steps", .array [.object [("op", .string "time.wait"), ("ms", .uint 5)]])]

end Grab.Kernel.Sequence
