import Grab.Sequence.Chains
import Grab.Sequence.Player.Core

/-!
# The planned duration of a document

The longest path through the dependencies, where a step adds its grace and the time it
declares.  Only a wait declares one, so the plan is a floor.
-/

namespace Grab.Kernel

open Grab.Sequence Grab.Graph Grab.Lib List

/-- When a step can start: after the latest of its predecessors. -/
def readyAfter (sequence : Sequence) (finish : Nat → Nanoseconds) (after : List StepId) :
    Nanoseconds :=
  after.foldl
    (fun ready predecessor =>
      if predecessor.index < sequence.steps.length then
        max ready (finish predecessor.index)
      else ready)
    0

/-- The time a step declares. -/
def ownDuration (step : Step) : Nanoseconds := (declaredWait step).getD 0

/-- One step of the linearization: its finish, and the latest of all. -/
def planStep (sequence : Sequence) (pacing : PacingOptions)
    (plan : (Nat → Nanoseconds) × Nanoseconds) (id : StepId) :
    (Nat → Nanoseconds) × Nanoseconds :=
  match sequence.find id with
  | none => plan
  | some step =>
    let done := readyAfter sequence plan.1 step.after + graceBefore step pacing +
      ownDuration step
    (Function.update plan.1 id.index done, max plan.2 done)

def plannedWith (sequence : Sequence) (pacing : PacingOptions) : Nanoseconds :=
  (sequence.order.foldl (planStep sequence pacing) (fun _ => 0, 0)).2

def planned (sequence : Sequence) : Nanoseconds := plannedWith sequence sequence.pacing

/-! ## The latest predecessor -/

section

variable {sequence : Sequence} {finish : Nat → Nanoseconds} {after : List StepId}

theorem readyAfter_le {bound : Nanoseconds} (nonnegative : 0 ≤ bound)
    (each : ∀ predecessor ∈ after, finish predecessor.index ≤ bound) :
    readyAfter sequence finish after ≤ bound := by
  rw [readyAfter]
  generalize (0 : Nanoseconds) = ready at nonnegative
  induction after generalizing ready with
  | nil => exact nonnegative
  | cons predecessor rest ih =>
    have here := each predecessor mem_cons_self
    apply ih (fun other member => each other (mem_cons_of_mem _ member))
    dsimp only
    split
    · exact max_le nonnegative here
    · exact nonnegative

end

/-! ## The table of finishes -/

/-- A table in which every step finishes when its predecessors, its grace and its own
duration are over. -/
def IsPlan (sequence : Sequence) (pacing : PacingOptions) (finish : Nat → Nanoseconds)
    (step : Step) : Prop :=
  finish step.id.index =
    readyAfter sequence finish step.after + graceBefore step pacing + ownDuration step

section

variable {steps : List Step} {pacing : PacingOptions} {name : String} {sequence : Sequence}
  (accepted : Sequence.build steps pacing name = .ok sequence)

include accepted

/-- The walk over the order fills in the table of longest paths. -/
theorem foldl_planStep (pacing : PacingOptions) :
    sequence.order.foldl (planStep sequence pacing) (fun _ => 0, 0) =
      LongestPath.table sequence.sourcesAt
        (sequence.weightAt fun step => graceBefore step pacing + ownDuration step)
        (sequence.order.map StepId.index) := by
  have built := Sequence.built_of_build accepted
  apply Sequence.foldl_eq_table accepted
  intro plan step inside found
  rw [planStep, found, LongestPath.fill, built.latest_sourcesAt inside,
    built.weightAt_eq inside, ← readyAfter, ← add_assoc]

/-- The plan: a table of finishes, and the latest of them. -/
theorem exists_plan : ∃ finish : Nat → Nanoseconds,
    (∀ step ∈ sequence.steps, IsPlan sequence sequence.pacing finish step) ∧
      ∀ bound, 0 ≤ bound → (∀ step ∈ sequence.steps, finish step.id.index ≤ bound) →
        planned sequence ≤ bound := by
  have built := Sequence.built_of_build accepted
  have linear := Sequence.linear_of_build accepted
  have positionOf : ∀ step ∈ sequence.steps, step.id.index ∈ sequence.order.map StepId.index := by
    intro step member
    apply mem_map_of_mem
    exact ((Sequence.order_of_build accepted).2.1 step.id).mpr ⟨step, member, rfl⟩
  rcases @LongestPath.Linear.filled _ _ _ _ _ _
    (sequence.weightAt fun step => graceBefore step sequence.pacing + ownDuration step) _
    linear _ _ (append_nil _).symm with ⟨entries, _, _, attained⟩
  rw [← foldl_planStep accepted sequence.pacing] at entries attained
  refine ⟨(sequence.order.foldl (planStep sequence sequence.pacing) (fun _ => 0, 0)).1, ?_, ?_⟩
  · intro step member
    have entry := entries step.id.index (positionOf step member)
    rw [built.latest_sourcesAt member, built.weightAt_eq member, ← readyAfter, ← add_assoc] at entry
    exact entry
  intro bound nonnegative each
  rw [planned, plannedWith]
  rcases attained with zero | ⟨position, member, same⟩
  · rw [zero]
    exact nonnegative
  rcases mem_map.mp member with ⟨id, inOrder, rfl⟩
  rcases ((Sequence.order_of_build accepted).2.1 id).mp inOrder with ⟨step, inside, rfl⟩
  rw [same]
  exact each step inside

end

end Grab.Kernel
