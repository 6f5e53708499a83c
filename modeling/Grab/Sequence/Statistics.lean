import Grab.Sequence.Planned
import Grab.Sequence.Player.Run

/-!
# What can be said of a document before it runs

The counts of a document, the durations it declares or derives, and its depth.  Depth and
planned duration are longest paths: each is a maximum over the dependency chains of the
document, in steps and in nanoseconds.
-/

namespace Grab.Graph.AdjacencyGraph

variable {κ π : Type} [Ord κ] [Std.TransOrd κ]

def edgeCount (graph : AdjacencyGraph κ π) : Nat :=
  (graph.outgoing.toList.map fun entry => entry.2.length).sum

end Grab.Graph.AdjacencyGraph

namespace Grab.Kernel

open Grab.Sequence Grab.Graph Grab.Lib

/-- The handle a step creates; updates and removals only use one. -/
def createdHandle (step : Step) : Option String :=
  match step.command with
  | .overlayAdd handle _ => if handle = "" then none else some handle
  | _ => none

/-- The options of a paced motion. -/
def motionOptions (step : Step) : Option Input.DragOptions :=
  match step.command with
  | .move _ _ options => some options
  | .follow _ options => some options
  | .drag _ _ _ options => some options
  | _ => none

/-- The time the dwells of a paced motion take. -/
def derivableDuration (step : Step) : Option Nanoseconds :=
  (motionOptions step).map fun options =>
    nanosecondsOf (options.stepDwell * options.interpolationSteps)

structure DocumentStats where
  steps : Nat := 0
  edges : Nat := 0
  labels : Nat := 0
  handles : Nat := 0
  maxFanOut : Nat := 0
  maxFanIn : Nat := 0
  depth : Nat := 0
  declaredDurations : Nat := 0
  undeclaredDurations : Nat := 0
  derivableDurations : Nat := 0
  declaredTotal : Nanoseconds := 0
  derivableTotal : Nanoseconds := 0
  deriving DecidableEq, Repr

namespace DocumentStats

def countLabel (stats : DocumentStats) (step : Step) : DocumentStats :=
  if step.label = "" then stats else { stats with labels := stats.labels + 1 }

def countDeclared (stats : DocumentStats) (step : Step) : DocumentStats :=
  match declaredWait step with
  | some declared =>
    { stats with
      declaredDurations := stats.declaredDurations + 1
      declaredTotal := stats.declaredTotal + declared }
  | none => { stats with undeclaredDurations := stats.undeclaredDurations + 1 }

def countDerivable (stats : DocumentStats) (step : Step) : DocumentStats :=
  match derivableDuration step with
  | some derivable =>
    { stats with
      derivableDurations := stats.derivableDurations + 1
      derivableTotal := stats.derivableTotal + derivable }
  | none => stats

def countFan (program : Sequence) (stats : DocumentStats) (step : Step) : DocumentStats :=
  { stats with
    maxFanOut := max stats.maxFanOut (program.graph.outEdges step.id).length
    maxFanIn := max stats.maxFanIn (program.graph.inEdges step.id).length }

/-- One turn of the loop over the steps. -/
def countStep (program : Sequence) (stats : DocumentStats) (step : Step) : DocumentStats :=
  countFan program (countDerivable (countDeclared (countLabel stats step) step) step) step

end DocumentStats

/-- The distinct handles a document introduces. -/
def createdHandles (steps : List Step) : List String :=
  steps.foldl
    (fun handles step =>
      match createdHandle step with
      | none => handles
      | some handle => handles.insert handle)
    []

/-- The depth of the deepest predecessor. -/
def deepestBefore (program : Sequence) (depth : Nat → Nat) (after : List StepId) : Nat :=
  after.foldl
    (fun deepest predecessor =>
      if predecessor.index < program.steps.length then
        max deepest (depth predecessor.index)
      else deepest)
    0

/-- One step of the linearization: its depth, and the greatest of all. -/
def depthStep (program : Sequence) (table : (Nat → Nat) × Nat) (id : StepId) : (Nat → Nat) × Nat :=
  match program.find id with
  | none => table
  | some step =>
    let own := deepestBefore program table.1 step.after + 1
    (Function.update table.1 id.index own, max table.2 own)

def statistics (program : Sequence) : DocumentStats :=
  let counted := program.steps.foldl (DocumentStats.countStep program)
    { steps := program.steps.length, edges := program.graph.edgeCount }
  { counted with
    handles := (createdHandles program.steps).length
    depth := (program.order.foldl (depthStep program) (fun _ => 0, 0)).2 }

/-! ## Longest paths -/

section

variable {steps : List Step} {pacing : PacingOptions} {name : String} {program : Sequence}
  (accepted : Sequence.build steps pacing name = .ok program)

include accepted

/-- The walk that computes the depth fills in the table of longest paths of unit weight. -/
theorem foldl_depthStep :
    program.order.foldl (depthStep program) (fun _ => 0, 0) =
      LongestPath.table program.sourcesAt (program.weightAt fun _ => 1)
        (program.order.map StepId.index) := by
  have built := Sequence.built_of_build accepted
  apply Sequence.foldl_eq_table accepted
  intro table step inside found
  rw [depthStep, found, LongestPath.fill, built.latest_sourcesAt inside,
    built.weightAt_eq inside, ← deepestBefore]

end

/-- The times, grace included, that the steps of the dependency chains declare. -/
def Sequence.chainTimes (program : Sequence) (pacing : PacingOptions) : Set Nanoseconds :=
  {total | ∃ chain, program.IsDependencyChain chain ∧
    (chain.map fun step => graceBefore step pacing + ownDuration step).sum = total}

/-- The numbers of steps on the dependency chains. -/
def Sequence.chainLengths (program : Sequence) : Set Nat :=
  {length | ∃ chain, program.IsDependencyChain chain ∧ chain.length = length}

/-- The planned duration is the greatest time that the steps of a dependency chain declare,
whatever the pacing, and the depth is the greatest length of a dependency chain. -/
theorem planned_isGreatest {steps : List Step} {pacing : PacingOptions} {name : String}
    {program : Sequence} (accepted : Sequence.build steps pacing name = .ok program) :
    IsGreatest (program.chainTimes program.pacing) (planned program) ∧
      (∀ other, IsGreatest (program.chainTimes other) (plannedWith program other)) ∧
      IsGreatest program.chainLengths (statistics program).depth := by
  have times : ∀ other, IsGreatest (program.chainTimes other) (plannedWith program other) := by
    intro other
    rw [plannedWith, foldl_planStep accepted other]
    exact Sequence.isGreatest_chains accepted _
  refine ⟨times program.pacing, times, ?_⟩
  have greatest := Sequence.isGreatest_chains accepted fun _ => 1
  rw [← foldl_depthStep accepted] at greatest
  simp only [List.map_const', List.sum_replicate, nsmul_eq_mul, mul_one, Nat.cast_id] at greatest
  exact greatest

/-- Two waits, one after the other. -/
theorem planned_isGreatest_twoWaits : ∃ program,
    Sequence.build twoWaits {} "waits" = .ok program ∧
      IsGreatest (program.chainTimes program.pacing) (planned program) ∧
      IsGreatest program.chainLengths (statistics program).depth := by
  rcases build_twoWaits with ⟨program, accepted⟩
  rcases planned_isGreatest accepted with ⟨times, _, lengths⟩
  exact ⟨program, accepted, times, lengths⟩

end Grab.Kernel
