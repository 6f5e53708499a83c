import Std.Data.ExtTreeMap

/-!
# Vocabulary of a command sequence

The identity a step carries, the states a run moves through and the error
values the kernel reports.  Enumerations drop the `Count` sentinel of the
source: it sizes name tables and is never the value of a variable.

Time points are the nanosecond counts of the steady clock and are integers
here, as are durations; only their order and their sums are ever used.
-/

namespace Grab

/-- A steady-clock time point, in nanoseconds since an arbitrary epoch. -/
abbrev TimePoint := Int

/-- A span in nanoseconds. -/
abbrev Nanoseconds := Int

/-- A span in milliseconds. -/
abbrev Milliseconds := Int

/-- `duration_cast` from milliseconds to nanoseconds. -/
def nanosecondsOf (span : Milliseconds) : Nanoseconds := span * 1000000

inductive ErrorCode where
  | environmentChanged | displayUnavailable | deviceInaccessible | topologyChanged
  | permissionNeeded | permissionDenied | leaseClosed | leaseRevoked | ownershipRequired
  | windowNotFound | staleWindow | geometryUntrusted | staleNode | staleShape
  | treeResynced | runtimeRestarted | targetDetached | noMatch | ambiguousMatch
  | propertyAbsent | propertyUnsupported | propertyUncached | propertyBackendFailed
  | capabilityUnavailable | providerFailed | protocolError
  | invalidArgument | illegalFromCallback | unsupportedCharacter | sessionClosed
  | sessionExists | sessionNotFound | sessionDead | deadlineExceeded | cancelled
  | internalFault
  | notActionable | occluded | routeUnavailable | possiblyCommitted | verificationFailed
  | neutralizationFailed
  | queueGap | resyncRequired | subscriptionGone | overflowed
  deriving DecidableEq, Repr

/-- What a failing call reports: the code and the text of `grab::fail`. -/
structure Error where
  code : ErrorCode
  message : String
  deriving DecidableEq, Repr

inductive RetryClass where
  | never | resolveOnly | idempotent | compensated
  deriving DecidableEq, Repr

inductive NeutralizationOutcome where
  | notAttempted | nothingHeld | released | failed
  deriving DecidableEq, Repr

end Grab

namespace Grab.Sequence

/-- A sequence holds at most this many steps. -/
def maxSteps : Nat := 65536

/-- Index and generation packed into one word, the generation above the sixteen
index bits. -/
structure StepId where
  bits : Nat
  deriving DecidableEq, Repr

namespace StepId

/-- Number of values of one half of the word. -/
def lane : Nat := 65536

def firstGeneration : Nat := 1

def make (index generation : Nat) : StepId := ⟨generation * lane + index % lane⟩

def nil : StepId := ⟨0⟩

instance : Inhabited StepId := ⟨nil⟩

def index (id : StepId) : Nat := id.bits % lane

def generation (id : StepId) : Nat := id.bits / lane

def isNil (id : StepId) : Bool := id.bits == 0

/-- Ids compare as their words. -/
instance : Ord StepId where
  compare left right := compare left.bits right.bits

instance : Std.TransOrd StepId where
  eq_swap {left right} := @Std.OrientedCmp.eq_swap Nat compare _ left.bits right.bits
  isLE_trans {first second third} :=
    @Std.TransCmp.isLE_trans Nat compare _ first.bits second.bits third.bits

instance : Std.LawfulEqOrd StepId where
  eq_of_compare {_ _} equal :=
    congrArg StepId.mk (@Std.LawfulEqCmp.eq_of_compare Nat compare _ _ _ equal)

/-- The id of the step at a document position. -/
def ofIndex (position : Nat) : StepId := make position firstGeneration

@[simp]
theorem index_make {index : Nat} (generation : Nat) (small : index < lane) :
    (make index generation).index = index := by
  simp only [make, StepId.index, lane] at *
  omega

theorem ofIndex_injective {first second : Nat} (firstSmall : first < lane)
    (secondSmall : second < lane) (equal : ofIndex first = ofIndex second) : first = second := by
  have indexEq := congrArg StepId.index equal
  rwa [ofIndex, ofIndex, index_make _ firstSmall, index_make _ secondSmall] at indexEq

theorem isNil_ofIndex (position : Nat) : (ofIndex position).isNil = false := by
  simp only [ofIndex, make, isNil, firstGeneration, lane, beq_eq_false_iff_ne]
  omega

end StepId

/-- What one command reports back to the pump. -/
inductive Status where
  | running | success | failure
  deriving DecidableEq, Repr

inductive PlayState where
  | idle | playing | paused | interrupted | done
  deriving DecidableEq, Repr

inductive StepStatus where
  | pending | ready | running | succeeded | failed | skipped
  deriving DecidableEq, Repr

inductive PacingMode where
  | strict | grace | precise
  deriving DecidableEq, Repr

structure PacingOptions where
  mode : PacingMode := .strict
  grace : Milliseconds := 0
  deriving DecidableEq, Repr

end Grab.Sequence
