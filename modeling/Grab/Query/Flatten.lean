import Grab.Query.Meaning

/-!
# Flattening keeps the meaning

The combinators splice the operands of an operand with the same operator.  A `Nesting` is a
way to combine locators; `Nesting.build` is what the combinators make of it, and
`Nesting.plain` keeps every operator where it was written.
-/

namespace Grab.Kernel.Query

open Grab List

/-- The operators that take one predicate. -/
inductive UnaryOperator where
  | not | childOf | descendantOf | ancestorOf
  | related (relation : RelationId)
  | relatedReverse (relation : RelationId)

def UnaryOperator.plan : UnaryOperator → LocatorPlan → LocatorPlan
  | .not => .not
  | .childOf => .childOf
  | .descendantOf => .descendantOf
  | .ancestorOf => .ancestorOf
  | .related relation => .related relation
  | .relatedReverse relation => .relatedReverse relation

/-- Locators, combined in any way. -/
inductive Nesting where
  | single (locator : Locator)
  | both (first second : Nesting)
  | all (parts : List Nesting)
  | any (parts : List Nesting)
  | unary (operator : UnaryOperator) (part : Nesting)

mutual

def Nesting.build : Nesting → Locator
  | .single locator => locator
  | .both first second => first.build.conjoin second.build
  | .all parts => Sel.all (buildAll parts)
  | .any parts => Sel.any (buildAll parts)
  | .unary operator part => Sel.unary operator.plan part.build

def Nesting.buildAll : List Nesting → List Locator
  | [] => []
  | part :: rest => part.build :: buildAll rest

end

mutual

/-- The plan in which nothing is spliced. -/
def Nesting.plain : Nesting → LocatorPlan
  | .single locator => locator.plan
  | .both first second => .all [first.plain, second.plain]
  | .all parts => .all (plainAll parts)
  | .any parts => .any (plainAll parts)
  | .unary operator part => operator.plan part.plain

def Nesting.plainAll : List Nesting → List LocatorPlan
  | [] => []
  | part :: rest => part.plain :: plainAll rest

end

/-! ## Which nodes match -/

section

variable {nav : TreeNav} {node : NodeId}

/-- Whether a plan matches at a node. -/
def matchesAt (nav : TreeNav) (plan : LocatorPlan) (node : NodeId) : Bool :=
  (evaluate nav plan node).matched

variable {children : List LocatorPlan} {predicates : List Locator} {plans : List LocatorPlan}
  {plan : LocatorPlan}

theorem matched_evaluateAll {evidence : List String} :
    (evaluateAll nav children node evidence).matched =
      children.all fun child => matchesAt nav child node := by
  induction children generalizing evidence with
  | nil => rw [evaluateAll, all_nil]
  | cons child rest ih =>
    rw [evaluateAll, all_cons, matchesAt]
    cases isMatch : (evaluate nav child node).matched with
    | true => simp [ih]
    | false => simp

theorem matched_evaluateAny : (evaluateAny nav children node).matched =
      children.any fun child => matchesAt nav child node := by
  induction children with
  | nil => rw [evaluateAny, any_nil]
  | cons child rest ih =>
    rw [evaluateAny, any_cons, matchesAt]
    cases isMatch : (evaluate nav child node).matched with
    | true => simp [isMatch]
    | false => simp [ih]

@[simp]
theorem matchesAt_all :
    matchesAt nav (.all children) node = children.all fun child => matchesAt nav child node := by
  rw [matchesAt, evaluate, matched_evaluateAll]

@[simp]
theorem matchesAt_any :
    matchesAt nav (.any children) node = children.any fun child => matchesAt nav child node := by
  rw [matchesAt, evaluate, matched_evaluateAny]

/-- An operator over one predicate sees nothing of it but where it matches. -/
theorem matchesAt_unary {first second : LocatorPlan}
    (same : ∀ other, matchesAt nav first other = matchesAt nav second other)
    (operator : UnaryOperator) :
    matchesAt nav (operator.plan first) node = matchesAt nav (operator.plan second) node := by
  simp only [matchesAt] at same
  rw [Bool.eq_iff_iff, matchesAt, matchesAt]
  cases operator with
  | not => simp only [UnaryOperator.plan, evaluate, same]; split <;> simp [matched]
  | childOf | related relation | relatedReverse relation =>
    simp only [UnaryOperator.plan, evaluate, matched_attest, matched_firstMatch, same]
  | descendantOf | ancestorOf =>
    simp only [UnaryOperator.plan, evaluate, matched_attest, evaluateWalk, matched_foldl_visit,
      same]

/-! ## Splicing -/

theorem all_appendAll : ((appendAll plans plan).all fun child => matchesAt nav child node) =
      ((plans.all fun child => matchesAt nav child node) && matchesAt nav plan node) := by
  unfold appendAll
  split
  · rw [all_append, matchesAt_all]
  · simp

theorem any_appendAny : ((appendAny plans plan).any fun child => matchesAt nav child node) =
      ((plans.any fun child => matchesAt nav child node) || matchesAt nav plan node) := by
  unfold appendAny
  split
  · rw [any_append, matchesAt_any]
  · simp

theorem matchesAt_conjoin {first second : Locator} :
    matchesAt nav (first.conjoin second).plan node =
      (matchesAt nav first.plan node && matchesAt nav second.plan node) := by
  rw [Locator.conjoin, matchesAt_all, all_appendAll, all_appendAll, all_nil, Bool.true_and]

theorem matchesAt_selAll :
    matchesAt nav (Sel.all predicates).plan node =
      predicates.all fun predicate => matchesAt nav predicate.plan node := by
  have spliced : ∀ plans : List LocatorPlan,
      ((predicates.foldl (fun plans predicate => appendAll plans predicate.plan) plans).all
          fun child => matchesAt nav child node) =
        ((plans.all fun child => matchesAt nav child node) &&
          predicates.all fun predicate => matchesAt nav predicate.plan node) := by
    induction predicates with
    | nil => simp
    | cons predicate rest ih =>
      intro plans
      rw [foldl_cons, ih, all_appendAll, all_cons, Bool.and_assoc]
  cases predicates with
  | nil => simp [Sel.all, matchesAt, evaluate, matched]
  | cons predicate rest =>
    rw [Sel.all, if_neg (by simp), matchesAt_all, spliced, all_nil, Bool.true_and]

theorem matchesAt_selAny :
    matchesAt nav (Sel.any predicates).plan node =
      predicates.any fun predicate => matchesAt nav predicate.plan node := by
  have spliced : ∀ plans : List LocatorPlan,
      ((predicates.foldl (fun plans predicate => appendAny plans predicate.plan) plans).any
          fun child => matchesAt nav child node) =
        ((plans.any fun child => matchesAt nav child node) ||
          predicates.any fun predicate => matchesAt nav predicate.plan node) := by
    induction predicates with
    | nil => simp
    | cons predicate rest ih =>
      intro plans
      rw [foldl_cons, ih, any_appendAny, any_cons, Bool.or_assoc]
  cases predicates with
  | nil => simp [Sel.any, matchesAt, evaluate]
  | cons predicate rest =>
    rw [Sel.any, if_neg (by simp), matchesAt_any, spliced, any_nil, Bool.false_or]

end

mutual

theorem matchesAt_build (nav : TreeNav) (nesting : Nesting) (node : NodeId) :
    matchesAt nav nesting.build.plan node = matchesAt nav nesting.plain node := by
  cases nesting with
  | single locator => rw [Nesting.build, Nesting.plain]
  | both first second =>
    rw [Nesting.build, matchesAt_conjoin, Nesting.plain, matchesAt_all,
      matchesAt_build nav first node, matchesAt_build nav second node]
    simp
  | all parts =>
    rw [Nesting.build, matchesAt_selAll, Nesting.plain, matchesAt_all]
    exact (matchesAt_buildAll nav parts node).1
  | any parts =>
    rw [Nesting.build, matchesAt_selAny, Nesting.plain, matchesAt_any]
    exact (matchesAt_buildAll nav parts node).2
  | unary operator part =>
    rw [Nesting.build, Nesting.plain]
    exact matchesAt_unary (fun other => matchesAt_build nav part other) operator

theorem matchesAt_buildAll (nav : TreeNav) (parts : List Nesting) (node : NodeId) :
    ((Nesting.buildAll parts).all fun locator => matchesAt nav locator.plan node) =
        ((Nesting.plainAll parts).all fun plan => matchesAt nav plan node) ∧
      ((Nesting.buildAll parts).any fun locator => matchesAt nav locator.plan node) =
        ((Nesting.plainAll parts).any fun plan => matchesAt nav plan node) := by
  cases parts with
  | nil =>
    rw [Nesting.buildAll, Nesting.plainAll]
    exact ⟨rfl, rfl⟩
  | cons part rest =>
    rcases matchesAt_buildAll nav rest node with ⟨restAll, restAny⟩
    rw [Nesting.buildAll, Nesting.plainAll, all_cons, all_cons, any_cons,
      any_cons, matchesAt_build nav part node, restAll, restAny]
    exact ⟨rfl, rfl⟩

end

/-! ## Associativity -/

/-- The operands a plan contributes to a conjunction. -/
theorem appendAll_eq (plans : List LocatorPlan) (plan : LocatorPlan) :
    appendAll plans plan = plans ++ appendAll [] plan := by
  unfold appendAll
  split <;> simp

theorem conjoin_assoc (first second third : Locator) :
    (first.conjoin second).conjoin third = first.conjoin (second.conjoin third) := by
  have plans : appendAll (appendAll (appendAll [] first.plan) second.plan) third.plan =
      appendAll [] first.plan ++ appendAll (appendAll [] second.plan) third.plan := by
    rw [appendAll_eq _ third.plan, appendAll_eq (appendAll [] first.plan) second.plan,
      appendAll_eq (appendAll [] second.plan) third.plan, append_assoc]
  have boundaries : ∀ first second third : BoundaryPolicy,
      (first.max second).max third = first.max (second.max third) := by
    intro first second third
    cases first <;> cases second <;> cases third <;> rfl
  have consistencies : ∀ first second third : ConsistencyMode,
      (first.max second).max third = first.max (second.max third) := by
    intro first second third
    cases first <;> cases second <;> cases third <;> rfl
  rw [Locator.conjoin, Locator.conjoin, Locator.conjoin, Locator.conjoin, boundaries, consistencies]
  congr 2

/-- However locators are combined, the plan that is built matches the nodes that the plan
with every operator in its place matches, and conjunction is associative. -/
theorem flattening_keeps_meaning :
    (∀ (nesting : Nesting) (nav : TreeNav) (node : NodeId),
      (evaluate nav nesting.build.plan node).matched = (evaluate nav nesting.plain node).matched) ∧
      ∀ first second third : Locator,
        (first.conjoin second).conjoin third = first.conjoin (second.conjoin third) :=
  ⟨fun nesting nav node => matchesAt_build nav nesting node, conjoin_assoc⟩

end Grab.Kernel.Query
