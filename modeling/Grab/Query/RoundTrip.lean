import Grab.Query.Text
import Grab.Tree.Generation

/-!
# Locator texts round trip

Reading the text of a locator gives the locator back with its zeros made positive,
which is the locator that `==` calls equal.  What the parser accepts is within the
budget and has such zeros already, so it comes back unchanged.
-/

namespace Grab.Locator

open Grab.Lib Grab.Kernel

/-! ## Sizes -/

mutual

/-- The number of nodes of a plan. -/
def size : LocatorPlan → Nat
  | .all children => 1 + sizeAll children
  | .any children => 1 + sizeAll children
  | .not child | .childOf child | .descendantOf child | .ancestorOf child
  | .related _ child | .relatedReverse _ child => 1 + size child
  | _ => 1

def sizeAll : List LocatorPlan → Nat
  | [] => 0
  | child :: rest => size child + sizeAll rest

end

theorem saturatingAdd_min (count more : Nat) :
    saturatingAdd (min count (2 ^ 64 - 1)) (min more (2 ^ 64 - 1)) =
      min (count + more) (2 ^ 64 - 1) := by
  unfold saturatingAdd
  split <;> omega

mutual

/-- The count that saturates is the size up to the largest `size_t`. -/
theorem nodeCount_eq (plan : LocatorPlan) : plan.nodeCount = min (size plan) (2 ^ 64 - 1) := by
  have one : (1 : Nat) = min 1 (2 ^ 64 - 1) := by decide
  cases plan with
  | all children =>
    rw [LocatorPlan.nodeCount, size]
    exact (congrArg (LocatorPlan.countAll · children) one).trans (countAll_eq 1 children)
  | any children =>
    rw [LocatorPlan.nodeCount, size]
    exact (congrArg (LocatorPlan.countAll · children) one).trans (countAll_eq 1 children)
  | not child | childOf child | descendantOf child | ancestorOf child
  | related _ child | relatedReverse _ child =>
    rw [LocatorPlan.nodeCount, size, nodeCount_eq child]
    exact (congrArg (saturatingAdd · _) one).trans (saturatingAdd_min 1 (size child))
  | _ =>
    rw [LocatorPlan.nodeCount, size]
    · exact one
    all_goals simp

theorem countAll_eq (count : Nat) (children : List LocatorPlan) :
    LocatorPlan.countAll (min count (2 ^ 64 - 1)) children =
      min (count + sizeAll children) (2 ^ 64 - 1) := by
  cases children with
  | nil => rw [LocatorPlan.countAll, sizeAll, Nat.add_zero]
  | cons child rest =>
    rw [LocatorPlan.countAll, sizeAll, nodeCount_eq child, saturatingAdd_min,
      countAll_eq (count + size child) rest, Nat.add_assoc]

end

theorem size_le_iff (plan : LocatorPlan) :
    plan.nodeCount ≤ defaultMaxNodes ↔ size plan ≤ defaultMaxNodes := by
  rw [nodeCount_eq, defaultMaxNodes]
  omega

theorem size_pos (plan : LocatorPlan) : 0 < size plan := by
  unfold size
  split <;> omega

/-! ## Canonical locators -/

def canonicalRect (rect : SpaceRect) : SpaceRect :=
  { rect with
    x := plainZero rect.x
    y := plainZero rect.y
    w := plainZero rect.w
    h := plainZero rect.h }

def canonicalValue : PropertyValue → PropertyValue
  | .double value => .double (plainZero value)
  | .rect value => .rect (canonicalRect value)
  | other => other

mutual

/-- The same plan with every zero positive. -/
def canonicalPlan : LocatorPlan → LocatorPlan
  | .property property value => .property property (canonicalValue value)
  | .all children => .all (canonicalPlans children)
  | .any children => .any (canonicalPlans children)
  | .not child => .not (canonicalPlan child)
  | .childOf child => .childOf (canonicalPlan child)
  | .descendantOf child => .descendantOf (canonicalPlan child)
  | .ancestorOf child => .ancestorOf (canonicalPlan child)
  | .related relation child => .related relation (canonicalPlan child)
  | .relatedReverse relation child => .relatedReverse relation (canonicalPlan child)
  | other => other

def canonicalPlans : List LocatorPlan → List LocatorPlan
  | [] => []
  | child :: rest => canonicalPlan child :: canonicalPlans rest

end

def canonical (locator : Locator) : Locator := { locator with plan := canonicalPlan locator.plan }

variable {value : Double}

theorem plainZero_of_zero (isZero : value.numericEq zero = true) : plainZero value = zero :=
  if_pos isZero

theorem plainZero_of_nonzero (nonzero : ¬value.numericEq zero = true) : plainZero value = value :=
  if_neg nonzero

theorem plainZero_plainZero (value : Double) : plainZero (plainZero value) = plainZero value := by
  by_cases isZero : value.numericEq zero = true
  · rw [plainZero_of_zero isZero]
    decide
  · rw [plainZero_of_nonzero isZero, plainZero_of_nonzero isZero]

theorem encodedNumber_of_zero (isZero : value.numericEq zero = true) :
    encodedNumber value = .float zero := by
  unfold encodedNumber
  exact if_pos isZero

theorem encodedNumber_plainZero (value : Double) :
    encodedNumber (plainZero value) = encodedNumber value := by
  by_cases isZero : value.numericEq zero = true
  · rw [plainZero_of_zero isZero, encodedNumber_of_zero isZero]
    exact encodedNumber_of_zero (by decide)
  · rw [plainZero_of_nonzero isZero]

theorem propertyValueMembers_canonical (value : PropertyValue) :
    propertyValueMembers (canonicalValue value) = propertyValueMembers value := by
  cases value with
  | double value => simp [canonicalValue, propertyValueMembers, encodedNumber_plainZero]
  | rect value =>
    simp [canonicalValue, canonicalRect, propertyValueMembers, encodedNumber_plainZero]
  | _ => rfl

mutual

theorem expressionJson_canonical (plan : LocatorPlan) :
    expressionJson (canonicalPlan plan) = expressionJson plan := by
  cases plan with
  | property property value =>
    simp only [canonicalPlan, expressionJson, propertyValueMembers_canonical]
  | all children =>
    simp only [canonicalPlan, expressionJson, expressionsJson_canonical children]
  | any children =>
    simp only [canonicalPlan, expressionJson, expressionsJson_canonical children]
  | not child | childOf child | descendantOf child | ancestorOf child
  | related _ child | relatedReverse _ child =>
    simp only [canonicalPlan, expressionJson, expressionJson_canonical child]
  | _ => simp only [canonicalPlan]

theorem expressionsJson_canonical (children : List LocatorPlan) :
    expressionsJson (canonicalPlans children) = expressionsJson children := by
  cases children with
  | nil => rfl
  | cons child rest =>
    simp only [canonicalPlans, expressionsJson, expressionJson_canonical child,
      expressionsJson_canonical rest]

end

theorem toJson_canonical (locator : Locator) : locator.canonical.toJson = locator.toJson := by
  simp only [canonical, toJson, expressionJson_canonical]

/-! ## Reading what was written -/

@[simp]
theorem requiredMember_object (members : List (String × Json)) (name path : String) :
    requiredMember (.object members) name path =
      match Json.lookup name members with
      | some value => .ok value
      | none => .error (invalidLocator (path ++ " is missing '" ++ name ++ "'")) :=
  rfl

@[simp]
theorem unsigned32_uint (value : UInt32) (path : String) :
    unsigned32 (.uint value.toUInt64) path = .ok value := by
  have fits : ¬4294967295 < value.toUInt64 := by
    rw [UInt64.lt_iff_toNat_lt, UInt32.toNat_toUInt64]
    have := value.toNat_lt
    change ¬4294967295 < value.toNat
    omega
  rw [unsigned32, fitUnsigned32, if_neg fits, UInt32.toUInt32_toUInt64]

@[simp]
theorem jsonString_string (text path : String) : jsonString (.string text) path = .ok text := rfl

theorem jsonNumber_encodedNumber (value : Double) (path : String) :
    jsonNumber (encodedNumber value).reparse path = .ok (plainZero value) := by
  by_cases isZero : value.numericEq zero = true
  · rw [encodedNumber_of_zero isZero, plainZero_of_zero isZero]
    rfl
  rw [plainZero_of_nonzero isZero]
  unfold encodedNumber
  rw [if_neg isZero]
  cases value with
  | finite negative mantissa exponent fits =>
    rw [Json.reparse_float rfl, jsonNumber, finiteNumber, plainZero_of_nonzero isZero]
    rfl
  | infinity negative => cases negative <;> rfl
  | nan => rfl

theorem parseInteger_int (value : Int64) (path : String) :
    parseInteger (Json.reparse (.int value)) path = .ok (.int value) := by
  rw [Json.reparse]
  split
  · rename_i nonneg
    have fits : ¬9223372036854775807 < value.toUInt64 := by
      have bounded := value.toNatClampNeg_lt
      rw [UInt64.lt_iff_toNat_lt, Int64.toNat_toUInt64_of_le nonneg]
      change ¬9223372036854775807 < value.toNatClampNeg
      omega
    rw [parseInteger, if_neg fits]
    rfl
  · rfl

theorem parseRect_members (rect : SpaceRect) (path : String) :
    parseRect (.object (Json.reparseMembers
      [("x", encodedNumber rect.x), ("y", encodedNumber rect.y),
        ("w", encodedNumber rect.w), ("h", encodedNumber rect.h),
        ("space", .uint rect.space.value.toUInt64)])) path =
      .ok (.rect (canonicalRect rect)) := by
  simp [parseRect, parseRectNumbers, jsonNumber_encodedNumber, canonicalRect]
  rfl

theorem parsePropertyValue_members (value : PropertyValue) (path : String)
    (operation property : Json) :
    parsePropertyValue (.object (("op", operation) :: ("property", property) ::
      Json.reparseMembers (propertyValueMembers value))) path = .ok (canonicalValue value) := by
  cases value with
  | none | bool value | string value => rfl
  | int value => exact parseInteger_int value path
  | double value =>
    change (jsonNumber (encodedNumber value).reparse (path ++ ".value") >>= _) = _
    rw [jsonNumber_encodedNumber]
    rfl
  | rect value => exact parseRect_members value path

variable {levels nodeCount : Nat} {operator : String}

variable (within : nodeCount < defaultMaxNodes) {parse other : ExpressionParser}
  {result : PropertyValue} {path : String} {plan : LocatorPlan} {after : Nat} {object : Json}
  {child : Json} {value : Json}

include within

/-- One level of reading. -/
theorem parseExpression_op (operation : String) (members : List (String × Json)) :
    parseExpression (levels + 1) (.object (("op", .string operation) :: members)) nodeCount =
      parseOperation (parseExpression levels)
        (.object (("op", .string operation) :: members)) operation (nodeCount + 1) := by
  rw [parseExpression, if_neg (Nat.not_le.mpr within)]
  rfl

/-- An operator that takes one child reads it. -/
theorem parseExpression_unary (operation : LocatorPlan → LocatorPlan)
    (isUnary : ∀ parse object count,
      parseOperation parse object operator count = parseUnary parse object operation count)
    (parsed : parseExpression levels child (nodeCount + 1) = .ok (plan, after)) :
    parseExpression (levels + 1) (.object [("op", .string operator), ("child", child)])
        nodeCount = .ok (operation plan, after) := by
  rw [parseExpression_op within, isUnary]
  change (parseExpression levels child (nodeCount + 1) >>= _) = _
  rw [parsed]
  rfl

theorem parseExpression_relation (operation : RelationId → LocatorPlan → LocatorPlan)
    (isRelation : ∀ parse object count, parseOperation parse object operator count =
      parseRelation parse object operation count) (relation : RelationId)
    (parsed : parseExpression levels child (nodeCount + 1) = .ok (plan, after)) :
    parseExpression (levels + 1)
        (.object [("op", .string operator), ("relation", .uint relation.value.toUInt64),
          ("child", child)]) nodeCount = .ok (operation relation plan, after) := by
  rw [parseExpression_op within, isRelation]
  change (unsigned32 (.uint relation.value.toUInt64) "$.expr.relation" >>= _) = _
  rw [unsigned32_uint]
  change (parseExpression levels child (nodeCount + 1) >>= _) = _
  rw [parsed]
  rfl

theorem parseExpression_children (operation : List LocatorPlan → LocatorPlan)
    (isGroup : ∀ parse object count, parseOperation parse object operator count =
      parseChildrenMember parse object operation count) {items : List Json}
    {plans : List LocatorPlan}
    (parsed : parseChildren (parseExpression levels) items (nodeCount + 1) = .ok (plans, after)) :
    parseExpression (levels + 1)
        (.object [("op", .string operator), ("children", .array items)]) nodeCount =
      .ok (operation plans, after) := by
  rw [parseExpression_op within, isGroup]
  change (parseChildren (parseExpression levels) items (nodeCount + 1) >>= _) = _
  rw [parsed]
  rfl

omit within

theorem parseNumberOperand_ok (operator : String) (value : UInt32)
    (operation : UInt32 → LocatorPlan) (nodeCount : Nat) :
    leaf (parseNumberOperand
        (.object [("op", .string operator), ("value", .uint value.toUInt64)]) operation)
        nodeCount =
      .ok (operation value, nodeCount) := by
  have parsed : parseNumberOperand
      (.object [("op", .string operator), ("value", .uint value.toUInt64)]) operation =
        .ok (operation value) := by
    rw [parseNumberOperand]
    change (unsigned32 (.uint value.toUInt64) "$.expr.value" >>= _) = _
    rw [unsigned32_uint]
    rfl
  rw [parsed]
  rfl

theorem parseProperty_ok (property : PropertyId) (value : PropertyValue) (nodeCount : Nat) :
    leaf (parseProperty (.object (("op", .string "property") ::
        ("property", .uint property.value.toUInt64) ::
        Json.reparseMembers (propertyValueMembers value)))) nodeCount =
      .ok (.property property (canonicalValue value), nodeCount) := by
  have parsed : parseProperty (.object (("op", .string "property") ::
      ("property", .uint property.value.toUInt64) ::
      Json.reparseMembers (propertyValueMembers value))) =
        .ok (.property property (canonicalValue value)) := by
    rw [parseProperty]
    change (unsigned32 (.uint property.value.toUInt64) "$.expr.property" >>= _) = _
    rw [unsigned32_uint]
    change (parsePropertyValue _ "$.expr" >>= _) = _
    rw [parsePropertyValue_members]
    rfl
  rw [parsed]
  rfl

mutual

/-- Reading a written plan gives its canonical form and counts its nodes. -/
theorem parseExpression_expressionJson (plan : LocatorPlan) {levels nodeCount : Nat}
    (deep : size plan ≤ levels) (budget : nodeCount + size plan ≤ defaultMaxNodes) :
    parseExpression levels (expressionJson plan).reparse nodeCount =
      .ok (canonicalPlan plan, nodeCount + size plan) := by
  have positive := size_pos plan
  have within : nodeCount < defaultMaxNodes := by omega
  cases levels with
  | zero => omega
  | succ levels =>
    cases plan with
      (simp only [size, Nat.add_comm levels, Nat.add_le_add_iff_left] at deep
       simp only [size, ← Nat.add_assoc] at budget ⊢)
    | matchAll => exact parseExpression_op within "match_all" []
    | matchNone => exact parseExpression_op within "match_none" []
    | role role =>
      apply (parseExpression_op within "role" _).trans
      exact parseNumberOperand_ok "role" role.value (fun value => .role ⟨value⟩) _
    | state mask =>
      apply (parseExpression_op within "state" _).trans
      exact parseNumberOperand_ok "state" mask .state _
    | property property value =>
      apply (parseExpression_op within "property" _).trans
      exact parseProperty_ok property value _
    | accessibleName text => exact parseExpression_op within "accessible_name" _
    | text text => exact parseExpression_op within "text" _
    | all children =>
      exact parseExpression_children within .all (fun _ _ _ => rfl)
        (parseChildren_expressionsJson children deep budget)
    | any children =>
      exact parseExpression_children within .any (fun _ _ _ => rfl)
        (parseChildren_expressionsJson children deep budget)
    | not child =>
      exact parseExpression_unary within .not (fun _ _ _ => rfl)
        (parseExpression_expressionJson child deep budget)
    | childOf child =>
      exact parseExpression_unary within .childOf (fun _ _ _ => rfl)
        (parseExpression_expressionJson child deep budget)
    | descendantOf child =>
      exact parseExpression_unary within .descendantOf (fun _ _ _ => rfl)
        (parseExpression_expressionJson child deep budget)
    | ancestorOf child =>
      exact parseExpression_unary within .ancestorOf (fun _ _ _ => rfl)
        (parseExpression_expressionJson child deep budget)
    | related relation child =>
      exact parseExpression_relation within .related (fun _ _ _ => rfl) relation
        (parseExpression_expressionJson child deep budget)
    | relatedReverse relation child =>
      exact parseExpression_relation within .relatedReverse (fun _ _ _ => rfl) relation
        (parseExpression_expressionJson child deep budget)

theorem parseChildren_expressionsJson (children : List LocatorPlan) {levels nodeCount : Nat}
    (deep : sizeAll children ≤ levels) (budget : nodeCount + sizeAll children ≤ defaultMaxNodes) :
    parseChildren (parseExpression levels) (Json.reparseAll (expressionsJson children)) nodeCount =
      .ok (canonicalPlans children, nodeCount + sizeAll children) := by
  cases children with
  | nil => rfl
  | cons child rest =>
    rw [sizeAll] at deep budget
    have first : parseExpression levels (expressionJson child).reparse nodeCount =
        .ok (canonicalPlan child, nodeCount + size child) :=
      parseExpression_expressionJson child (by omega) (by omega)
    have later : parseChildren (parseExpression levels)
        (Json.reparseAll (expressionsJson rest)) (nodeCount + size child) =
        .ok (canonicalPlans rest, nodeCount + size child + sizeAll rest) :=
      parseChildren_expressionsJson rest (by omega) (by omega)
    change (parseExpression levels (expressionJson child).reparse nodeCount >>= _) = _
    rw [first]
    change (parseChildren (parseExpression levels)
      (Json.reparseAll (expressionsJson rest)) (nodeCount + size child) >>= _) = _
    rw [later, sizeAll, ← Nat.add_assoc]
    rfl

end

@[simp]
theorem parseBoundary_name (boundary : BoundaryPolicy) :
    parseBoundary (.string (boundaryName boundary)) = .ok boundary := by
  cases boundary <;> rfl

@[simp]
theorem parseConsistency_name (consistency : ConsistencyMode) :
    parseConsistency (.string (consistencyName consistency)) = .ok consistency := by
  cases consistency <;> rfl

/-- The document of a locator within the budget is read back. -/
theorem fromJson_toJson (locator : Locator) (budget : size locator.plan ≤ defaultMaxNodes) :
    fromJson locator.toJson.reparse = .ok locator.canonical := by
  have parsed := parseExpression_expressionJson locator.plan budget
    ((Nat.zero_add _).le.trans budget)
  change (parseBoundary (.string (boundaryName locator.boundary)) >>= _) = _
  rw [parseBoundary_name]
  change (parseConsistency (.string (consistencyName locator.consistency)) >>= _) = _
  rw [parseConsistency_name]
  change (parseExpression defaultMaxNodes (expressionJson locator.plan).reparse 0 >>= _) = _
  rw [parsed]
  rfl

/-! ## What is accepted -/

theorem canonicalValue_jsonNumber {number : Double} (ok : jsonNumber value path = .ok number) :
    plainZero number = number := by
  have finite : ∀ {number result : Double},
      finiteNumber number path = .ok result → plainZero result = result := by
    intro number result ok
    unfold finiteNumber at ok
    split at ok
    · rw [← Except.ok.inj ok]
      exact plainZero_plainZero number
    · cases ok
  unfold jsonNumber at ok
  split at ok
  · exact finite ok
  · exact finite ok
  · exact finite ok
  · rw [← Except.ok.inj ok]
    decide
  · rw [← Except.ok.inj ok]
    decide
  · rw [← Except.ok.inj ok]
    decide
  · cases ok

theorem parseRect_canonical (ok : parseRect value path = .ok result) :
    canonicalValue result = result := by
  unfold parseRect at ok
  split at ok
  · rcases bind_ok ok with ⟨numbers, numbersOk, ok⟩
    rcases bind_ok ok with ⟨space, _, ok⟩
    unfold parseRectNumbers at numbersOk
    split at numbersOk
    · rename_i x y w h xOk yOk wOk hOk
      rw [← Except.ok.inj ok, ← Except.ok.inj numbersOk]
      simp only [canonicalValue, canonicalRect, canonicalValue_jsonNumber xOk,
        canonicalValue_jsonNumber yOk, canonicalValue_jsonNumber wOk,
        canonicalValue_jsonNumber hOk]
    · cases numbersOk
  · cases ok

theorem parsePropertyValue_canonical (ok : parsePropertyValue object path = .ok result) :
    canonicalValue result = result := by
  unfold parsePropertyValue at ok
  rcases bind_ok ok with ⟨_, _, ok⟩
  rcases bind_ok ok with ⟨value, _, ok⟩
  rcases bind_ok ok with ⟨_, _, ok⟩
  split at ok
  · rw [← Except.ok.inj ok]
    rfl
  · cases ok
  · rw [← Except.ok.inj ok]
    rfl
  · cases ok
  · unfold parseInteger at ok
    split at ok
    · split at ok
      · cases ok
      · rw [← Except.ok.inj ok]
        rfl
    · rw [← Except.ok.inj ok]
      rfl
    · cases ok
  · rcases bind_ok ok with ⟨number, numberOk, ok⟩
    rw [← Except.ok.inj ok, canonicalValue, canonicalValue_jsonNumber numberOk]
  · rcases bind_ok ok with ⟨text, _, ok⟩
    rw [← Except.ok.inj ok]
    rfl
  · exact parseRect_canonical ok
  · cases ok

/-- A canonical plan, with the count moved on by its size and within the budget. -/
def Counted (nodeCount after : Nat) (plan : LocatorPlan) : Prop :=
  canonicalPlan plan = plan ∧ after = nodeCount + size plan ∧ after ≤ defaultMaxNodes

/-- What a parser gives. -/
def Counts (parse : ExpressionParser) : Prop :=
  ∀ object nodeCount plan after, parse object nodeCount = .ok (plan, after) →
    canonicalPlan plan = plan ∧ after = nodeCount + size plan ∧ after ≤ defaultMaxNodes

section

variable {parsed : Except Error LocatorPlan}

theorem leaf_ok (ok : leaf parsed nodeCount = .ok (plan, after)) :
    parsed = .ok plan ∧ after = nodeCount := by
  rcases bind_ok ok with ⟨read, readOk, ok⟩
  rcases Prod.mk.inj (Except.ok.inj ok) with ⟨rfl, rfl⟩
  exact ⟨readOk, rfl⟩

variable (counts : Counts parse)

include counts

theorem parseUnary_counts {operation : LocatorPlan → LocatorPlan}
    (ok : parseUnary parse object operation (nodeCount + 1) = .ok (plan, after))
    (keeps : ∀ child, canonicalPlan (operation child) = operation (canonicalPlan child))
    (sized : ∀ child, size (operation child) = 1 + size child) : Counted nodeCount after plan := by
  rcases bind_ok ok with ⟨member, _, ok⟩
  rcases bind_ok ok with ⟨⟨child, last⟩, childOk, ok⟩
  rcases Prod.mk.inj (Except.ok.inj ok) with ⟨rfl, rfl⟩
  rcases counts member (nodeCount + 1) child last childOk with ⟨same, moved, within⟩
  refine ⟨?_, ?_, within⟩
  · rw [keeps, same]
  · change last = nodeCount + size (operation child)
    rw [sized, moved]
    omega

theorem parseChildren_counts {items : List Json} {plans : List LocatorPlan}
    (start : nodeCount ≤ defaultMaxNodes)
    (ok : parseChildren parse items nodeCount = .ok (plans, after)) :
    canonicalPlans plans = plans ∧ after = nodeCount + sizeAll plans ∧ after ≤ defaultMaxNodes := by
  induction items generalizing nodeCount plans with
  | nil =>
    rcases Prod.mk.inj (Except.ok.inj ok) with ⟨rfl, rfl⟩
    exact ⟨rfl, rfl, start⟩
  | cons item rest ih =>
    rcases bind_ok ok with ⟨⟨child, next⟩, childOk, ok⟩
    rcases bind_ok ok with ⟨⟨children, last⟩, childrenOk, ok⟩
    rcases Prod.mk.inj (Except.ok.inj ok) with ⟨rfl, rfl⟩
    rcases counts item nodeCount child next childOk with ⟨same, moved, within⟩
    rcases ih within childrenOk with ⟨restSame, restMoved, restWithin⟩
    refine ⟨?_, ?_, restWithin⟩
    · rw [canonicalPlans, same, restSame]
    · change last = nodeCount + (size child + sizeAll children)
      omega

theorem parseChildrenMember_counts {operation : List LocatorPlan → LocatorPlan}
    (keeps : ∀ children, canonicalPlan (operation children) = operation (canonicalPlans children))
    (sized : ∀ children, size (operation children) = 1 + sizeAll children)
    (start : nodeCount < defaultMaxNodes)
    (ok : parseChildrenMember parse object operation (nodeCount + 1) = .ok (plan, after)) :
    Counted nodeCount after plan := by
  rcases bind_ok ok with ⟨member, _, ok⟩
  split at ok
  · rcases bind_ok ok with ⟨⟨children, last⟩, childrenOk, ok⟩
    rcases Prod.mk.inj (Except.ok.inj ok) with ⟨rfl, rfl⟩
    rcases parseChildren_counts counts start childrenOk with ⟨same, moved, within⟩
    refine ⟨?_, ?_, within⟩
    · rw [keeps, same]
    · change last = nodeCount + size (operation children)
      rw [sized, moved]
      omega
  · cases ok

theorem parseRelation_counts {operation : RelationId → LocatorPlan → LocatorPlan}
    (ok : parseRelation parse object operation (nodeCount + 1) = .ok (plan, after))
    (keeps : ∀ relation child,
      canonicalPlan (operation relation child) = operation relation (canonicalPlan child))
    (sized : ∀ relation child, size (operation relation child) = 1 + size child) :
    Counted nodeCount after plan := by
  rcases bind_ok ok with ⟨_, _, ok⟩
  rcases bind_ok ok with ⟨relation, _, ok⟩
  exact parseUnary_counts counts ok (keeps ⟨relation⟩) (sized ⟨relation⟩)

omit counts

/-- A predicate without children is one node. -/
theorem leaf_counts (start : nodeCount < defaultMaxNodes)
    (single : ∀ plan, parsed = .ok plan → canonicalPlan plan = plan ∧ size plan = 1)
    (ok : leaf parsed (nodeCount + 1) = .ok (plan, after)) : Counted nodeCount after plan := by
  rcases leaf_ok ok with ⟨parsedOk, rfl⟩
  rcases single plan parsedOk with ⟨same, one⟩
  rw [Counted, one]
  exact ⟨same, rfl, start⟩

theorem parseNumberOperand_single {operation : UInt32 → LocatorPlan}
    (single : ∀ value, canonicalPlan (operation value) = operation value ∧
      size (operation value) = 1) (ok : parseNumberOperand object operation = .ok plan) :
    canonicalPlan plan = plan ∧ size plan = 1 := by
  rcases bind_ok ok with ⟨_, _, ok⟩
  rcases bind_ok ok with ⟨value, _, ok⟩
  rw [← Except.ok.inj ok]
  exact single value

theorem parseTextOperand_single {operation : String → LocatorPlan}
    (single : ∀ value, canonicalPlan (operation value) = operation value ∧
      size (operation value) = 1) (ok : parseTextOperand object operation = .ok plan) :
    canonicalPlan plan = plan ∧ size plan = 1 := by
  rcases bind_ok ok with ⟨_, _, ok⟩
  rcases bind_ok ok with ⟨value, _, ok⟩
  rw [← Except.ok.inj ok]
  exact single value

theorem parseProperty_single (ok : parseProperty object = .ok plan) :
    canonicalPlan plan = plan ∧ size plan = 1 := by
  rcases bind_ok ok with ⟨_, _, ok⟩
  rcases bind_ok ok with ⟨_, _, ok⟩
  rcases bind_ok ok with ⟨value, valueOk, ok⟩
  rw [← Except.ok.inj ok, canonicalPlan, parsePropertyValue_canonical valueOk]
  exact ⟨rfl, rfl⟩

theorem parseOperation_counts (counts : Counts parse) {operation : String}
    (start : nodeCount < defaultMaxNodes)
    (ok : parseOperation parse object operation (nodeCount + 1) = .ok (plan, after)) :
    Counted nodeCount after plan := by
  unfold parseOperation at ok
  split at ok
  · rcases Prod.mk.inj (Except.ok.inj ok) with ⟨rfl, rfl⟩
    exact ⟨rfl, rfl, start⟩
  · rcases Prod.mk.inj (Except.ok.inj ok) with ⟨rfl, rfl⟩
    exact ⟨rfl, rfl, start⟩
  · exact leaf_counts start (fun _ => parseNumberOperand_single fun _ => ⟨rfl, rfl⟩) ok
  · exact leaf_counts start (fun _ => parseNumberOperand_single fun _ => ⟨rfl, rfl⟩) ok
  · exact leaf_counts start (fun _ => parseProperty_single) ok
  · exact leaf_counts start (fun _ => parseTextOperand_single fun _ => ⟨rfl, rfl⟩) ok
  · exact leaf_counts start (fun _ => parseTextOperand_single fun _ => ⟨rfl, rfl⟩) ok
  · exact parseChildrenMember_counts counts (fun _ => rfl) (fun _ => rfl) start ok
  · exact parseChildrenMember_counts counts (fun _ => rfl) (fun _ => rfl) start ok
  · exact parseUnary_counts counts ok (fun _ => rfl) (fun _ => rfl)
  · exact parseUnary_counts counts ok (fun _ => rfl) (fun _ => rfl)
  · exact parseUnary_counts counts ok (fun _ => rfl) (fun _ => rfl)
  · exact parseUnary_counts counts ok (fun _ => rfl) (fun _ => rfl)
  · exact parseRelation_counts counts ok (fun _ _ => rfl) (fun _ _ => rfl)
  · exact parseRelation_counts counts ok (fun _ _ => rfl) (fun _ _ => rfl)
  · cases ok

end

theorem parseExpression_counts (levels : Nat) : Counts (parseExpression levels) := by
  induction levels with
    intro object nodeCount plan after ok
  | zero =>
    cases ok
  | succ levels ih =>
    rw [parseExpression] at ok
    split at ok
    · cases ok
    rename_i within
    rcases bind_ok ok with ⟨_, _, ok⟩
    rcases bind_ok ok with ⟨operation, _, ok⟩
    exact parseOperation_counts ih (Nat.not_le.mp within) ok

/-- Two parsers that agree from a count on. -/
def AgreeFrom (parse other : ExpressionParser) (start : Nat) : Prop :=
  ∀ object nodeCount, start ≤ nodeCount → parse object nodeCount = other object nodeCount

theorem parseChildren_agree (counts : Counts other) (agree : AgreeFrom parse other nodeCount)
    (items : List Json) :
    parseChildren parse items nodeCount = parseChildren other items nodeCount := by
  induction items generalizing nodeCount with
  | nil => rfl
  | cons item rest ih =>
    rw [parseChildren, parseChildren, agree item nodeCount (Nat.le_refl _)]
    cases parsed : other item nodeCount with
    | error error => rfl
    | ok result =>
      rcases result with ⟨child, next⟩
      have moved := (counts item nodeCount child next parsed).2.1
      have later : parseChildren parse rest next = parseChildren other rest next :=
        ih fun object count beyond => agree object count (by omega)
      change (parseChildren parse rest next >>= _) = (parseChildren other rest next >>= _)
      rw [later]

theorem parseOperation_agree (counts : Counts other) (agree : AgreeFrom parse other nodeCount)
    (object : Json) (operation : String) :
    parseOperation parse object operation nodeCount =
      parseOperation other object operation nodeCount := by
  have unary : ∀ build, parseUnary parse object build nodeCount =
      parseUnary other object build nodeCount := by
    intro build
    simp only [parseUnary, agree _ nodeCount (Nat.le_refl _)]
  have group : ∀ build, parseChildrenMember parse object build nodeCount =
      parseChildrenMember other object build nodeCount := by
    intro build
    simp only [parseChildrenMember, parseChildren_agree counts agree]
  have relation : ∀ build, parseRelation parse object build nodeCount =
      parseRelation other object build nodeCount := by
    intro build
    simp only [parseRelation, parseUnary, agree _ nodeCount (Nat.le_refl _)]
  unfold parseOperation
  split <;> first | rfl | exact unary _ | exact group _ | exact relation _

/-- More levels than the rest of the budget change nothing. -/
theorem parseExpression_levels (covered : defaultMaxNodes ≤ nodeCount + levels) (object : Json) :
    parseExpression (levels + 1) object nodeCount = parseExpression levels object nodeCount := by
  induction levels generalizing nodeCount object with
  | zero =>
    unfold parseExpression
    exact if_pos covered
  | succ levels ih =>
    rw [parseExpression]
    conv => rhs; rw [parseExpression]
    have agree : AgreeFrom (parseExpression (levels + 1)) (parseExpression levels)
        (nodeCount + 1) := by
      intro member count beyond
      exact ih (by omega) member
    simp only [parseOperation_agree (parseExpression_counts levels) agree]

theorem fromJson_ok {locator : Locator} (ok : fromJson object = .ok locator) :
    locator.canonical = locator ∧ size locator.plan ≤ defaultMaxNodes := by
  unfold fromJson at ok
  split at ok
  · split at ok
    · rcases bind_ok ok with ⟨version, _, ok⟩
      split at ok
      · cases ok
      rcases bind_ok ok with ⟨boundary, _, ok⟩
      rcases bind_ok ok with ⟨consistency, _, ok⟩
      rcases bind_ok ok with ⟨⟨plan, after⟩, planOk, ok⟩
      rcases parseExpression_counts _ _ _ _ _ planOk with ⟨same, moved, within⟩
      rw [← Except.ok.inj ok]
      constructor
      · change ({ plan := canonicalPlan plan, boundary, consistency } : Locator) = _
        rw [same]
      · change size plan ≤ defaultMaxNodes
        omega
    · cases ok
  · cases ok

/-! ## Round trips -/

/-- The text of a locator within the budget is read back as an equal locator, and every
locator that is read is within the budget and survives being written and read. -/
theorem locator_text_round_trip (library : JsonLibrary) :
    (∀ locator : Locator, locator.plan.nodeCount ≤ defaultMaxNodes →
      library.Lossless locator.toJson →
      fromString library (locator.toString library) = .ok locator.canonical ∧
        equal library locator.canonical locator = true) ∧
    (∀ serialized locator, fromString library serialized = .ok locator →
      locator.plan.nodeCount ≤ defaultMaxNodes ∧
        (library.Lossless locator.toJson →
          fromString library (locator.toString library) = .ok locator)) := by
  have readBack : ∀ locator : Locator, size locator.plan ≤ defaultMaxNodes →
      library.Lossless locator.toJson →
      fromString library (locator.toString library) = .ok locator.canonical := by
    intro locator budget lossless
    rw [fromString, toString, lossless]
    exact fromJson_toJson locator budget
  constructor
  · intro locator budget lossless
    refine ⟨readBack locator ((size_le_iff _).mp budget) lossless, ?_⟩
    rw [equal, toString, toString, toJson_canonical, beq_self_eq_true]
  intro serialized locator ok
  have accepted : locator.canonical = locator ∧ size locator.plan ≤ defaultMaxNodes := by
    unfold fromString at ok
    split at ok
    · exact fromJson_ok ok
    · cases ok
    · cases ok
  refine ⟨(size_le_iff _).mpr accepted.2, ?_⟩
  intro lossless
  rw [readBack locator accepted.2 lossless, accepted.1]

/-- The text of the locator for controls. -/
def controlText : String :=
  "\x7b\"boundary\":\"same_tree\",\"consistency\":\"live\",\"expr\":\x7b\"op\":\"role\"," ++
    "\"value\":10\x7d,\"version\":1\x7d"

/-- A library that knows that text only. -/
def controlLibrary : JsonLibrary where
  dump _ := controlText
  parse serialized :=
    if serialized = controlText then .ok (Sel.role ⟨10⟩).toJson.reparse
    else .error (.syntaxError 1)

theorem locator_text_round_trip_control :
    fromString controlLibrary ((Sel.role ⟨10⟩).toString controlLibrary) =
        .ok (Sel.role ⟨10⟩).canonical ∧
      (Sel.role ⟨10⟩).plan.nodeCount ≤ defaultMaxNodes := by
  have lossless : controlLibrary.Lossless (Sel.role ⟨10⟩).toJson := by
    simp [JsonLibrary.Lossless, controlLibrary]
  have written := ((locator_text_round_trip controlLibrary).1 (Sel.role ⟨10⟩) (by decide)
    lossless).1
  exact ⟨written, ((locator_text_round_trip controlLibrary).2 _ _ written).1⟩

end Grab.Locator
