import Grab.Query.Plan
import Grab.Lib.Json

/-!
# The text of a locator

A locator is written as a JSON document and read back from one.  The parser counts
the nodes it reads and stops at the default complexity budget; a level of nesting
takes a node of the budget, so the budget bounds the nesting too.
-/

namespace Grab.Locator

open Grab.Lib

def locatorVersion : UInt64 := 1

/-- `LocatorLimits::default_max_nodes`. -/
def defaultMaxNodes : Nat := 8192

/-! ## Writing -/

def boundaryName : BoundaryPolicy → String
  | .sameTree => "same_tree"
  | .sameProcess => "same_process"
  | .crossEmbeds => "cross_embeds"

def consistencyName : ConsistencyMode → String
  | .live => "live"
  | .revisioned => "revisioned"
  | .pinned => "pinned"

def zero : Double := Binary.round binary64 false 0 0

/-- Both zeros are written as the positive one. -/
def plainZero (value : Double) : Double := if value.numericEq zero then zero else value

def encodedNumber (value : Double) : Json :=
  if value.numericEq zero then .float zero
  else
    match value with
    | .finite .. => .float value
    | .nan => .string "nan"
    | .infinity negative => .string (if negative then "-infinity" else "+infinity")

def propertyValueMembers : PropertyValue → List (String × Json)
  | .none => [("type", .string "null"), ("value", .null)]
  | .bool value => [("type", .string "bool"), ("value", .bool value)]
  | .int value => [("type", .string "integer"), ("value", .int value)]
  | .double value => [("type", .string "number"), ("value", encodedNumber value)]
  | .string value => [("type", .string "text"), ("value", .string value)]
  | .rect value =>
    [("type", .string "rect"),
      ("value", .object
        [("x", encodedNumber value.x), ("y", encodedNumber value.y),
          ("w", encodedNumber value.w), ("h", encodedNumber value.h),
          ("space", .uint value.space.value.toUInt64)])]

mutual

def expressionJson : LocatorPlan → Json
  | .matchAll => .object [("op", .string "match_all")]
  | .matchNone => .object [("op", .string "match_none")]
  | .role role => .object [("op", .string "role"), ("value", .uint role.value.toUInt64)]
  | .state mask => .object [("op", .string "state"), ("value", .uint mask.toUInt64)]
  | .property property value =>
    .object ([("op", .string "property"), ("property", .uint property.value.toUInt64)] ++
      propertyValueMembers value)
  | .accessibleName text =>
    .object [("op", .string "accessible_name"), ("value", .string text)]
  | .text text => .object [("op", .string "text"), ("value", .string text)]
  | .all children =>
    .object [("op", .string "all"), ("children", .array (expressionsJson children))]
  | .any children =>
    .object [("op", .string "any"), ("children", .array (expressionsJson children))]
  | .not child => .object [("op", .string "not"), ("child", expressionJson child)]
  | .childOf child => .object [("op", .string "child_of"), ("child", expressionJson child)]
  | .descendantOf child =>
    .object [("op", .string "descendant_of"), ("child", expressionJson child)]
  | .ancestorOf child =>
    .object [("op", .string "ancestor_of"), ("child", expressionJson child)]
  | .related relation child =>
    .object [("op", .string "related"), ("relation", .uint relation.value.toUInt64),
      ("child", expressionJson child)]
  | .relatedReverse relation child =>
    .object [("op", .string "related_reverse"), ("relation", .uint relation.value.toUInt64),
      ("child", expressionJson child)]

def expressionsJson : List LocatorPlan → List Json
  | [] => []
  | child :: rest => expressionJson child :: expressionsJson rest

end

/-- The document of a locator. -/
def toJson (locator : Locator) : Json :=
  .object
    [("boundary", .string (boundaryName locator.boundary)),
      ("consistency", .string (consistencyName locator.consistency)),
      ("expr", expressionJson locator.plan), ("version", .uint locatorVersion)]

def toString (library : JsonLibrary) (locator : Locator) : String := library.dump locator.toJson

/-- Locators are equal when their texts are (locators that share one plan have one text). -/
def equal (library : JsonLibrary) (left right : Locator) : Bool :=
  left.toString library == right.toString library

/-! ## Reading -/

def invalidLocator (message : String) : Error := ⟨.invalidArgument, message⟩

/-- The characters of a text with the bytes they start at. -/
def bytePositions : Nat → List Char → List (Nat × Char)
  | _, [] => []
  | position, char :: rest => (position, char) :: bytePositions (position + char.utf8Size) rest

/-- The line of a byte and a caret below the byte. -/
def syntaxErrorMessage (serialized : String) (byte : Nat) : String :=
  let chars := bytePositions 0 serialized.toList
  let offset := if byte = 0 then 0 else min (byte - 1) serialized.utf8ByteSize
  let newlines := chars.filter fun entry => entry.2 = '\n'
  let lineStart := match (newlines.filter fun entry => entry.1 < offset).getLast? with
    | some newline => newline.1 + 1
    | none => 0
  let lineEnd := match newlines.find? fun entry => offset ≤ entry.1 with
    | some newline => newline.1
    | none => serialized.utf8ByteSize
  let line := (chars.filter fun entry => lineStart ≤ entry.1 ∧ entry.1 < lineEnd).map (·.2)
  "invalid locator JSON syntax at byte " ++ Nat.repr byte ++ "\n" ++ String.ofList line ++
    "\n" ++ String.ofList (List.replicate (offset - lineStart) ' ') ++ "^"

def requiredMember (object : Json) (name path : String) : Except Error Json :=
  match object with
  | .object members =>
    match Json.lookup name members with
    | some value => .ok value
    | none => .error (invalidLocator (path ++ " is missing '" ++ name ++ "'"))
  | _ => .error (invalidLocator (path ++ " must be an object"))

def fitUnsigned32 (number : UInt64) (path : String) : Except Error UInt32 :=
  if 4294967295 < number then .error (invalidLocator (path ++ " is out of range"))
  else .ok number.toUInt32

def unsigned32 (value : Json) (path : String) : Except Error UInt32 :=
  match value with
  | .uint number => fitUnsigned32 number path
  | .int number =>
    if number < 0 then .error (invalidLocator (path ++ " must be an unsigned integer"))
    else fitUnsigned32 number.toUInt64 path
  | _ => .error (invalidLocator (path ++ " must be an unsigned integer"))

def jsonString (value : Json) (path : String) : Except Error String :=
  match value with
  | .string text => .ok text
  | _ => .error (invalidLocator (path ++ " must be a string"))

def finiteNumber (number : Double) (path : String) : Except Error Double :=
  if number.isFinite then .ok (plainZero number)
  else .error (invalidLocator (path ++ " numeric value is out of range"))

def jsonNumber (value : Json) (path : String) : Except Error Double :=
  match value with
  | .float number => finiteNumber number path
  | .int number => finiteNumber (Binary.ofInt binary64 number.toInt) path
  | .uint number => finiteNumber (Binary.ofInt binary64 number.toNat) path
  | .string "nan" => .ok .nan
  | .string "+infinity" => .ok (.infinity false)
  | .string "-infinity" => .ok (.infinity true)
  | _ => .error (invalidLocator (path ++ " must be a number"))

def parseBoundary (value : Json) : Except Error BoundaryPolicy := do
  match ← jsonString value "$.boundary" with
  | "same_tree" => .ok .sameTree
  | "same_process" => .ok .sameProcess
  | "cross_embeds" => .ok .crossEmbeds
  | _ => .error (invalidLocator "$.boundary has an unknown value")

def parseConsistency (value : Json) : Except Error ConsistencyMode := do
  match ← jsonString value "$.consistency" with
  | "live" => .ok .live
  | "revisioned" => .ok .revisioned
  | "pinned" => .ok .pinned
  | _ => .error (invalidLocator "$.consistency has an unknown value")

def parseInteger (value : Json) (path : String) : Except Error PropertyValue :=
  match value with
  | .uint number =>
    if 9223372036854775807 < number then
      .error (invalidLocator (path ++ ".value is out of range"))
    else .ok (.int number.toInt64)
  | .int number => .ok (.int number)
  | _ => .error (invalidLocator (path ++ ".value must be an integer"))

def parseRectNumbers (x y w h : Json) (path : String) :
    Except Error (Double × Double × Double × Double) :=
  match jsonNumber x (path ++ ".value.x"), jsonNumber y (path ++ ".value.y"),
    jsonNumber w (path ++ ".value.w"), jsonNumber h (path ++ ".value.h") with
  | .ok xValue, .ok yValue, .ok wValue, .ok hValue => .ok (xValue, yValue, wValue, hValue)
  | _, _, _, _ => .error (invalidLocator (path ++ ".value rectangle fields must be numbers"))

/-- The rectangle of an object; which field is missing is not told. -/
def parseRect (value : Json) (path : String) : Except Error PropertyValue :=
  match requiredMember value "x" path, requiredMember value "y" path,
    requiredMember value "w" path, requiredMember value "h" path,
    requiredMember value "space" path with
  | .ok x, .ok y, .ok w, .ok h, .ok space => do
      let numbers ← parseRectNumbers x y w h path
      let spaceId ← unsigned32 space (path ++ ".value.space")
      return .rect
        { x := numbers.1, y := numbers.2.1, w := numbers.2.2.1, h := numbers.2.2.2,
          space := ⟨spaceId⟩ }
  | _, _, _, _, _ => .error (invalidLocator (path ++ ".value is missing a rectangle field"))

def parsePropertyValue (object : Json) (path : String) : Except Error PropertyValue := do
  let typeMember ← requiredMember object "type" path
  let value ← requiredMember object "value" path
  let type ← jsonString typeMember (path ++ ".type")
  match type, value with
  | "null", .null => .ok .none
  | "null", _ => .error (invalidLocator (path ++ ".value must be null"))
  | "bool", .bool boolean => .ok (.bool boolean)
  | "bool", _ => .error (invalidLocator (path ++ ".value must be a boolean"))
  | "integer", _ => parseInteger value path
  | "number", _ => do
      let number ← jsonNumber value (path ++ ".value")
      return .double number
  | "text", _ => do
      let text ← jsonString value (path ++ ".value")
      return .string text
  | "rect", .object _ => parseRect value path
  | _, _ => .error (invalidLocator (path ++ " has an unknown property type"))

/-- Reads an expression from the count of the nodes read so far. -/
abbrev ExpressionParser := Json → Nat → Except Error (LocatorPlan × Nat)

def parseUnary (parse : ExpressionParser) (object : Json)
    (operation : LocatorPlan → LocatorPlan) (nodeCount : Nat) :
    Except Error (LocatorPlan × Nat) := do
  let childMember ← requiredMember object "child" "$.expr"
  let child ← parse childMember nodeCount
  return (operation child.1, child.2)

def parseRelation (parse : ExpressionParser) (object : Json)
    (operation : RelationId → LocatorPlan → LocatorPlan) (nodeCount : Nat) :
    Except Error (LocatorPlan × Nat) := do
  let relationMember ← requiredMember object "relation" "$.expr"
  let relation ← unsigned32 relationMember "$.expr.relation"
  parseUnary parse object (operation ⟨relation⟩) nodeCount

/-- The children in turn, each from the count the one before it left. -/
def parseChildren (parse : ExpressionParser) :
    List Json → Nat → Except Error (List LocatorPlan × Nat)
  | [], nodeCount => .ok ([], nodeCount)
  | childObject :: rest, nodeCount => do
      let child ← parse childObject nodeCount
      let children ← parseChildren parse rest child.2
      return (child.1 :: children.1, children.2)

def parseChildrenMember (parse : ExpressionParser) (object : Json)
    (operation : List LocatorPlan → LocatorPlan) (nodeCount : Nat) :
    Except Error (LocatorPlan × Nat) := do
  match ← requiredMember object "children" "$.expr" with
  | .array items =>
    let children ← parseChildren parse items nodeCount
    return (operation children.1, children.2)
  | _ => .error (invalidLocator "$.expr.children must be an array")

def parseNumberOperand (object : Json) (operation : UInt32 → LocatorPlan) :
    Except Error LocatorPlan := do
  let valueMember ← requiredMember object "value" "$.expr"
  let value ← unsigned32 valueMember "$.expr.value"
  return operation value

def parseTextOperand (object : Json) (operation : String → LocatorPlan) :
    Except Error LocatorPlan := do
  let valueMember ← requiredMember object "value" "$.expr"
  let value ← jsonString valueMember "$.expr.value"
  return operation value

def parseProperty (object : Json) : Except Error LocatorPlan := do
  let propertyMember ← requiredMember object "property" "$.expr"
  let propertyId ← unsigned32 propertyMember "$.expr.property"
  let value ← parsePropertyValue object "$.expr"
  return .property ⟨propertyId⟩ value

/-- A predicate without children leaves the count as it is. -/
def leaf (parsed : Except Error LocatorPlan) (nodeCount : Nat) :
    Except Error (LocatorPlan × Nat) := do
  let plan ← parsed
  return (plan, nodeCount)

/-- The operators, by name, after their node has been counted. -/
def parseOperation (parse : ExpressionParser) (object : Json) (operation : String)
    (nodeCount : Nat) : Except Error (LocatorPlan × Nat) :=
  match operation with
  | "match_all" => .ok (.matchAll, nodeCount)
  | "match_none" => .ok (.matchNone, nodeCount)
  | "role" => leaf (parseNumberOperand object fun value => .role ⟨value⟩) nodeCount
  | "state" => leaf (parseNumberOperand object .state) nodeCount
  | "property" => leaf (parseProperty object) nodeCount
  | "accessible_name" => leaf (parseTextOperand object .accessibleName) nodeCount
  | "text" => leaf (parseTextOperand object .text) nodeCount
  | "all" => parseChildrenMember parse object .all nodeCount
  | "any" => parseChildrenMember parse object .any nodeCount
  | "not" => parseUnary parse object .not nodeCount
  | "child_of" => parseUnary parse object .childOf nodeCount
  | "descendant_of" => parseUnary parse object .descendantOf nodeCount
  | "ancestor_of" => parseUnary parse object .ancestorOf nodeCount
  | "related" => parseRelation parse object .related nodeCount
  | "related_reverse" => parseRelation parse object .relatedReverse nodeCount
  | _ => .error (invalidLocator "$.expr.op has an unknown value")

/-- The recursion is on the levels that are left; each level has counted a node, so
they run out only where the budget has. -/
def parseExpression : Nat → ExpressionParser
  | 0, _, _ => .error (invalidLocator "locator exceeds the default complexity budget")
  | levels + 1, object, nodeCount =>
    if defaultMaxNodes ≤ nodeCount then
      .error (invalidLocator "locator exceeds the default complexity budget")
    else do
      let opMember ← requiredMember object "op" "$.expr"
      let operation ← jsonString opMember "$.expr.op"
      parseOperation (parseExpression levels) object operation (nodeCount + 1)

/-- The locator of a document. -/
def fromJson (object : Json) : Except Error Locator :=
  match object with
  | .object _ =>
    match requiredMember object "version" "$", requiredMember object "boundary" "$",
      requiredMember object "consistency" "$", requiredMember object "expr" "$" with
    | .ok versionMember, .ok boundaryMember, .ok consistencyMember, .ok expressionMember => do
        let version ← unsigned32 versionMember "$.version"
        if version.toUInt64 ≠ locatorVersion then
          .error (invalidLocator "unsupported locator serialization version")
        let boundary ← parseBoundary boundaryMember
        let consistency ← parseConsistency consistencyMember
        let plan ← parseExpression defaultMaxNodes expressionMember 0
        return { plan := plan.1, boundary := boundary, consistency := consistency }
    | _, _, _, _ => .error (invalidLocator "locator JSON is missing a required field")
  | _ => .error (invalidLocator "locator JSON root must be an object")

def fromString (library : JsonLibrary) (serialized : String) : Except Error Locator :=
  match library.parse serialized with
  | .ok object => fromJson object
  | .error (.syntaxError byte) => .error (invalidLocator (syntaxErrorMessage serialized byte))
  | .error (.badValue what) =>
    .error (invalidLocator ("invalid locator JSON value: " ++ what))

end Grab.Locator
