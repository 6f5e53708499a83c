import Grab.Lib.Attempts
import Grab.Lib.Json
import Grab.Sequence.SessionSeat
import Grab.Sequence.WellFormed

/-!
# Loading a document

`parse_document` of `kernel/sequence/interpreter.cpp`, with the text reader of the JSON library and
the reader of an overlay shape as parameters.  Everything that the builder can refuse is refused
before, with a pointer into the document, but for a cycle.
-/

namespace Grab.Kernel.Sequence

open Grab.Sequence Grab.Geometry Grab.Lib
open Std (ExtTreeMap)

/-- What a document is read with. -/
structure Readers where
  /-- The value of a text, or the message of the exception. -/
  parse : String → Except String Json
  shape : Scope → String → Json → Except Error Overlay.Shape

abbrev Members := List (String × Json)

abbrev LabelMap := ExtTreeMap String Nat compare

/-! ## Limits -/

def supportedSchemaVersion : Int := 1

def maximumDurationMs : Int := 86400000

def maximumDurationNs : Int := 86400000000000

def coordinateMinimum : Int := -2 ^ 31

def coordinateMaximum : Int := 2 ^ 31 - 1

def minimumButtonCode : Int := 1

def maximumButtonCode : Int := 255

/-! ## Pointers -/

def elementPointer (base : String) (index : Nat) : String := childPointer base (toString index)

def stepPointer (index : Nat) : String := elementPointer (childPointer "" "steps") index

def stepSubject (label : String) (index : Nat) : String :=
  if label = "" then "step at index " ++ toString index else "step '" ++ label ++ "'"

/-! ## Fields -/

def requireString (scope : Scope) (node : Members) (field : String) : Except Error String :=
  match Json.lookup field node with
  | none => reject scope (childPointer scope.pointer field) "missing required field"
  | some (.string text) => .ok text
  | some _ => reject scope (childPointer scope.pointer field) "must be a string"

def integerOf : Json → Option Int
  | .int value => some value.toInt
  | .uint value => some value.toNat
  | _ => none

/-- An integer between two bounds.  Both are signed words, so an unsigned value above the signed
range is out of every range. -/
def boundedInteger (scope : Scope) (pointer : String) (value : Json) (low high : Int) :
    Except Error Int :=
  match integerOf value with
  | none => reject scope pointer "must be an integer"
  | some raw =>
    if raw < low ∨ high < raw then
      reject scope pointer
        ("must be an integer between " ++ toString low ++ " and " ++ toString high)
    else .ok raw

def optionalInteger (scope : Scope) (node : Members) (field : String) (fallback low high : Int) :
    Except Error Int :=
  match Json.lookup field node with
  | none => .ok fallback
  | some value => boundedInteger scope (childPointer scope.pointer field) value low high

def readPoint (scope : Scope) (pointer : String) : Json → Except Error Point
  | .array [first, second] => do
      let x ← boundedInteger scope (elementPointer pointer 0) first coordinateMinimum
        coordinateMaximum
      let y ← boundedInteger scope (elementPointer pointer 1) second coordinateMinimum
        coordinateMaximum
      return ⟨x, y⟩
  | _ => reject scope pointer "must be a two-element [x, y] array"

def requirePoint (scope : Scope) (node : Members) (field : String) : Except Error Point :=
  match Json.lookup field node with
  | none => reject scope (childPointer scope.pointer field) "missing required field"
  | some value => readPoint scope (childPointer scope.pointer field) value

def optionalPoint (scope : Scope) (node : Members) (field : String) : Except Error (Option Point) :=
  match Json.lookup field node with
  | none => .ok none
  | some value => do
      let point ← readPoint scope (childPointer scope.pointer field) value
      return some point

open Input in
def buttonNames : List (String × UInt8) :=
  [("left", buttonCode .primary), ("primary", buttonCode .primary),
    ("middle", buttonCode .middle), ("right", buttonCode .secondary),
    ("secondary", buttonCode .secondary), ("wheel_up", buttonCode .wheelUp),
    ("wheel_down", buttonCode .wheelDown), ("wheel_left", buttonCode .wheelLeft),
    ("wheel_right", buttonCode .wheelRight)]

def requireButton (scope : Scope) (node : Members) : Except Error UInt8 :=
  let pointer := childPointer scope.pointer "button"
  match Json.lookup "button" node with
  | none => .ok Input.primaryButton
  | some (.string text) =>
    match buttonNames.find? fun entry => entry.1 == text with
    | none =>
      reject scope pointer ("unknown button '" ++ text ++ "'; expected left, middle, right, " ++
        "a wheel direction, or a code in 1..255")
    | some entry => .ok entry.2
  | some value => do
      let code ← boundedInteger scope pointer value minimumButtonCode maximumButtonCode
      return code.toNat.toUInt8

def pathKind (scope : Scope) (options : Members) : Except Error Input.PathKind :=
  match Json.lookup "path" options with
  | none => .ok .linear
  | some _ => do
      let text ← requireString scope options "path"
      if text = "linear" then return .linear
      else if text = "cubic" then return .cubic
      else
        reject scope (childPointer scope.pointer "path")
          ("unknown path '" ++ text ++ "'; expected linear or cubic")

def requireOptions (scope : Scope) (node : Members) : Except Error Input.DragOptions :=
  let pointer := childPointer scope.pointer "options"
  match Json.lookup "options" node with
  | none => .ok {}
  | some (.object options) => do
      let inner := { scope with pointer := pointer }
      let steps ← optionalInteger inner options "steps" 16 Input.minimumInterpolationSteps
        Input.maximumInterpolationSteps
      let dwell ← optionalInteger inner options "step_dwell_ms" 8 0 maximumDurationMs
      let path ← pathKind inner options
      return ⟨steps, dwell, path⟩
  | some _ => reject scope pointer "must be an object"

/-- A component of a control point. -/
def numberOf : Json → Option Double
  | .float value => some value
  | value => (integerOf value).map (Binary.ofInt binary64)

def controlComponent (scope : Scope) (pointer : String) (axis : Nat) (value : Json) :
    Except Error Double :=
  match numberOf value with
  | none => reject scope (elementPointer pointer axis) "must be a number"
  | some number => .ok number

def readControls (scope : Scope) (pointer : String) : Nat → List Json → Except Error (List PointF)
  | _, [] => .ok []
  | index, .array [first, second] :: rest => do
      let x ← controlComponent scope (elementPointer pointer index) 0 first
      let y ← controlComponent scope (elementPointer pointer index) 1 second
      let later ← readControls scope pointer (index + 1) rest
      return ⟨x, y⟩ :: later
  | index, _ :: _ =>
    reject scope (elementPointer pointer index) "must be a two-element [x, y] array"

def requireCurve (scope : Scope) (node : Members) : Except Error Curve :=
  let pointer := childPointer scope.pointer "curve"
  let short : Except Error Curve :=
    reject scope pointer "must be an array of at least two [x, y] control points"
  match Json.lookup "curve" node with
  | none => reject scope pointer "missing required field"
  | some (.array controls) =>
    if controls.length < 2 then short
    else do
      let points ← readControls scope pointer 0 controls
      return ⟨points⟩
  | some _ => short

def requireShape (readers : Readers) (scope : Scope) (node : Members) :
    Except Error Overlay.Shape :=
  let pointer := childPointer scope.pointer "shape"
  match Json.lookup "shape" node with
  | none => reject scope pointer "missing required field"
  | some value => readers.shape scope pointer value

def requireHandle (scope : Scope) (node : Members) : Except Error String := do
  let text ← requireString scope node "handle"
  if text = "" then reject scope (childPointer scope.pointer "handle") "must not be empty"
  else return text

def optionalHandle (scope : Scope) (node : Members) : Except Error String :=
  match Json.lookup "handle" node with
  | none => .ok ""
  | some _ => requireHandle scope node

/-! ## Payloads -/

def parseCapture (scope : Scope) (node : Members) : Except Error Command :=
  if (Json.lookup "out" node).isSome = (Json.lookup "locator" node).isSome then
    reject scope scope.pointer "screen.capture needs exactly one of 'out' and 'locator'"
  else if (Json.lookup "out" node).isSome then do
    let output ← requireString scope node "out"
    return .capture output ""
  else do
    let locator ← requireString scope node "locator"
    return .capture "" locator

def parseWait (scope : Scope) (node : Members) : Except Error Command :=
  match Json.lookup "ms" node, Json.lookup "ns" node with
  | some value, none => do
      let span ← boundedInteger scope (childPointer scope.pointer "ms") value 0 maximumDurationMs
      return .wait (nanosecondsOf span)
  | none, some value => do
      let span ← boundedInteger scope (childPointer scope.pointer "ns") value 0 maximumDurationNs
      return .wait span
  | _, _ => reject scope scope.pointer "time.wait needs exactly one of 'ms' and 'ns'"

/-- The kinds that have a payload. -/
def isSequenceCommand : CommandKind → Bool
  | .type | .key | .keyDown | .keyUp | .click | .clickAt | .press | .release | .scroll | .warp
  | .move | .follow | .drag | .capture | .wait | .overlayAdd | .overlayUpdate | .overlayRemove
  | .overlayClear | .overlayGrab | .overlayRelease | .overlayAttach | .overlayDetach => true
  | _ => false

def parsePayload (readers : Readers) (scope : Scope) (node : Members) :
    CommandKind → Except Error Command
  | .type => do return .type (← requireString scope node "text")
  | .key => do return .key (← requireString scope node "key")
  | .keyDown => do return .keyDown (← requireString scope node "key")
  | .keyUp => do return .keyUp (← requireString scope node "key")
  | .click => do return .click (← requireButton scope node)
  | .clickAt => do
      let target ← requirePoint scope node "at"
      return .clickAt target (← requireButton scope node)
  | .press => do return .press (← requireButton scope node)
  | .release => do return .release (← requireButton scope node)
  | .scroll => do
      let dx ← optionalInteger scope node "dx" 0 coordinateMinimum coordinateMaximum
      return .scroll dx (← optionalInteger scope node "dy" 0 coordinateMinimum coordinateMaximum)
  | .warp => do return .warp (← requirePoint scope node "to")
  | .move => do
      let start ← optionalPoint scope node "from"
      let target ← requirePoint scope node "to"
      return .move start target (← requireOptions scope node)
  | .follow => do
      let curve ← requireCurve scope node
      return .follow curve (← requireOptions scope node)
  | .drag => do
      let start ← requirePoint scope node "from"
      let target ← requirePoint scope node "to"
      let button ← requireButton scope node
      return .drag start target button (← requireOptions scope node)
  | .capture => parseCapture scope node
  | .wait => parseWait scope node
  | .overlayAdd => do
      let handle ← optionalHandle scope node
      return .overlayAdd handle (← requireShape readers scope node)
  | .overlayUpdate => do
      let handle ← requireHandle scope node
      return .overlayUpdate handle (← requireShape readers scope node)
  | .overlayRemove => do return .overlayRemove (← requireHandle scope node)
  | .overlayClear => .ok .overlayClear
  | .overlayGrab => .ok .overlayGrab
  | .overlayRelease => .ok .overlayRelease
  | .overlayAttach => do
      let handle ← requireHandle scope node
      return .overlayAttach handle (← optionalPoint scope node "offset")
  | .overlayDetach => do return .overlayDetach (← requireHandle scope node)
  | _ => .error ⟨.internalFault, "no sequence payload parser for this command kind"⟩

/-! ## Dependencies and error policy -/

def afterTarget (scope : Scope) (pointer : String) (labels : LabelMap) (stepCount : Nat) :
    Json → Except Error Nat
  | .string label =>
    match labels[label]? with
    | none =>
      reject scope pointer ("depends on '" ++ label ++ "', but no step carries that label")
    | some target => .ok target
  | entry =>
    if (integerOf entry).isNone then
      reject scope pointer "each 'after' entry must be a step label or a document index"
    else
      match boundedInteger scope pointer entry 0 (stepCount - 1) with
      | .error _ =>
        reject scope pointer ("depends on a step index outside the document, which holds " ++
          toString stepCount ++ " steps")
      | .ok position => .ok position.toNat

def parseEntries (scope : Scope) (pointer : String) (index : Nat) (labels : LabelMap)
    (stepCount : Nat) : Nat → List Json → List StepId → Except Error (List StepId)
  | _, [], after => .ok after
  | slot, entry :: rest, after => do
      let target ← afterTarget scope (elementPointer pointer slot) labels stepCount entry
      if target = index then
        reject scope (elementPointer pointer slot) "depends on itself"
      else if StepId.ofIndex target ∈ after then
        reject scope (elementPointer pointer slot)
          ("lists step index " ++ toString target ++ " as a dependency twice")
      else
        parseEntries scope pointer index labels stepCount (slot + 1) rest
          (after ++ [StepId.ofIndex target])

def parseAfter (scope : Scope) (node : Members) (index : Nat) (labels : LabelMap)
    (stepCount : Nat) : Except Error (List StepId) :=
  match Json.lookup "after" node with
  | none => .ok (if 0 < index then [StepId.ofIndex (index - 1)] else [])
  | some (.array entries) =>
    parseEntries scope (childPointer scope.pointer "after") index labels stepCount 0 entries []
  | some _ => reject scope (childPointer scope.pointer "after") "'after' must be an array"

def parseErrorPolicy (scope : Scope) (node : Members) (labels : LabelMap) :
    Except Error (ErrorPolicy × String) :=
  let pointer := childPointer scope.pointer "on_error"
  match Json.lookup "on_error" node with
  | none => .ok (.abort, "")
  | some _ => do
      let text ← requireString scope node "on_error"
      if "goto:".toList.isPrefixOf text.toList then
        let target := String.ofList (text.toList.drop 5)
        if target = "" then reject scope pointer "'goto:' needs a target step label"
        else if labels.contains target then return (.goto, target)
        else
          reject scope pointer ("jumps to '" ++ target ++ "', but no step carries that label")
      else if text = "abort" then return (.abort, "")
      else if text = "continue" then return (.continue, "")
      else
        reject scope pointer ("unknown error policy '" ++ text ++
          "'; expected abort, continue or goto:<label>")

def pacingMode (scope : Scope) (node : Members) : Except Error PacingMode :=
  match Json.lookup "mode" node with
  | none => .ok .strict
  | some _ => do
      let text ← requireString scope node "mode"
      if text = "strict" then return .strict
      else if text = "grace" then return .grace
      else if text = "precise" then return .precise
      else
        reject scope (childPointer scope.pointer "mode")
          ("unknown pacing mode '" ++ text ++ "'; expected strict, grace or precise")

def parsePacing (scope : Scope) (document : Members) : Except Error PacingOptions :=
  match Json.lookup "pacing" document with
  | none => .ok {}
  | some (.object node) => do
      let inner := { scope with pointer := childPointer scope.pointer "pacing" }
      let mode ← pacingMode inner node
      let grace ← optionalInteger inner node "grace_ms" 0 0 maximumDurationMs
      return ⟨mode, grace⟩
  | some _ => reject scope (childPointer scope.pointer "pacing") "must be an object"

/-! ## The document -/

/-- The label of one step, checked against the labels before it. -/
def parseLabel (scope : Scope) (index : Nat) (labels : LabelMap) : Json → Except Error String
  | .object node =>
    let pointer := childPointer (stepPointer index) "id"
    match Json.lookup "id" node with
    | none => .ok ""
    | some (.string label) =>
      if label = "" then reject scope pointer "must not be empty"
      else if labels.contains label then
        reject scope pointer ("duplicate step label '" ++ label ++ "'")
      else .ok label
    | some _ => reject scope pointer "must be a string"
  | _ => reject scope (stepPointer index) "must be an object"

/-- The first pass: the label of every step, and the index of every label. -/
def collectLabels (scope : Scope) : Nat → List Json → LabelMap →
    Except Error (List String × LabelMap)
  | _, [], labels => .ok ([], labels)
  | index, node :: rest, labels => do
      let label ← parseLabel scope index labels node
      let (later, all) ← collectLabels scope (index + 1) rest
        (if label = "" then labels else labels.insert label index)
      return (label :: later, all)

/-- One turn of the second pass: the step, and the handles that are live after it. -/
def parseStep (readers : Readers) (origin : String) (labels : LabelMap) (stepCount index : Nat)
    (label : String) (node : Members) (live : Finset String) :
    Except Error (Step × Finset String) := do
  let scope : Scope := ⟨origin, stepPointer index, stepSubject label index⟩
  let op ← requireString scope node "op"
  match commandKind op with
  | none => reject scope (childPointer scope.pointer "op") ("unknown op '" ++ op ++ "'")
  | some kind =>
    if isSequenceCommand kind = false then
      reject scope (childPointer scope.pointer "op")
        ("op '" ++ op ++ "' is not available as a sequence step")
    else do
      let command ← parsePayload readers scope node kind
      let tracked ← trackHandles scope live command
      let after ← parseAfter scope node index labels stepCount
      let policy ← parseErrorPolicy scope node labels
      let extra ← optionalInteger scope node "extra_grace_ms" 0 0 maximumDurationMs
      return (⟨StepId.nil, label, command, after, policy.1, policy.2, extra⟩, tracked)

/-- A step as the first pass left it: an object. -/
def membersOf : Json → Members
  | .object node => node
  | _ => []

def parseSteps (readers : Readers) (origin : String) (labels : LabelMap) (stepCount : Nat) :
    Nat → List (String × Json) → Finset String → Except Error (List Step)
  | _, [], _ => .ok []
  | index, (label, node) :: rest, live => do
      let (step, tracked) ← parseStep readers origin labels stepCount index label (membersOf node)
        live
      let later ← parseSteps readers origin labels stepCount (index + 1) rest tracked
      return step :: later

/-- What the builder is given. -/
structure Document where
  steps : List Step
  pacing : PacingOptions
  name : String
  deriving DecidableEq

def checkVersion (scope : Scope) (document : Members) : Except Error Unit :=
  match Json.lookup "schema_version" document with
  | none => .ok ()
  | some value =>
    let pointer := childPointer scope.pointer "schema_version"
    match boundedInteger scope pointer value supportedSchemaVersion supportedSchemaVersion with
    | .error _ =>
      reject scope pointer "unsupported schema version; this build reads version 1"
    | .ok _ => .ok ()

def parseName (scope : Scope) (document : Members) : Except Error String :=
  match Json.lookup "sequence" document with
  | none => .ok ""
  | some _ => requireString scope document "sequence"

/-- Both passes over the steps. -/
def parseNodes (readers : Readers) (origin : String) (scope : Scope) (document : Members) :
    Except Error (List Step) :=
  let pointer := childPointer scope.pointer "steps"
  match Json.lookup "steps" document with
  | none => reject scope pointer "missing required field"
  | some (.array nodes) =>
    if maxSteps < nodes.length then
      reject scope pointer ("holds " ++ toString nodes.length ++ " steps; the maximum is " ++
        toString maxSteps)
    else do
      let (found, labels) ← collectLabels scope 0 nodes ∅
      parseSteps readers origin labels nodes.length 0 (found.zip nodes) ∅
  | some _ => reject scope pointer "must be an array"

/-- Everything up to the builder. -/
def readDocument (readers : Readers) (json origin : String) : Except Error Document :=
  let scope : Scope := ⟨origin, "", ""⟩
  match readers.parse json with
  | .error message => reject scope "/" message
  | .ok (.object document) => do
      checkVersion scope document
      let name ← parseName scope document
      let pacing ← parsePacing scope document
      let steps ← parseNodes readers origin scope document
      return ⟨steps, pacing, name⟩
  | .ok _ => reject scope "/" "the document must be a JSON object"

def parseDocument (readers : Readers) (json origin : String) : Except Error Sequence := do
  let document ← readDocument readers json origin
  match build document.steps document.pacing document.name with
  | .error error => reject ⟨origin, "", ""⟩ (childPointer "" "steps") error.message
  | .ok program => .ok program

end Grab.Kernel.Sequence
