import Grab.Lib.Decimal
import Grab.Lib.Transitions
import Grab.Tree.Types

/-!
# The wire codec

`to_wire` and `from_wire` of `frontends/grpc/codec.cpp` with the payloads of
`compat/eventgrab_v1/v1_payload_codec.cpp`.  The payload of a kind goes into the data map, into
`mouse_move`, `mouse_button` or `graph_change`; what comes back is the event that went out, without
its sequence.

Floating point numbers are of any type with a text form that is given.  A message field that is
absent is `none`; a text is its bytes.
-/

namespace Grab.Frontend

open Grab.Lib Grab.Lib.Decimal

/-! ## Events -/

inductive EventCategory where
  | unspecified | input | window | accessibility | integration | state
  deriving DecidableEq, Repr

inductive EventKind where
  | unspecified
  | keyDown | keyUp | keyCombo | mouseClick | mouseMove | idleStart | idleEnd
  | mouseButtonDown | mouseButtonUp
  | windowFocusChanged | windowTitleChanged | windowCreated | windowClosed
  | a11yButtonClicked | a11yMenuOpened | a11yMenuClosed | a11yFocusChanged | a11yTextChanged
  | a11yStateChanged
  | appTabChanged | appContextUpdate
  | stateSnapshot
  | nodeAdded | nodeRemoved | nodeChanged | relationAdded | relationRemoved
  | activeChildChanged
  deriving DecidableEq, Repr

inductive EventOrigin where
  | physical | injectedSelf | injectedOther | unknown
  deriving DecidableEq, Repr

structure SpacePoint (D : Type) where
  x : D
  y : D
  space : UInt32
  deriving DecidableEq

/-- A process identifier; zero is the unknown one. -/
structure Pid where
  value : Int64 := 0
  deriving DecidableEq, Repr

structure InputKey where
  code : UInt32 := 0
  name : Text
  deriving DecidableEq

structure KeyCombo where
  text : Text
  deriving DecidableEq

structure MouseClick where
  button : UInt32 := 0
  name : Text
  deriving DecidableEq

structure MouseButton (D : Type) where
  button : UInt32 := 0
  name : Text
  position : Option (SpacePoint D) := none
  deriving DecidableEq

structure MouseMove (D : Type) where
  axis : Text
  delta : D
  position : Option (SpacePoint D) := none
  deriving DecidableEq

structure Idle (D : Type) where
  idleS : D
  deriving DecidableEq

structure WindowChange (D : Type) where
  app : Text
  pid : Pid
  title : Text
  prevTitle : Text
  durationS : D
  deriving DecidableEq

structure A11yEvent where
  app : Text
  role : Text
  name : Text
  detail : Text
  deriving DecidableEq

structure IntegrationEvent where
  app : Text
  title : Text
  detail : Text
  json : Text
  deriving DecidableEq

structure StateSnapshot where
  json : Text
  deriving DecidableEq

structure GraphChange where
  node : UInt64 := 0
  related : UInt64 := 0
  relation : UInt32 := 0
  previousActive : UInt64 := 0
  deriving DecidableEq

inductive Payload (D : Type) where
  | inputKey (payload : InputKey)
  | keyCombo (payload : KeyCombo)
  | mouseClick (payload : MouseClick)
  | mouseButton (payload : MouseButton D)
  | mouseMove (payload : MouseMove D)
  | idle (payload : Idle D)
  | windowChange (payload : WindowChange D)
  | a11yEvent (payload : A11yEvent)
  | integrationEvent (payload : IntegrationEvent)
  | stateSnapshot (payload : StateSnapshot)
  | graphChange (payload : GraphChange)
  deriving DecidableEq

structure EventSubject where
  runtime : RuntimeId
  tree : UInt32
  epoch : TreeEpoch
  node : UInt64
  revision : UInt64
  deriving DecidableEq

/-- The bytes of a UUID. -/
structure OperationId where
  bytes : Vector UInt8 16
  deriving DecidableEq

structure Event (D : Type) where
  timestamp : D
  sequence : UInt64 := 0
  kind : EventKind
  category : EventCategory
  payload : Payload D
  origin : EventOrigin := .unknown
  subject : Option EventSubject := none
  cause : Option OperationId := none
  beforeRevision : Option UInt64 := none
  afterRevision : Option UInt64 := none
  deriving DecidableEq

/-- The kinds of event that an alternative of the payload belongs to. -/
def Payload.kinds {D : Type} : Payload D → List EventKind
  | .inputKey _ => [.keyDown, .keyUp]
  | .keyCombo _ => [.keyCombo]
  | .mouseClick _ => [.mouseClick]
  | .mouseButton _ => [.mouseButtonDown, .mouseButtonUp]
  | .mouseMove _ => [.mouseMove]
  | .idle _ => [.idleStart, .idleEnd]
  | .windowChange _ => [.windowFocusChanged, .windowTitleChanged, .windowCreated, .windowClosed]
  | .a11yEvent _ =>
    [.a11yButtonClicked, .a11yMenuOpened, .a11yMenuClosed, .a11yFocusChanged,
      .a11yTextChanged, .a11yStateChanged]
  | .integrationEvent _ => [.appTabChanged, .appContextUpdate]
  | .stateSnapshot _ => [.stateSnapshot]
  | .graphChange _ =>
    [.nodeAdded, .nodeRemoved, .nodeChanged, .relationAdded, .relationRemoved, .activeChildChanged]

/-! ## Messages -/

structure WireSubject where
  runtime : UInt32
  tree : UInt32
  epoch : UInt32
  node : UInt64
  revision : UInt64
  deriving DecidableEq

structure WireGraphChange where
  node : UInt64
  related : UInt64
  relation : UInt32
  previousActive : UInt64
  deriving DecidableEq

structure WireMouseMove (D : Type) where
  positionX : Option D := none
  positionY : Option D := none
  space : Option UInt64 := none
  deriving DecidableEq

structure WireMouseButton (D : Type) where
  button : UInt32 := 0
  name : Text := []
  positionX : Option D := none
  positionY : Option D := none
  space : Option UInt64 := none
  deriving DecidableEq

/-- `eventgrab.v1.Event`.  An enumeration of the protocol is its number. -/
structure WireEvent (D : Type) where
  kind : ℕ
  category : ℕ
  timestamp : D
  data : List (Text × Text) := []
  origin : ℕ := 0
  subject : Option WireSubject := none
  cause : Option Text := none
  beforeRevision : Option UInt64 := none
  afterRevision : Option UInt64 := none
  graphChange : Option WireGraphChange := none
  mouseMove : Option (WireMouseMove D) := none
  mouseButton : Option (WireMouseButton D) := none
  deriving DecidableEq

def protoKindRows : List (EventKind × ℕ) :=
  [(.unspecified, 0), (.keyDown, 100), (.keyUp, 101), (.keyCombo, 102), (.mouseClick, 103),
    (.mouseMove, 104), (.idleStart, 105), (.idleEnd, 106), (.mouseButtonDown, 107),
    (.mouseButtonUp, 108), (.windowFocusChanged, 200), (.windowTitleChanged, 201),
    (.windowCreated, 202), (.windowClosed, 203), (.a11yButtonClicked, 300),
    (.a11yMenuOpened, 301), (.a11yMenuClosed, 302), (.a11yFocusChanged, 303),
    (.a11yTextChanged, 304), (.a11yStateChanged, 305), (.appTabChanged, 400),
    (.appContextUpdate, 401), (.stateSnapshot, 600), (.nodeAdded, 700), (.nodeRemoved, 701),
    (.nodeChanged, 702), (.relationAdded, 703), (.relationRemoved, 704),
    (.activeChildChanged, 705)]

def protoCategoryRows : List (EventCategory × ℕ) :=
  [(.unspecified, 0), (.input, 1), (.window, 2), (.accessibility, 3), (.integration, 4),
    (.state, 6)]

/-- The number of an enumerator in a table, or that of the unspecified one. -/
def toWireNumber {E : Type} [DecidableEq E] (rows : List (E × ℕ)) (value : E) : ℕ :=
  ((rows.find? fun row => row.1 = value).map Prod.snd).getD 0

/-- The enumerator of a number in a table. -/
def toGrabValue {E : Type} (rows : List (E × ℕ)) (number : ℕ) : Option E :=
  (rows.find? fun row => row.2 = number).map Prod.fst

def toWireKind (kind : EventKind) : ℕ := toWireNumber protoKindRows kind

def toGrabKind (number : ℕ) : Option EventKind := toGrabValue protoKindRows number

def toWireCategory (category : EventCategory) : ℕ := toWireNumber protoCategoryRows category

def toGrabCategory (number : ℕ) : Option EventCategory := toGrabValue protoCategoryRows number

def encodeOrigin : EventOrigin → ℕ
  | .physical => 1
  | .injectedSelf => 2
  | .injectedOther => 3
  | .unknown => 0

def decodeOrigin : ℕ → EventOrigin
  | 1 => .physical
  | 2 => .injectedSelf
  | 3 => .injectedOther
  | _ => .unknown

/-! ## Fields -/

inductive PayloadField where
  | keyCode | keyName | text | button | buttonName | axis | delta | positionX | positionY | space
  | idleSeconds | app | pid | title | prevTitle | durationSeconds | role | name | detail | state
  | json | node | related | relation | previousActive
  deriving DecidableEq, Repr

def fieldName : PayloadField → String
  | .keyCode => "key_code"
  | .keyName => "key_name"
  | .text => "text"
  | .button => "button"
  | .buttonName => "button_name"
  | .axis => "axis"
  | .delta => "delta"
  | .positionX => "position_x"
  | .positionY => "position_y"
  | .space => "space"
  | .idleSeconds => "idle_s"
  | .app => "app"
  | .pid => "pid"
  | .title => "title"
  | .prevTitle => "prev_title"
  | .durationSeconds => "duration_s"
  | .role => "role"
  | .name => "name"
  | .detail => "detail"
  | .state => "state"
  | .json => "json"
  | .node => "node"
  | .related => "related"
  | .relation => "relation"
  | .previousActive => "previous_active"

/-- The bytes of a name, all of them ASCII. -/
def ascii (name : String) : Text := name.toList.map fun char => UInt8.ofNat char.toNat

def key (field : PayloadField) : Text := ascii (fieldName field)

def protocolError {α : Type} (message : String) : Except Error α :=
  .error ⟨.protocolError, "malformed event: " ++ message⟩

/-- The text form of floating point numbers: `ostream` with all digits and `from_chars` on a whole
text, and their zero. -/
structure DoubleText (D : Type) where
  print : D → Text
  parse : Text → Option D
  zero : D

/-- No number is printed as nothing, and the text of a number is read back as that number. -/
structure DoubleText.Lossless {D : Type} (doubles : DoubleText D) : Prop where
  printed : ∀ number, doubles.print number ≠ []
  parsed : ∀ number, doubles.parse (doubles.print number) = some number

def Pid.valid (pid : Pid) : Bool := decide (0 < pid.value)

def Pid.toString (pid : Pid) : Text := if pid.valid then numeral pid.value.toInt.toNat else []

def Pid.fromString (text : Text) : Pid :=
  match fromCharsSigned (2 ^ 63) text with
  | some (value, []) => { value := Int64.ofInt value }
  | _ => {}

def uintToString (value : UInt32) : Text := numeral value.toNat

def parseUint32 (text : Text) : Option UInt32 :=
  if text = [] then none
  else
    match fromChars (2 ^ 32) text with
    | some (value, []) => some (UInt32.ofNat value)
    | _ => none

/-! ## The data map -/

section

variable {D : Type} (doubles : DoubleText D)

def WireEvent.setData (wire : WireEvent D) (field : PayloadField) (value : Text) : WireEvent D :=
  { wire with data := Assoc.put (key field) value wire.data }

def WireEvent.find (wire : WireEvent D) (field : PayloadField) : Option Text :=
  Assoc.find wire.data (key field)

def requiredString (wire : WireEvent D) (field : PayloadField) : Except Error Text :=
  match wire.find field with
  | none => protocolError ("missing data key " ++ fieldName field)
  | some value => .ok value

def optionalString (wire : WireEvent D) (field : PayloadField) : Text := (wire.find field).getD []

def requiredUint32 (wire : WireEvent D) (field : PayloadField) : Except Error UInt32 := do
  let text ← requiredString wire field
  match parseUint32 text with
  | none => protocolError ("unparseable unsigned integer key " ++ fieldName field)
  | some value => return value

def DoubleText.parseDouble (text : Text) : Option D :=
  if text = [] then none else doubles.parse text

def requiredDouble (wire : WireEvent D) (field : PayloadField) : Except Error D := do
  let text ← requiredString wire field
  match doubles.parseDouble text with
  | none => protocolError ("unparseable floating point key " ++ fieldName field)
  | some value => return value

def optionalDouble (wire : WireEvent D) (field : PayloadField) : Except Error D :=
  match wire.find field with
  | none => .ok doubles.zero
  | some text =>
    match doubles.parseDouble text with
    | none => protocolError ("unparseable floating point key " ++ fieldName field)
    | some value => .ok value

/-! ## Payloads of the first version -/

def encodeInputKey (wire : WireEvent D) (payload : InputKey) : WireEvent D :=
  (wire.setData .keyCode (uintToString payload.code)).setData .keyName payload.name

def encodeKeyCombo (wire : WireEvent D) (payload : KeyCombo) : WireEvent D :=
  wire.setData .text payload.text

def encodeMouseClick (wire : WireEvent D) (payload : MouseClick) : WireEvent D :=
  (wire.setData .button (uintToString payload.button)).setData .buttonName payload.name

def encodeMouseMove (wire : WireEvent D) (payload : MouseMove D) : WireEvent D :=
  (wire.setData .axis payload.axis).setData .delta (doubles.print payload.delta)

def encodeIdle (wire : WireEvent D) (payload : Idle D) : WireEvent D :=
  wire.setData .idleSeconds (doubles.print payload.idleS)

def encodeWindowChange (wire : WireEvent D) (payload : WindowChange D) : WireEvent D :=
  ((((wire.setData .app payload.app).setData .pid payload.pid.toString).setData .title
    payload.title).setData .prevTitle payload.prevTitle).setData .durationSeconds
      (doubles.print payload.durationS)

def encodeA11yEvent (wire : WireEvent D) (kind : EventKind) (payload : A11yEvent) : WireEvent D :=
  let named := ((wire.setData .app payload.app).setData .role payload.role).setData .name
    payload.name
  if kind = .a11yStateChanged then named.setData .state payload.detail
  else named.setData .detail payload.detail

def encodeIntegrationEvent (wire : WireEvent D) (payload : IntegrationEvent) : WireEvent D :=
  (((wire.setData .app payload.app).setData .title payload.title).setData .detail
    payload.detail).setData .json payload.json

def decodeInputKey (wire : WireEvent D) : Except Error InputKey := do
  let code ← requiredUint32 wire .keyCode
  return { code, name := optionalString wire .keyName }

def decodeKeyCombo (wire : WireEvent D) : Except Error KeyCombo := do
  let text ← requiredString wire .text
  return { text }

def decodeMouseClick (wire : WireEvent D) : Except Error MouseClick := do
  let button ← requiredUint32 wire .button
  return { button, name := optionalString wire .buttonName }

/-- The data map has no position. -/
def decodeMouseMove (wire : WireEvent D) : Except Error (MouseMove D) := do
  let axis ← requiredString wire .axis
  let delta ← requiredDouble doubles wire .delta
  return { axis, delta }

def decodeIdle (wire : WireEvent D) (kind : EventKind) : Except Error (Idle D) := do
  let idleS ←
    if kind = .idleStart then requiredDouble doubles wire .idleSeconds
    else optionalDouble doubles wire .idleSeconds
  return { idleS }

def decodeWindowChange (wire : WireEvent D) (kind : EventKind) : Except Error (WindowChange D) := do
  let app ← requiredString wire .app
  let pid ← requiredString wire .pid
  let title ← requiredString wire .title
  let prevTitle := optionalString wire .prevTitle
  let durationS ←
    if kind = .windowClosed then requiredDouble doubles wire .durationSeconds
    else optionalDouble doubles wire .durationSeconds
  return { app, pid := Pid.fromString pid, title, prevTitle, durationS }

def decodeA11yEvent (wire : WireEvent D) (kind : EventKind) : Except Error A11yEvent := do
  let name ← requiredString wire .name
  if kind = .a11yFocusChanged then
    let app ← requiredString wire .app
    let role ← requiredString wire .role
    return { app, role, name, detail := optionalString wire .detail }
  else if kind = .a11yStateChanged then
    let detail ← requiredString wire .state
    return { app := optionalString wire .app, role := optionalString wire .role, name, detail }
  else
    return { app := optionalString wire .app, role := optionalString wire .role, name,
             detail := optionalString wire .detail }

def decodeIntegrationEvent (wire : WireEvent D) : Except Error IntegrationEvent := do
  let app ← requiredString wire .app
  let title ← requiredString wire .title
  let detail ← requiredString wire .detail
  let json ← requiredString wire .json
  return { app, title, detail, json }

def isV1PayloadKind : EventKind → Bool
  | .keyDown | .keyUp | .keyCombo | .mouseClick | .mouseMove | .idleStart | .idleEnd
  | .windowFocusChanged | .windowTitleChanged | .windowCreated | .windowClosed
  | .a11yButtonClicked | .a11yMenuOpened | .a11yMenuClosed | .a11yFocusChanged
  | .a11yTextChanged | .a11yStateChanged | .appTabChanged | .appContextUpdate => true
  | _ => false

/-- `encode_v1_payload`; `std::get` of another alternative throws. -/
def encodeV1Payload (wire : WireEvent D) (kind : EventKind) (payload : Payload D) :
    Option (WireEvent D) :=
  match kind with
  | .keyDown | .keyUp =>
    match payload with
    | .inputKey own => some (encodeInputKey wire own)
    | _ => none
  | .keyCombo =>
    match payload with
    | .keyCombo own => some (encodeKeyCombo wire own)
    | _ => none
  | .mouseClick =>
    match payload with
    | .mouseClick own => some (encodeMouseClick wire own)
    | _ => none
  | .mouseMove =>
    match payload with
    | .mouseMove own => some (encodeMouseMove doubles wire own)
    | _ => none
  | .idleStart | .idleEnd =>
    match payload with
    | .idle own => some (encodeIdle doubles wire own)
    | _ => none
  | .windowFocusChanged | .windowTitleChanged | .windowCreated | .windowClosed =>
    match payload with
    | .windowChange own => some (encodeWindowChange doubles wire own)
    | _ => none
  | .a11yButtonClicked | .a11yMenuOpened | .a11yMenuClosed | .a11yFocusChanged
  | .a11yTextChanged | .a11yStateChanged =>
    match payload with
    | .a11yEvent own => some (encodeA11yEvent wire kind own)
    | _ => none
  | .appTabChanged | .appContextUpdate =>
    match payload with
    | .integrationEvent own => some (encodeIntegrationEvent wire own)
    | _ => none
  | _ => some wire

def decodeV1Payload (wire : WireEvent D) (kind : EventKind) : Except Error (Payload D) :=
  match kind with
  | .keyDown | .keyUp => (decodeInputKey wire).map .inputKey
  | .keyCombo => (decodeKeyCombo wire).map .keyCombo
  | .mouseClick => (decodeMouseClick wire).map .mouseClick
  | .mouseMove => (decodeMouseMove doubles wire).map .mouseMove
  | .idleStart | .idleEnd => (decodeIdle doubles wire kind).map .idle
  | .windowFocusChanged | .windowTitleChanged | .windowCreated | .windowClosed =>
    (decodeWindowChange doubles wire kind).map .windowChange
  | .a11yButtonClicked | .a11yMenuOpened | .a11yMenuClosed | .a11yFocusChanged
  | .a11yTextChanged | .a11yStateChanged => (decodeA11yEvent wire kind).map .a11yEvent
  | .appTabChanged | .appContextUpdate => (decodeIntegrationEvent wire).map .integrationEvent
  | _ => protocolError "unknown event kind"

/-! ## The other payloads -/

def encodeStateSnapshot (wire : WireEvent D) (payload : StateSnapshot) : WireEvent D :=
  wire.setData .json payload.json

def decodeStateSnapshot (wire : WireEvent D) : Except Error StateSnapshot := do
  let json ← requiredString wire .json
  return { json }

def encodeMouseMovePosition (wire : WireEvent D) (payload : MouseMove D) : WireEvent D :=
  match payload.position with
  | none => wire
  | some position =>
    { wire with
      mouseMove := some
        { positionX := some position.x
          positionY := some position.y
          space := some position.space.toUInt64 } }

/-- The three parts of a position, which come together or not at all. -/
def decodePosition (message : String) (x y : Option D) (space : Option UInt64) :
    Except Error (Option (SpacePoint D)) :=
  match x, y, space with
  | none, none, none => .ok none
  | some x, some y, some space =>
    if 0xFFFFFFFF < space then protocolError (message ++ " space is out of range")
    else .ok (some { x, y, space := space.toUInt32 })
  | _, _, _ =>
    protocolError (message ++ " position requires position_x, position_y, and space")

def decodeMouseMovePosition (wire : WireEvent D) (payload : MouseMove D) :
    Except Error (MouseMove D) :=
  match wire.mouseMove with
  | none => .ok payload
  | some message => do
      match ← decodePosition "mouse_move" message.positionX message.positionY message.space with
      | none => return payload
      | some position => return { payload with position := some position }

def encodeMouseButton (wire : WireEvent D) (payload : MouseButton D) : WireEvent D :=
  let message : WireMouseButton D := { button := payload.button, name := payload.name }
  match payload.position with
  | none => { wire with mouseButton := some message }
  | some position =>
    { wire with
      mouseButton := some
        { message with
          positionX := some position.x
          positionY := some position.y
          space := some position.space.toUInt64 } }

def decodeMouseButton (wire : WireEvent D) : Except Error (MouseButton D) :=
  match wire.mouseButton with
  | none => protocolError "missing mouse_button payload"
  | some message => do
      let position ←
        decodePosition "mouse_button" message.positionX message.positionY message.space
      return { button := message.button, name := message.name, position }

def encodeGraphChange (wire : WireEvent D) (payload : GraphChange) : WireEvent D :=
  { wire with
    graphChange := some
      { node := payload.node
        related := payload.related
        relation := payload.relation
        previousActive := payload.previousActive } }

def decodeGraphChange (wire : WireEvent D) : Except Error GraphChange :=
  match wire.graphChange with
  | none => protocolError "missing graph_change payload"
  | some message =>
    .ok
      { node := message.node
        related := message.related
        relation := message.relation
        previousActive := message.previousActive }

/-! ## Both ways -/

def encodeOperationId (operation : OperationId) : Text := operation.bytes.toList

def decodeOperationId (encoded : Text) : Except Error OperationId :=
  if size : encoded.length = 16 then .ok ⟨⟨encoded.toArray, by simpa using size⟩⟩
  else protocolError "cause must contain a 16-byte UUID"

def encodeSubject (subject : EventSubject) : WireSubject where
  runtime := subject.runtime.value
  tree := subject.tree
  epoch := subject.epoch.value
  node := subject.node
  revision := subject.revision

def decodeSubject (subject : WireSubject) : EventSubject where
  runtime := ⟨subject.runtime⟩
  tree := subject.tree
  epoch := ⟨subject.epoch⟩
  node := subject.node
  revision := subject.revision

/-- What `to_wire` sets before it comes to the payload. -/
def headed (event : Event D) : WireEvent D where
  kind := toWireKind event.kind
  category := toWireCategory event.category
  timestamp := event.timestamp
  origin := encodeOrigin event.origin
  subject := event.subject.map encodeSubject
  cause := event.cause.map encodeOperationId
  beforeRevision := event.beforeRevision
  afterRevision := event.afterRevision

/-- `to_wire`; nothing when `std::get` throws. -/
def toWire (event : Event D) : Option (Except Error (WireEvent D)) :=
  match event.kind with
  | .unspecified => some (protocolError "unknown event kind")
  | .mouseMove => do
      let wire ← encodeV1Payload doubles (headed event) event.kind event.payload
      match event.payload with
      | .mouseMove payload => some (.ok (encodeMouseMovePosition wire payload))
      | _ => none
  | .mouseButtonDown | .mouseButtonUp =>
    match event.payload with
    | .mouseButton payload => some (.ok (encodeMouseButton (headed event) payload))
    | _ => none
  | .stateSnapshot =>
    match event.payload with
    | .stateSnapshot payload => some (.ok (encodeStateSnapshot (headed event) payload))
    | _ => none
  | .nodeAdded | .nodeRemoved | .nodeChanged | .relationAdded | .relationRemoved
  | .activeChildChanged =>
    match event.payload with
    | .graphChange payload => some (.ok (encodeGraphChange (headed event) payload))
    | _ => none
  | kind => (encodeV1Payload doubles (headed event) kind event.payload).map .ok

def maxDataEntries : ℕ := 32

def maxValueBytes : ℕ := 65536

def validateSize (wire : WireEvent D) : Except Error Unit :=
  if maxDataEntries < wire.data.length then protocolError "too many data entries"
  else if wire.data.any fun entry =>
      decide (maxValueBytes < entry.1.length) || decide (maxValueBytes < entry.2.length) then
    protocolError "data entry exceeds maximum byte size"
  else .ok ()

def decodePayload (wire : WireEvent D) (kind : EventKind) : Except Error (Payload D) :=
  if isV1PayloadKind kind then do
    let payload ← decodeV1Payload doubles wire kind
    if kind = .mouseMove then
      match payload with
      | .mouseMove own => (decodeMouseMovePosition wire own).map .mouseMove
      | other => return other
    else return payload
  else
    match kind with
    | .mouseButtonDown | .mouseButtonUp => (decodeMouseButton wire).map .mouseButton
    | .stateSnapshot => (decodeStateSnapshot wire).map .stateSnapshot
    | .nodeAdded | .nodeRemoved | .nodeChanged | .relationAdded | .relationRemoved
    | .activeChildChanged => (decodeGraphChange wire).map .graphChange
    | _ => protocolError "unknown event kind"

def fromWire (wire : WireEvent D) : Except Error (Event D) := do
  validateSize wire
  let kind ←
    match toGrabKind wire.kind with
    | none | some .unspecified => protocolError "unknown event kind"
    | some kind => .ok kind
  let category ←
    match toGrabCategory wire.category with
    | none => protocolError "unknown event category"
    | some category => .ok category
  let payload ← decodePayload doubles wire kind
  let cause ←
    match wire.cause with
    | none => .ok none
    | some encoded => (decodeOperationId encoded).map some
  return { timestamp := wire.timestamp
           sequence := 0
           kind
           category
           payload
           origin := decodeOrigin wire.origin
           subject := wire.subject.map decodeSubject
           cause
           beforeRevision := wire.beforeRevision
           afterRevision := wire.afterRevision }

end

/-! ## What is put into the data map is found there -/

def PayloadField.all : List PayloadField :=
  [.keyCode, .keyName, .text, .button, .buttonName, .axis, .delta, .positionX, .positionY,
    .space, .idleSeconds, .app, .pid, .title, .prevTitle, .durationSeconds, .role, .name,
    .detail, .state, .json, .node, .related, .relation, .previousActive]

theorem PayloadField.mem_all (field : PayloadField) : field ∈ PayloadField.all := by
  cases field <;> decide

/-- No two fields have one name. -/
theorem key_injective {first second : PayloadField} (same : key first = key second) :
    first = second := by
  have distinct : (PayloadField.all.map key).Nodup := by decide
  exact List.inj_on_of_nodup_map distinct first.mem_all second.mem_all same

theorem length_key_le (field : PayloadField) : (key field).length ≤ maxValueBytes := by
  cases field <;> decide

section

variable {D : Type} {doubles : DoubleText D} {wire : WireEvent D} {field other : PayloadField}
  {value : Text} {number : D}

@[simp]
theorem find_setData : (wire.setData field value).find other =
    if other = field then some value else wire.find other := by
  unfold WireEvent.find WireEvent.setData
  rw [Assoc.find_put]
  have same : key other = key field ↔ other = field := ⟨key_injective, fun equal => equal ▸ rfl⟩
  simp only [same]

theorem requiredString_of_find (found : wire.find field = some value) :
    requiredString wire field = .ok value := by
  rw [requiredString, found]

theorem optionalString_of_find (found : wire.find field = some value) :
    optionalString wire field = value := by
  rw [optionalString, found, Option.getD_some]

theorem parseUint32_uintToString (number : UInt32) :
    parseUint32 (uintToString number) = some number := by
  have fits : number.toNat < 2 ^ 32 := number.toNat_lt
  rw [parseUint32, uintToString, if_neg (numeral_ne_nil _), fromChars_numeral fits]
  simp

theorem requiredUint32_of_find {number : UInt32}
    (found : wire.find field = some (uintToString number)) :
    requiredUint32 wire field = .ok number := by
  rw [requiredUint32, requiredString_of_find found]
  simp only [bind, Except.bind, parseUint32_uintToString]
  rfl

variable (lossless : doubles.Lossless)

include lossless

theorem DoubleText.Lossless.parseDouble (number : D) :
    doubles.parseDouble (doubles.print number) = some number := by
  rw [DoubleText.parseDouble, if_neg (lossless.printed number), lossless.parsed number]

variable (found : wire.find field = some (doubles.print number))

include found

theorem requiredDouble_of_find : requiredDouble doubles wire field = .ok number := by
  rw [requiredDouble, requiredString_of_find found]
  simp only [bind, Except.bind, lossless.parseDouble]
  rfl

theorem optionalDouble_of_find : optionalDouble doubles wire field = .ok number := by
  rw [optionalDouble, found]
  simp only [lossless.parseDouble]

omit found lossless

/-- An identifier that is unknown or positive. -/
def Pid.Proper (pid : Pid) : Prop := pid = {} ∨ 0 < pid.value

theorem Pid.fromString_toString {pid : Pid} (proper : pid.Proper) :
    Pid.fromString pid.toString = pid := by
  rcases proper with unknown | positive
  · rw [unknown]
    rfl
  have above : 0 < pid.value.toInt := Int64.lt_iff_toInt_lt.mp positive
  have below : pid.value.toInt < 2 ^ 63 := pid.value.toInt_lt
  have whole : ((pid.value.toInt.toNat : ℕ) : ℤ) = pid.value.toInt := Int.toNat_of_nonneg above.le
  have fits : pid.value.toInt.toNat < 2 ^ 63 := by omega
  have valid : pid.valid := decide_eq_true positive
  rw [Pid.toString, if_pos valid, Pid.fromString, fromCharsSigned_numeral fits]
  simp only [whole, Int64.ofInt_toInt]

/-! ## Each payload comes back -/

theorem decodeInputKey_encode (payload : InputKey) :
    decodeInputKey (encodeInputKey wire payload) = .ok payload := by
  have code : (encodeInputKey wire payload).find .keyCode =
      some (uintToString payload.code) := by simp [encodeInputKey]
  have name : (encodeInputKey wire payload).find .keyName = some payload.name := by
    simp [encodeInputKey]
  rw [decodeInputKey, requiredUint32_of_find code, optionalString_of_find name]
  rfl

theorem decodeKeyCombo_encode (payload : KeyCombo) :
    decodeKeyCombo (encodeKeyCombo wire payload) = .ok payload := by
  have text : (encodeKeyCombo wire payload).find .text = some payload.text := by
    simp [encodeKeyCombo]
  rw [decodeKeyCombo, requiredString_of_find text]
  rfl

theorem decodeMouseClick_encode (payload : MouseClick) :
    decodeMouseClick (encodeMouseClick wire payload) = .ok payload := by
  have button : (encodeMouseClick wire payload).find .button =
      some (uintToString payload.button) := by simp [encodeMouseClick]
  have name : (encodeMouseClick wire payload).find .buttonName = some payload.name := by
    simp [encodeMouseClick]
  rw [decodeMouseClick, requiredUint32_of_find button, optionalString_of_find name]
  rfl

variable (lossless : doubles.Lossless)

include lossless

/-- The data map keeps all of a movement but the position. -/
theorem decodeMouseMove_encode {after : WireEvent D} (payload : MouseMove D)
    (data : after.data = (encodeMouseMove doubles wire payload).data) :
    decodeMouseMove doubles after = .ok { axis := payload.axis, delta := payload.delta } := by
  have finds : ∀ field, after.find field = (encodeMouseMove doubles wire payload).find field := by
    intro field
    simp only [WireEvent.find, data]
  have axis : after.find .axis = some payload.axis := by
    rw [finds]
    simp [encodeMouseMove]
  have delta : after.find .delta = some (doubles.print payload.delta) := by
    rw [finds]
    simp [encodeMouseMove]
  rw [decodeMouseMove, requiredString_of_find axis, requiredDouble_of_find lossless delta]
  rfl

theorem decodeIdle_encode (kind : EventKind) (payload : Idle D) :
    decodeIdle doubles (encodeIdle doubles wire payload) kind = .ok payload := by
  have seconds : (encodeIdle doubles wire payload).find .idleSeconds =
      some (doubles.print payload.idleS) := by simp [encodeIdle]
  rw [decodeIdle, requiredDouble_of_find lossless seconds,
    optionalDouble_of_find lossless seconds, ite_self]
  rfl

theorem decodeWindowChange_encode (kind : EventKind) {payload : WindowChange D}
    (proper : payload.pid.Proper) :
    decodeWindowChange doubles (encodeWindowChange doubles wire payload) kind = .ok payload := by
  have app : (encodeWindowChange doubles wire payload).find .app = some payload.app := by
    simp [encodeWindowChange]
  have pid : (encodeWindowChange doubles wire payload).find .pid =
      some payload.pid.toString := by simp [encodeWindowChange]
  have title : (encodeWindowChange doubles wire payload).find .title = some payload.title := by
    simp [encodeWindowChange]
  have prevTitle : (encodeWindowChange doubles wire payload).find .prevTitle =
      some payload.prevTitle := by simp [encodeWindowChange]
  have duration : (encodeWindowChange doubles wire payload).find .durationSeconds =
      some (doubles.print payload.durationS) := by simp [encodeWindowChange]
  rw [decodeWindowChange, requiredString_of_find app, requiredString_of_find pid,
    requiredString_of_find title, optionalString_of_find prevTitle]
  simp only [bind, Except.bind, requiredDouble_of_find lossless duration,
    optionalDouble_of_find lossless duration, Pid.fromString_toString proper, ite_self]
  rfl

omit lossless

/-- The detail goes by another key when the state of a node has changed. -/
theorem decodeA11yEvent_encode (kind : EventKind) (payload : A11yEvent) :
    decodeA11yEvent (encodeA11yEvent wire kind payload) kind = .ok payload := by
  have app : (encodeA11yEvent wire kind payload).find .app = some payload.app := by
    unfold encodeA11yEvent
    split <;> simp
  have role : (encodeA11yEvent wire kind payload).find .role = some payload.role := by
    unfold encodeA11yEvent
    split <;> simp
  have name : (encodeA11yEvent wire kind payload).find .name = some payload.name := by
    unfold encodeA11yEvent
    split <;> simp
  by_cases changed : kind = .a11yStateChanged
  · have state : (encodeA11yEvent wire kind payload).find .state = some payload.detail := by
      simp [encodeA11yEvent, changed]
    have focus : kind ≠ .a11yFocusChanged := by
      rw [changed]
      decide
    rw [decodeA11yEvent, requiredString_of_find name]
    simp only [bind, Except.bind]
    rw [if_neg focus, if_pos changed, requiredString_of_find state, optionalString_of_find app,
      optionalString_of_find role]
    rfl
  · have detail : (encodeA11yEvent wire kind payload).find .detail = some payload.detail := by
      simp [encodeA11yEvent, changed]
    rw [decodeA11yEvent, requiredString_of_find name]
    simp only [bind, Except.bind]
    rw [if_neg changed, requiredString_of_find app, requiredString_of_find role,
      optionalString_of_find app, optionalString_of_find role, optionalString_of_find detail]
    by_cases focus : kind = .a11yFocusChanged
    · rw [if_pos focus]
      rfl
    · rw [if_neg focus]
      rfl

theorem decodeIntegrationEvent_encode (payload : IntegrationEvent) :
    decodeIntegrationEvent (encodeIntegrationEvent wire payload) = .ok payload := by
  have app : (encodeIntegrationEvent wire payload).find .app = some payload.app := by
    simp [encodeIntegrationEvent]
  have title : (encodeIntegrationEvent wire payload).find .title = some payload.title := by
    simp [encodeIntegrationEvent]
  have detail : (encodeIntegrationEvent wire payload).find .detail = some payload.detail := by
    simp [encodeIntegrationEvent]
  have json : (encodeIntegrationEvent wire payload).find .json = some payload.json := by
    simp [encodeIntegrationEvent]
  rw [decodeIntegrationEvent, requiredString_of_find app, requiredString_of_find title,
    requiredString_of_find detail, requiredString_of_find json]
  rfl

theorem decodeStateSnapshot_encode (payload : StateSnapshot) :
    decodeStateSnapshot (encodeStateSnapshot wire payload) = .ok payload := by
  have json : (encodeStateSnapshot wire payload).find .json = some payload.json := by
    simp [encodeStateSnapshot]
  rw [decodeStateSnapshot, requiredString_of_find json]
  rfl

/-- Space identifiers have half the width of their field. -/
theorem decodePosition_some (message : String) (position : SpacePoint D) :
    decodePosition message (some position.x) (some position.y)
      (some position.space.toUInt64) = .ok (some position) := by
  have fits : ¬(0xFFFFFFFF : UInt64) < position.space.toUInt64 := by
    rw [UInt64.lt_iff_toNat_lt, UInt32.toNat_toUInt64]
    have below := position.space.toNat_lt
    have bound : (0xFFFFFFFF : UInt64).toNat = 4294967295 := rfl
    omega
  rw [decodePosition, if_neg fits, UInt32.toUInt32_toUInt64]

theorem decodeMouseMovePosition_encode (payload : MouseMove D) (absent : wire.mouseMove = none) :
    decodeMouseMovePosition (encodeMouseMovePosition wire payload)
      { axis := payload.axis, delta := payload.delta } = .ok payload := by
  rcases payload with ⟨axis, delta, position⟩
  cases position with
  | none =>
    simp only [encodeMouseMovePosition, decodeMouseMovePosition, absent]
  | some position =>
    simp only [encodeMouseMovePosition, decodeMouseMovePosition, decodePosition_some, bind,
      Except.bind]
    rfl

theorem decodeMouseButton_encode (payload : MouseButton D) :
    decodeMouseButton (encodeMouseButton wire payload) = .ok payload := by
  rcases payload with ⟨button, name, position⟩
  cases position with
  | none => rfl
  | some position =>
    simp only [encodeMouseButton, decodeMouseButton, decodePosition_some, bind, Except.bind]
    rfl

end

/-! ## The head comes back -/

@[simp]
theorem toGrabKind_toWireKind (kind : EventKind) : toGrabKind (toWireKind kind) = some kind := by
  cases kind <;> rfl

@[simp]
theorem toGrabCategory_toWireCategory (category : EventCategory) :
    toGrabCategory (toWireCategory category) = some category := by
  cases category <;> rfl

@[simp]
theorem decodeOrigin_encodeOrigin (origin : EventOrigin) :
    decodeOrigin (encodeOrigin origin) = origin := by
  cases origin <;> rfl

@[simp]
theorem decodeOperationId_encodeOperationId (operation : OperationId) :
    decodeOperationId (encodeOperationId operation) = .ok operation := by
  have size : (encodeOperationId operation).length = 16 := by simp [encodeOperationId]
  rw [decodeOperationId, dif_pos size]
  rcases operation with ⟨⟨bytes, length⟩⟩
  rfl

/-! ## The size of what is encoded -/

section

variable {D : Type} {doubles : DoubleText D} {wire : WireEvent D} {values : List Text}

/-- The texts that a payload puts into the data map, in order. -/
def Payload.dataValues (doubles : DoubleText D) : Payload D → List Text
  | .inputKey payload => [uintToString payload.code, payload.name]
  | .keyCombo payload => [payload.text]
  | .mouseClick payload => [uintToString payload.button, payload.name]
  | .mouseButton _ => []
  | .mouseMove payload => [payload.axis, doubles.print payload.delta]
  | .idle payload => [doubles.print payload.idleS]
  | .windowChange payload =>
    [payload.app, payload.pid.toString, payload.title, payload.prevTitle,
      doubles.print payload.durationS]
  | .a11yEvent payload => [payload.app, payload.role, payload.name, payload.detail]
  | .integrationEvent payload => [payload.app, payload.title, payload.detail, payload.json]
  | .stateSnapshot payload => [payload.json]
  | .graphChange _ => []

/-- The data map holds nothing but these values, under names of fields. -/
structure Loaded (values : List Text) (wire : WireEvent D) : Prop where
  few : wire.data.length ≤ values.length
  named : ∀ entry ∈ wire.data, ∃ field, entry.1 = key field
  valued : ∀ entry ∈ wire.data, entry.2 ∈ values

variable (loaded : Loaded values wire)

include loaded

theorem Loaded.setData (field : PayloadField) (value : Text) :
    Loaded (values ++ [value]) (wire.setData field value) := by
  constructor
  case few =>
    have grown := Assoc.length_put_le (key field) value wire.data
    have before := loaded.few
    rw [List.length_append, List.length_singleton]
    simp only [WireEvent.setData]
    omega
  case named =>
    intro entry member
    rcases Assoc.mem_put member with new | old
    · exact ⟨field, congrArg Prod.fst new⟩
    · exact loaded.named entry old
  case valued =>
    intro entry member
    rcases Assoc.mem_put member with new | old
    · simp [new]
    · exact List.mem_append_left _ (loaded.valued entry old)

theorem Loaded.of_data {after : WireEvent D} (same : after.data = wire.data) :
    Loaded values after := by
  constructor
  case few => rw [same]; exact loaded.few
  case named => rw [same]; exact loaded.named
  case valued => rw [same]; exact loaded.valued

theorem Loaded.validateSize (few : values.length ≤ maxDataEntries)
    (small : ∀ value ∈ values, value.length ≤ maxValueBytes) : validateSize wire = .ok () := by
  have count : ¬maxDataEntries < wire.data.length := Nat.not_lt.mpr (loaded.few.trans few)
  have fits : ¬(wire.data.any fun entry =>
      decide (maxValueBytes < entry.1.length) || decide (maxValueBytes < entry.2.length)) := by
    rw [List.any_eq_true]
    rintro ⟨entry, member, large⟩
    rw [Bool.or_eq_true, decide_eq_true_eq, decide_eq_true_eq] at large
    rcases large with name | value
    · rcases loaded.named entry member with ⟨field, named⟩
      rw [named] at name
      exact absurd (length_key_le field) (Nat.not_le.mpr name)
    · exact absurd (small _ (loaded.valued entry member)) (Nat.not_le.mpr value)
  rw [Frontend.validateSize, if_neg count, if_neg fits]

omit loaded

theorem Payload.length_dataValues_le (payload : Payload D) :
    (payload.dataValues doubles).length ≤ maxDataEntries := by
  cases payload <;> simp [dataValues, maxDataEntries]

/-! ## The event comes back -/

/-- A message without its payload. -/
def WireEvent.head (wire : WireEvent D) : WireEvent D :=
  { wire with data := [], graphChange := none, mouseMove := none, mouseButton := none }

/-- A message with the head of another, a payload and nothing in its data map besides. -/
structure Carries (doubles : DoubleText D) (kind : EventKind) (payload : Payload D)
    (start after : WireEvent D) : Prop where
  head : after.head = start.head
  decoded : decodePayload doubles after kind = .ok payload
  loaded : Loaded (payload.dataValues doubles) after

variable {start : WireEvent D} {kind : EventKind} {event : Event D}

theorem map_of_ok {α β : Type} {result : Except Error α} {value : α} (isOk : result = .ok value)
    (wrap : α → β) : result.map wrap = .ok (wrap value) := by
  rw [isOk]
  rfl

theorem decodePayload_of_v1 {payload : Payload D} (isV1 : isV1PayloadKind kind = true)
    (still : decide (kind = .mouseMove) = false)
    (decoded : decodeV1Payload doubles wire kind = .ok payload) :
    decodePayload doubles wire kind = .ok payload := by
  unfold decodePayload
  rw [if_pos isV1, decoded]
  show (if kind = .mouseMove then _ else pure payload) = _
  rw [if_neg (of_decide_eq_false still)]
  rfl

/-- The axis and the distance go into the data map, the position into a message of its own. -/
theorem mouseMove_carries (lossless : doubles.Lossless) (bare : Loaded [] start)
    (absent : start.mouseMove = none) (payload : MouseMove D) :
    Carries doubles .mouseMove (.mouseMove payload) start
      (encodeMouseMovePosition (encodeMouseMove doubles start payload) payload) := by
  have data : (encodeMouseMovePosition (encodeMouseMove doubles start payload) payload).data =
      (encodeMouseMove doubles start payload).data := by
    unfold encodeMouseMovePosition
    cases payload.position <;> rfl
  constructor
  case head =>
    unfold encodeMouseMovePosition
    cases payload.position <;> rfl
  case decoded =>
    show (Except.map Payload.mouseMove (decodeMouseMove doubles _)).bind _ = _
    rw [decodeMouseMove_encode lossless payload data]
    have position : decodeMouseMovePosition
        (encodeMouseMovePosition (encodeMouseMove doubles start payload) payload)
        { axis := payload.axis, delta := payload.delta } = .ok payload :=
      decodeMouseMovePosition_encode payload absent
    exact map_of_ok position Payload.mouseMove
  case loaded => exact ((bare.setData .axis _).setData .delta _).of_data data

variable (bare : Loaded [] start)

include bare

theorem mouseButton_carries (payload : MouseButton D)
    (belongs : kind = .mouseButtonDown ∨ kind = .mouseButtonUp) :
    Carries doubles kind (.mouseButton payload) start (encodeMouseButton start payload) := by
  have data : (encodeMouseButton start payload).data = start.data := by
    unfold encodeMouseButton
    cases payload.position <;> rfl
  constructor
  case head =>
    unfold encodeMouseButton
    cases payload.position <;> rfl
  case decoded =>
    have decoded : (decodeMouseButton (encodeMouseButton start payload)).map
        Payload.mouseButton = .ok (.mouseButton payload) :=
      map_of_ok (decodeMouseButton_encode payload) _
    rcases belongs with rfl | rfl
    all_goals exact decoded
  case loaded => exact bare.of_data data

theorem a11yEvent_carries (payload : A11yEvent)
    (belongs : kind = .a11yButtonClicked ∨ kind = .a11yMenuOpened ∨ kind = .a11yMenuClosed ∨
      kind = .a11yFocusChanged ∨ kind = .a11yTextChanged ∨ kind = .a11yStateChanged) :
    Carries doubles kind (.a11yEvent payload) start (encodeA11yEvent start kind payload) := by
  constructor
  case head =>
    unfold encodeA11yEvent
    split <;> rfl
  case decoded =>
    have decoded : (decodeA11yEvent (encodeA11yEvent start kind payload) kind).map
        Payload.a11yEvent = .ok (Payload.a11yEvent (D := D) payload) :=
      map_of_ok (decodeA11yEvent_encode kind payload) _
    rcases belongs with rfl | rfl | rfl | rfl | rfl | rfl
    all_goals exact decodePayload_of_v1 rfl rfl decoded
  case loaded =>
    have named := ((bare.setData .app payload.app).setData .role payload.role).setData .name
      payload.name
    unfold encodeA11yEvent
    split
    · exact named.setData .state _
    · exact named.setData .detail _

theorem integrationEvent_carries (payload : IntegrationEvent)
    (belongs : kind = .appTabChanged ∨ kind = .appContextUpdate) :
    Carries doubles kind (.integrationEvent payload) start
      (encodeIntegrationEvent start payload) := by
  constructor
  case head => rfl
  case decoded =>
    have decoded : (decodeIntegrationEvent (encodeIntegrationEvent start payload)).map
        Payload.integrationEvent = .ok (Payload.integrationEvent (D := D) payload) :=
      map_of_ok (decodeIntegrationEvent_encode payload) _
    rcases belongs with rfl | rfl
    all_goals exact decodePayload_of_v1 rfl rfl decoded
  case loaded =>
    exact (((bare.setData .app _).setData .title _).setData .detail _).setData .json _

theorem stateSnapshot_carries (payload : StateSnapshot) :
    Carries doubles .stateSnapshot (.stateSnapshot payload) start
      (encodeStateSnapshot start payload) := by
  constructor
  case head => rfl
  case decoded => exact map_of_ok (decodeStateSnapshot_encode payload) Payload.stateSnapshot
  case loaded => exact bare.setData .json _

omit bare

/-- Whatever belongs to its kind is encoded, and the message carries it. -/
theorem toWire_carries (lossless : doubles.Lossless) (belongs : event.kind ∈ event.payload.kinds)
    (proper : ∀ payload, event.payload = .windowChange payload → payload.pid.Proper) :
    ∃ wire, toWire doubles event = some (.ok wire) ∧
      Carries doubles event.kind event.payload (headed event) wire := by
  have bare : Loaded [] (headed event) := ⟨le_rfl, by simp [headed], by simp [headed]⟩
  rcases event with ⟨timestamp, sequence, kind, category, payload, origin, subject, cause,
    beforeRevision, afterRevision⟩
  cases payload
  all_goals simp only [Payload.kinds, List.mem_cons, List.not_mem_nil, or_false] at belongs
  case inputKey payload =>
    have loaded := (bare.setData .keyCode (uintToString payload.code)).setData .keyName payload.name
    rcases belongs with rfl | rfl
    all_goals exact ⟨_, rfl, rfl, decodePayload_of_v1 rfl rfl
      (map_of_ok (decodeInputKey_encode payload) _), loaded⟩
  case keyCombo payload =>
    have decoded (wire : WireEvent D) : decodeV1Payload doubles (encodeKeyCombo wire payload)
        .keyCombo = .ok (.keyCombo payload) :=
      map_of_ok (decodeKeyCombo_encode payload) _
    rcases belongs with rfl
    exact ⟨_, rfl, rfl, decodePayload_of_v1 rfl rfl (decoded _), bare.setData .text _⟩
  case mouseClick payload =>
    rcases belongs with rfl
    exact ⟨_, rfl, rfl, decodePayload_of_v1 rfl rfl
      (map_of_ok (decodeMouseClick_encode payload) _),
      (bare.setData .button _).setData .buttonName _⟩
  case mouseButton payload =>
    have carries : Carries doubles kind _ _ _ := mouseButton_carries bare payload belongs
    rcases belongs with rfl | rfl
    all_goals exact ⟨_, rfl, carries⟩
  case mouseMove payload =>
    rcases belongs with rfl
    exact ⟨_, rfl, mouseMove_carries lossless bare rfl payload⟩
  case idle payload =>
    rcases belongs with rfl | rfl
    all_goals exact ⟨_, rfl, rfl, decodePayload_of_v1 rfl rfl
      (map_of_ok (decodeIdle_encode lossless _ payload) _), bare.setData .idleSeconds _⟩
  case windowChange payload =>
    have loaded := ((((bare.setData .app payload.app).setData .pid payload.pid.toString).setData
      .title payload.title).setData .prevTitle payload.prevTitle).setData .durationSeconds
        (doubles.print payload.durationS)
    rcases belongs with rfl | rfl | rfl | rfl
    all_goals exact ⟨_, rfl, rfl, decodePayload_of_v1 rfl rfl
      (map_of_ok (decodeWindowChange_encode lossless _ (proper payload rfl)) _), loaded⟩
  case a11yEvent payload =>
    have carries : Carries doubles kind _ _ _ := a11yEvent_carries bare payload belongs
    rcases belongs with rfl | rfl | rfl | rfl | rfl | rfl
    all_goals exact ⟨_, rfl, carries⟩
  case integrationEvent payload =>
    have carries : Carries doubles kind _ _ _ := integrationEvent_carries bare payload belongs
    rcases belongs with rfl | rfl
    all_goals exact ⟨_, rfl, carries⟩
  case stateSnapshot payload =>
    rcases belongs with rfl
    exact ⟨_, rfl, stateSnapshot_carries bare payload⟩
  case graphChange payload =>
    rcases belongs with rfl | rfl | rfl | rfl | rfl | rfl
    all_goals exact ⟨_, rfl, rfl, rfl, bare.of_data rfl⟩

/-- A message that carries the payload of an event under its head is read as the event. -/
theorem Carries.fromWire (carries : Carries doubles event.kind event.payload (headed event) wire)
    (specified : event.kind ≠ .unspecified)
    (small : ∀ value ∈ event.payload.dataValues doubles, value.length ≤ maxValueBytes) :
    fromWire doubles wire = .ok { event with sequence := 0 } := by
  have size : validateSize wire = .ok () :=
    carries.loaded.validateSize event.payload.length_dataValues_le small
  have kind : toGrabKind wire.kind = some event.kind := by
    rw [show wire.kind = toWireKind event.kind from congrArg WireEvent.kind carries.head,
      toGrabKind_toWireKind]
  have category : toGrabCategory wire.category = some event.category := by
    rw [show wire.category = toWireCategory event.category from
      congrArg WireEvent.category carries.head, toGrabCategory_toWireCategory]
  have timestamp : wire.timestamp = event.timestamp := congrArg WireEvent.timestamp carries.head
  have origin : decodeOrigin wire.origin = event.origin := by
    rw [show wire.origin = encodeOrigin event.origin from
      congrArg WireEvent.origin carries.head, decodeOrigin_encodeOrigin]
  have subject : wire.subject.map decodeSubject = event.subject := by
    rw [show wire.subject = event.subject.map encodeSubject from
      congrArg WireEvent.subject carries.head]
    cases event.subject <;> rfl
  have cause : wire.cause = event.cause.map encodeOperationId :=
    congrArg WireEvent.cause carries.head
  have before : wire.beforeRevision = event.beforeRevision :=
    congrArg WireEvent.beforeRevision carries.head
  have after : wire.afterRevision = event.afterRevision :=
    congrArg WireEvent.afterRevision carries.head
  rw [Frontend.fromWire, size]
  simp only [bind, Except.bind, kind, category, carries.decoded, timestamp, origin, subject,
    before, after]
  cases caused : event.cause with
  | none =>
    rw [caused] at cause
    simp only [cause, Option.map_none]
    rfl
  | some operation =>
    rw [caused] at cause
    simp only [cause, Option.map_some, decodeOperationId_encodeOperationId]
    rfl

/-- Every event whose payload belongs to its kind goes over the wire and comes back the same, but
for its sequence. -/
theorem fromWire_toWire (lossless : doubles.Lossless) {event : Event D}
    (specified : event.kind ≠ .unspecified) (belongs : event.kind ∈ event.payload.kinds)
    (proper : ∀ payload, event.payload = .windowChange payload → payload.pid.Proper)
    (small : ∀ value ∈ event.payload.dataValues doubles, value.length ≤ maxValueBytes) :
    ∃ wire, toWire doubles event = some (.ok wire) ∧
      fromWire doubles wire = .ok { event with sequence := 0 } := by
  rcases toWire_carries lossless belongs proper with ⟨wire, encoded, carries⟩
  exact ⟨wire, encoded, carries.fromWire specified small⟩

end

/-- Whole numbers below 2^32 among the floating point ones. -/
def wholeDoubles : DoubleText UInt32 where
  print := uintToString
  parse := parseUint32
  zero := 0

theorem wholeDoubles_lossless : wholeDoubles.Lossless where
  printed number := numeral_ne_nil number.toNat
  parsed := parseUint32_uintToString

/-- A window of process 42 that was open for five seconds. -/
def closedWindow : Event UInt32 where
  timestamp := 1700000000
  sequence := 9
  kind := .windowClosed
  category := .window
  payload := .windowChange
    { app := ascii "editor", pid := { value := 42 }, title := ascii "notes", prevTitle := [],
      durationS := 5 }
  origin := .physical
  subject := some { runtime := ⟨1⟩, tree := 2, epoch := ⟨3⟩, node := 4, revision := 5 }
  afterRevision := some 6

theorem fromWire_toWire_closedWindow : ∃ wire,
    toWire wholeDoubles closedWindow = some (.ok wire) ∧
      fromWire wholeDoubles wire = .ok { closedWindow with sequence := 0 } := by
  apply fromWire_toWire wholeDoubles_lossless
  case specified => decide
  case belongs => decide
  case proper =>
    intro payload same
    cases same
    exact .inr (by decide)
  case small =>
    intro value member
    simp only [closedWindow, Payload.dataValues, List.mem_cons, List.not_mem_nil,
      or_false] at member
    rcases member with rfl | rfl | rfl | rfl | rfl
    · decide
    · simp [Pid.toString, Pid.valid, numeral, maxValueBytes]
    · decide
    · decide
    · simp [wholeDoubles, uintToString, numeral, maxValueBytes]

end Grab.Frontend
