import Grab.Desktop.InputSeat
import Grab.Sequence.Seat.Contract

/-!
# The input facade

`Input` of `drivers/desktop/x11/input_facade.cpp` and the drag recipe it runs, over a seat whose
calls may fail in any pattern.  Whichever call fails, what was pressed is lifted, except in a drag:
a waypoint that fails leaves the button down.
-/

namespace Grab.Desktop.InputFacade

open Geometry Input List

/-- A call on the seat.  The source makes the coordinates of a move 16-bit. -/
inductive SeatCall where
  | movePointerAbsolute (x y : Int)
  | send (control : Control) (press : Bool)
  | flush

def SeatCall.isSend : SeatCall → Bool
  | .send .. => true
  | _ => false

/-- The calls so far and their answers. -/
abbrev Trace := List (SeatCall × Option Error)

abbrev Work := Trace → Option Error × Trace

structure Keystroke where
  keycode : UInt32 := 0
  shift : Bool := false
  altgr : Bool := false

/-- The backend of a keymap. -/
structure Keymap where
  textToKeystrokes : String → Except Error (List Keystroke)
  keystrokeForKey : String → Option Keystroke
  shiftKeycode : UInt32
  altgrKeycode : UInt32

def fail (error : Error) : Work := fun trace => (some error, trace)

/-- Give up at the first error. -/
def andThen (first second : Work) : Work := fun trace =>
  if (first trace).1 = none then second (first trace).2 else first trace

/-- What the cleanup answers is ignored. -/
def cleanedUp (work cleanup : Work) : Work := fun trace =>
  if (work trace).1 = none then work trace
  else ((work trace).1, (cleanup (work trace).2).2)

/-- Past the commit boundary every error is the same. -/
def committing (work : Work) : Work := fun trace =>
  ((work trace).1.map fun _ =>
    ⟨.possiblyCommitted, "drag failed after crossing the input commit boundary"⟩, (work trace).2)

def button (code : UInt8) (press : Bool) : SeatCall := .send (.button code) press

def key (keycode : UInt8) (press : Bool) : SeatCall := .send (.key keycode) press

section

variable (answers : Trace → SeatCall → Option Error) {control : Control} {trace : Trace}
  {call : SeatCall}

def make (call : SeatCall) : Work := fun trace =>
  (answers trace call, trace ++ [(call, answers trace call)])

/-- Calls in a row, up to the first that fails. -/
def makeAll : List SeatCall → Work
  | [] => fun trace => (none, trace)
  | call :: rest => andThen (make answers call) (makeAll rest)

/-! ## Keys -/

/-- All of them, the last pressed first; the first error counts. -/
def releaseModifiers : List UInt8 → Work
  | [] => fun trace => (none, trace)
  | keycode :: earlier => fun trace =>
    let released := make answers (key keycode false) trace
    let others := releaseModifiers earlier released.2
    (released.1.or others.1, others.2)

/-- Press a key, or lift the modifiers that are down. -/
def pressModifier (keycode : UInt8) (modifiers : List UInt8) : Work :=
  cleanedUp (make answers (key keycode true)) (releaseModifiers answers modifiers)

def xtestKeycode (keycode : UInt32) : Except Error UInt8 :=
  if keycode = 0 then .error ⟨.invalidArgument, "XTEST keycode must be nonzero"⟩
  else if 255 < keycode then .error ⟨.invalidArgument, "XTEST keycode is out of range"⟩
  else .ok keycode.toUInt8

def requiredModifierKeycode (keycode : UInt32) (modifier : String) : Except Error UInt8 :=
  if keycode = 0 then
    .error ⟨.unsupportedCharacter,
      "keymap does not provide the required " ++ modifier ++ " modifier"⟩
  else xtestKeycode keycode

def synthesizeKeystroke (keystroke : Keystroke) (shift altgr : UInt8) : Work :=
  match xtestKeycode keystroke.keycode with
  | .error error => fail error
  | .ok base =>
    let shifted := if keystroke.shift then [shift] else []
    let modifiers := if keystroke.altgr then altgr :: shifted else shifted
    andThen (if keystroke.shift then pressModifier answers shift [] else makeAll answers []) <|
    andThen (if keystroke.altgr then pressModifier answers altgr shifted
      else makeAll answers []) <|
    andThen (pressModifier answers base modifiers) <|
    andThen (cleanedUp (make answers (key base false)) (releaseModifiers answers modifiers)) <|
    releaseModifiers answers modifiers

def modifierKeycode (needed : Bool) (keycode : UInt32) (modifier : String) : Except Error UInt8 :=
  if needed then requiredModifierKeycode keycode modifier else .ok 0

def synthesizeEach (shift altgr : UInt8) : List Keystroke → Work
  | [] => make answers .flush
  | keystroke :: rest =>
    andThen (synthesizeKeystroke answers keystroke shift altgr) (synthesizeEach shift altgr rest)

/-- The modifiers are resolved before the first call. -/
def resolve (keymap : Except Error Keymap)
    (strokesOf : Keymap → Except Error (List Keystroke)) :
    Except Error (UInt8 × UInt8 × List Keystroke) := do
  let keymap ← keymap
  let keystrokes ← strokesOf keymap
  let shift ← modifierKeycode (keystrokes.any (·.shift)) keymap.shiftKeycode "Shift"
  let altgr ← modifierKeycode (keystrokes.any (·.altgr)) keymap.altgrKeycode "AltGr"
  return (shift, altgr, keystrokes)

def synthesizeAll : Except Error (UInt8 × UInt8 × List Keystroke) → Work
  | .error error => fail error
  | .ok (shift, altgr, keystrokes) => synthesizeEach answers shift altgr keystrokes

def typeText (keymap : Except Error Keymap) (utf8 : String) : Work :=
  synthesizeAll answers (resolve keymap (·.textToKeystrokes utf8))

def pressKey (keymap : Except Error Keymap) (name : String) : Work :=
  synthesizeAll answers <| resolve keymap fun keymap =>
    match keymap.keystrokeForKey name with
    | none => .error ⟨.unsupportedCharacter, "named key is not available in keymap: " ++ name⟩
    | some keystroke => .ok [keystroke]

/-! ## Buttons -/

def click (code : UInt8) : Work :=
  makeAll answers [button code true, button code false, .flush]

def clickAt (x y : Int) (code : UInt8) : Work :=
  andThen (makeAll answers [.movePointerAbsolute x y, .flush]) (click answers code)

/-- A wheel notch is a press and a release of the direction's button. -/
def notches : Nat → PointerButton → Work
  | 0, _ => makeAll answers []
  | count + 1, wheel =>
    andThen (makeAll answers [button (buttonCode wheel) true, button (buttonCode wheel) false])
      (notches count wheel)

def magnitude (value : Int32) : Nat := min value.toInt.natAbs 2147483647

def scroll (dx dy : Int32) : Work :=
  andThen (notches answers (magnitude dy) (if 0 < dy then .wheelDown else .wheelUp)) <|
  andThen (notches answers (magnitude dx) (if 0 < dx then .wheelRight else .wheelLeft)) <|
  make answers .flush

def walk (points : List Point) : List SeatCall :=
  points.flatMap fun point => [.movePointerAbsolute point.x point.y, .flush]

/-- What a drag refuses before it makes a call. -/
def refusal (start target : Point) (options : DragOptions) (points : List Point) : Option Error :=
  if options.interpolationSteps < minimumInterpolationSteps ∨
      maximumInterpolationSteps < options.interpolationSteps then
    some ⟨.invalidArgument, "drag interpolation-step count is out of range"⟩
  else if options.stepDwell < 0 then some ⟨.invalidArgument, "drag dwell must not be negative"⟩
  else if (start :: target :: points).all Kernel.inSeatRange then none
  else some ⟨.invalidArgument, "drag coordinate is outside int16 range"⟩

/-- The calls of a drag up to the press. -/
def beginning (start : Point) : List SeatCall :=
  [.movePointerAbsolute start.x start.y, .flush, button primaryButton true]

def executeDrag (start target : Point) (options : DragOptions) (points : List Point) : Work :=
  match refusal start target options points with
  | some error => fail error
  | none =>
    andThen (makeAll answers [.movePointerAbsolute start.x start.y, .flush]) <| committing <|
      andThen (make answers (button primaryButton true)) <|
      andThen (makeAll answers (walk points)) <|
      makeAll answers [button primaryButton false, .flush]

/-! ## Calls of the facade -/

inductive Invocation where
  | click (code : UInt8)
  | clickAt (x y : Int) (code : UInt8)
  | scroll (dx dy : Int32)
  | drag (start target : Point) (options : DragOptions)
  | typeText (utf8 : String)
  | pressKey (name : String)

def Invocation.isDrag : Invocation → Bool
  | .drag .. => true
  | _ => false

/-- A facade that was moved from has no seat; `keymap` is what `ensure_keymap` answers. -/
structure Facade (σ : Type) where
  isOpen : Bool
  keymap : Except Error Keymap
  curves : Kernel.Seat σ

def invoke {σ : Type} (facade : Facade σ) (invocation : Invocation) : Work :=
  if facade.isOpen = false then fail ⟨.internalFault, "Input is not open"⟩
  else
    match invocation with
    | .click code => click answers code
    | .clickAt x y code => clickAt answers x y code
    | .scroll dx dy => scroll answers dx dy
    | .drag start target options =>
      executeDrag answers start target options (Kernel.waypoints facade.curves start target options)
    | .typeText utf8 => typeText answers facade.keymap utf8
    | .pressKey name => pressKey answers facade.keymap name

/-- The seat takes the calls, one after the other. -/
def accepts : Trace → List SeatCall → Bool
  | _, [] => true
  | trace, call :: rest =>
    (answers trace call).isNone && accepts (trace ++ [(call, none)]) rest

/-! ## What is owed -/

/-- A press that succeeded, with no release after it. -/
def Abandoned (control : Control) (trace : Trace) : Prop :=
  ∃ before after, trace = before ++ (.send control true, none) :: after ∧
    ∀ answer, (.send control false, answer) ∉ after

theorem abandoned_concat {answer : Option Error} :
    Abandoned control (trace ++ [(call, answer)]) ↔
      (call = .send control true ∧ answer = none) ∨
        (Abandoned control trace ∧ call ≠ .send control false) := by
  constructor
  · rintro ⟨before, after, parts, kept⟩
    rcases eq_nil_or_concat' after with rfl | ⟨earlier, last, rfl⟩
    · obtain ⟨_, same⟩ := append_inj' parts rfl
      cases same
      exact .inl ⟨rfl, rfl⟩
    · rw [← cons_append, ← append_assoc] at parts
      obtain ⟨rfl, same⟩ := append_inj' parts rfl
      cases same
      refine .inr ⟨⟨before, earlier, rfl, fun other inside => kept other ?_⟩, ?_⟩
      · exact mem_append_left _ inside
      rintro rfl
      exact kept _ (mem_append_right _ mem_cons_self)
  · rintro (⟨rfl, rfl⟩ | ⟨⟨before, after, rfl, kept⟩, different⟩)
    · exact ⟨trace, [], rfl, fun _ => not_mem_nil⟩
    · refine ⟨before, after ++ [(call, answer)], by simp, fun other inside => ?_⟩
      rcases mem_append.mp inside with earlier | last
      · exact kept other earlier
      · cases mem_singleton.mp last
        exact different rfl

/-- Nothing is owed but these controls. -/
def Owes (held : List Control) (trace : Trace) : Prop :=
  ∀ control, Abandoned control trace → control ∈ held

/-- What work owes after a trace that owes `before`, where it succeeds and where it fails. -/
def Leaves (before : List Control) (work : Work) (after failed : List Control) : Prop :=
  ∀ trace, Owes before trace →
    Owes (if (work trace).1 = none then after else failed) (work trace).2

variable {answers} {before after failed final held : List Control} {first second work : Work}
  {calls : List SeatCall} {options : DragOptions} {start target : Point} {points : List Point}

theorem Leaves.andThen (leaves : Leaves before first after failed)
    (later : Leaves after second final failed) :
    Leaves before (andThen first second) final failed := by
  intro trace owes
  have made := leaves trace owes
  rw [InputFacade.andThen]
  split at made
  · next succeeded =>
    rw [if_pos succeeded]
    exact later _ made
  · next unsuccessful =>
    rw [if_neg unsuccessful, if_neg unsuccessful]
    exact made

theorem Leaves.cleanedUp (leaves : Leaves before first after held)
    (cleans : Leaves held second failed failed) :
    Leaves before (cleanedUp first second) after failed := by
  intro trace owes
  have made := leaves trace owes
  rw [InputFacade.cleanedUp]
  split at made
  · next succeeded =>
    rw [if_pos succeeded, if_pos succeeded]
    exact made
  · next unsuccessful =>
    have cleaned := cleans _ made
    rw [ite_self] at cleaned
    rw [if_neg unsuccessful, if_neg unsuccessful]
    exact cleaned

theorem leaves_quiet (quiet : call.isSend = false) : Leaves held (make answers call) held held := by
  intro trace owes
  rw [ite_self]
  intro control abandoned
  rcases abandoned_concat.mp abandoned with ⟨rfl, _⟩ | ⟨earlier, _⟩
  · cases quiet
  · exact owes control earlier

theorem leaves_press : Leaves held (make answers (.send control true)) (control :: held) held := by
  intro trace owes other abandoned
  rcases abandoned_concat.mp abandoned with ⟨same, succeeded⟩ | ⟨earlier, _⟩
  · cases same
    rw [make, if_pos succeeded]
    exact mem_cons_self
  · split
    · exact mem_cons_of_mem _ (owes other earlier)
    · exact owes other earlier

theorem leaves_release :
    Leaves (control :: held) (make answers (.send control false)) held held := by
  intro trace owes
  rw [ite_self]
  intro other abandoned
  rcases abandoned_concat.mp abandoned with ⟨impossible, _⟩ | ⟨earlier, different⟩
  · cases impossible
  rcases mem_cons.mp (owes other earlier) with rfl | inside
  · exact absurd rfl different
  · exact inside

theorem leaves_fail {error : Error} : Leaves held (fail error) after held := fun _ owes => owes

theorem leaves_nothing : Leaves held (makeAll answers []) held failed := fun _ owes => owes

/-! ## Every operation but the drag -/

theorem leaves_releaseModifiers (modifiers : List UInt8) :
    Leaves (modifiers.map .key ++ held) (releaseModifiers answers modifiers) held held := by
  induction modifiers with
  | nil => exact fun _ owes => owes
  | cons keycode earlier later =>
    intro trace owes
    have released := @leaves_release answers _ _ trace owes
    rw [ite_self] at released ⊢
    have finished := later _ released
    rw [ite_self] at finished
    exact finished

theorem leaves_pressModifier (keycode : UInt8) (modifiers : List UInt8) :
    Leaves (modifiers.map .key ++ held) (pressModifier answers keycode modifiers)
      ((keycode :: modifiers).map .key ++ held) held :=
  leaves_press.cleanedUp (leaves_releaseModifiers modifiers)

theorem leaves_needed (needed : Bool) (keycode : UInt8) (modifiers : List UInt8) :
    Leaves (modifiers.map .key ++ held)
      (if needed then pressModifier answers keycode modifiers else makeAll answers [])
      ((if needed then keycode :: modifiers else modifiers).map .key ++ held) held := by
  cases needed
  · exact @leaves_nothing answers _ _
  · exact leaves_pressModifier keycode modifiers

theorem leaves_synthesizeKeystroke (keystroke : Keystroke) (shift altgr : UInt8) :
    Leaves held (synthesizeKeystroke answers keystroke shift altgr) held held := by
  rw [synthesizeKeystroke]
  split
  · exact leaves_fail
  · exact (leaves_needed _ shift []).andThen <| (leaves_needed _ altgr _).andThen <|
      (leaves_pressModifier _ _).andThen <|
      (leaves_release.cleanedUp (leaves_releaseModifiers _)).andThen (leaves_releaseModifiers _)

theorem leaves_synthesizeEach (shift altgr : UInt8) (keystrokes : List Keystroke) :
    Leaves held (synthesizeEach answers shift altgr keystrokes) held held := by
  induction keystrokes with
  | nil => exact leaves_quiet rfl
  | cons keystroke rest later => exact (leaves_synthesizeKeystroke _ _ _).andThen later

theorem leaves_synthesizeAll (resolved : Except Error (UInt8 × UInt8 × List Keystroke)) :
    Leaves held (synthesizeAll answers resolved) held held := by
  cases resolved with
  | error error => exact leaves_fail
  | ok resolved => exact leaves_synthesizeEach _ _ _

theorem leaves_click (code : UInt8) : Leaves held (click answers code) held held :=
  leaves_press.andThen (leaves_release.andThen ((leaves_quiet rfl).andThen leaves_nothing))

theorem leaves_notches (count : Nat) (wheel : PointerButton) :
    Leaves held (notches answers count wheel) held held := by
  induction count with
  | zero => exact leaves_nothing
  | succ count later =>
    exact (leaves_press.andThen (leaves_release.andThen leaves_nothing)).andThen later

theorem leaves_undragged {σ : Type} (facade : Facade σ) {invocation : Invocation}
    (drags : invocation.isDrag = false) :
    Leaves held (invoke answers facade invocation) held held := by
  unfold invoke
  split
  · exact leaves_fail
  cases invocation with
  | click code => exact leaves_click code
  | clickAt x y code =>
    exact ((leaves_quiet rfl).andThen ((leaves_quiet rfl).andThen leaves_nothing)).andThen
      (leaves_click code)
  | scroll dx dy =>
    exact (leaves_notches _ _).andThen ((leaves_notches _ _).andThen (leaves_quiet rfl))
  | drag start target options => cases drags
  | typeText utf8 => exact leaves_synthesizeAll _
  | pressKey name => exact leaves_synthesizeAll _

/-- Only a drag that is not refused can leave something pressed. -/
theorem leaves_invoke {σ : Type} (facade : Facade σ) {invocation : Invocation}
    (refused : ∀ start target options, invocation = .drag start target options →
      facade.isOpen = true →
      refusal start target options (Kernel.waypoints facade.curves start target options) ≠ none) :
    Leaves [] (invoke answers facade invocation) [] [] := by
  cases invocation with
  | drag start target options =>
    unfold invoke
    split
    · exact leaves_fail
    next isOpen =>
    dsimp only [executeDrag]
    split
    · exact leaves_fail
    · next admitted =>
      exact absurd admitted (refused start target options rfl (by simpa using isOpen))
  | _ => exact leaves_undragged facade rfl

/-! ## The drag -/

theorem makeAll_append (calls rest : List SeatCall) :
    makeAll answers (calls ++ rest) = andThen (makeAll answers calls) (makeAll answers rest) := by
  funext trace
  induction calls generalizing trace with
  | nil => simp [makeAll, andThen]
  | cons call calls later =>
    simp only [cons_append, makeAll, andThen] at later ⊢
    split
    · exact later _
    · rfl

theorem makeAll_accepted (accepted : accepts answers trace calls = true) :
    makeAll answers calls trace = (none, trace ++ calls.map fun call => (call, none)) := by
  induction calls generalizing trace with
  | nil => simp [makeAll]
  | cons call rest later =>
    rw [accepts, Bool.and_eq_true, Option.isNone_iff_eq_none] at accepted
    rw [makeAll, andThen, make, if_pos accepted.1, accepted.1, later accepted.2]
    simp

theorem makeAll_refused (refused : ¬accepts answers trace calls = true) :
    (makeAll answers calls trace).1 ≠ none := by
  induction calls generalizing trace with
  | nil => exact absurd rfl refused
  | cons call rest later =>
    rw [makeAll, andThen]
    split
    · next accepted =>
      apply later
      change answers trace call = none at accepted
      simpa [accepts, make, accepted] using refused
    · next failed => exact failed

theorem leaves_makeAll (quiet : ∀ call ∈ calls, call.isSend = false) :
    Leaves held (makeAll answers calls) held held := by
  induction calls with
  | nil => exact leaves_nothing
  | cons call rest later =>
    exact (leaves_quiet (quiet call mem_cons_self)).andThen
      (later fun other inRest => quiet other (mem_cons_of_mem _ inRest))

theorem abandoned_makeAll (quiet : ∀ call ∈ calls, call.isSend = false)
    (abandoned : Abandoned control trace) : Abandoned control (makeAll answers calls trace).2 := by
  induction calls generalizing trace with
  | nil => exact abandoned
  | cons call rest later =>
    have still : Abandoned control (make answers call trace).2 := by
      refine abandoned_concat.mpr (.inr ⟨abandoned, ?_⟩)
      rintro rfl
      cases quiet _ mem_cons_self
    rw [makeAll, andThen]
    split
    · exact later (fun other inRest => quiet other (mem_cons_of_mem _ inRest)) still
    · exact still

theorem quiet_walk (points : List Point) : ∀ call ∈ walk points, call.isSend = false := by
  intro call inside
  rcases mem_flatMap.mp inside with ⟨point, _, same⟩
  simp only [mem_cons, not_mem_nil, or_false] at same
  rcases same with rfl | rfl <;> rfl

/-- A drag that is not refused makes these calls, up to the first that fails. -/
theorem executeDrag_trace (admitted : refusal start target options points = none) (trace : Trace) :
    (executeDrag answers start target options points trace).2 =
      (makeAll answers (beginning start ++ (walk points ++
        [button primaryButton false, .flush])) trace).2 := by
  have grouped : beginning start ++ (walk points ++ [button primaryButton false, .flush]) =
      [.movePointerAbsolute start.x start.y, .flush] ++ button primaryButton true ::
        (walk points ++ [button primaryButton false, .flush]) := rfl
  rw [grouped, makeAll_append, makeAll.eq_2 _ (button primaryButton true), makeAll_append]
  simp only [executeDrag, admitted]
  rw [andThen, andThen.eq_1 _ (andThen _ _)]
  split <;> rfl

theorem leaves_beginning (start : Point) :
    Leaves [] (makeAll answers (beginning start)) [.button primaryButton] [] :=
  (leaves_quiet rfl).andThen ((leaves_quiet rfl).andThen (leaves_press.andThen leaves_nothing))

theorem leaves_lift : Leaves (.button primaryButton :: held)
    (makeAll answers [button primaryButton false, .flush]) held held :=
  leaves_release.andThen ((leaves_quiet rfl).andThen leaves_nothing)

theorem owes_nil : Owes [] [] := by
  rintro control ⟨before, after, parts, _⟩
  simp at parts

/-- A drag whose press was taken abandons it unless every step of the walk is taken. -/
theorem drag_exact (admitted : refusal start target options points = none) :
    (∀ control, ¬Abandoned control (executeDrag answers start target options points []).2) ↔
      (accepts answers [] (beginning start) →
        accepts answers ((beginning start).map fun call => (call, none)) (walk points)) := by
  rw [executeDrag_trace admitted, makeAll_append, andThen]
  have begun := @leaves_beginning answers start [] owes_nil
  by_cases pressed : accepts answers [] (beginning start)
  · have pressing := makeAll_accepted pressed
    rw [nil_append] at pressing
    rw [pressing, if_pos rfl] at begun ⊢
    rw [makeAll_append, andThen]
    have walked := @leaves_makeAll answers _ _ (quiet_walk points) _ begun
    rw [ite_self] at walked
    constructor
    · intro kept _
      by_contra refused
      rw [if_neg (makeAll_refused refused)] at kept
      have held : Abandoned (.button primaryButton) ((beginning start).map fun call =>
          (call, (none : Option Error))) := ⟨[(_, none), (_, none)], [], rfl, fun _ => not_mem_nil⟩
      exact kept _ (abandoned_makeAll (quiet_walk points) held)
    · intro accepted control abandoned
      rw [makeAll_accepted (accepted pressed)] at walked abandoned
      have lifted := @leaves_lift answers _ _ walked
      rw [ite_self] at lifted
      exact absurd (lifted control abandoned) not_mem_nil
  · have failed := makeAll_refused pressed
    rw [if_neg failed] at begun ⊢
    exact ⟨fun _ accepted => absurd accepted pressed,
      fun _ control abandoned => absurd (begun control abandoned) not_mem_nil⟩

/-- A call of the facade leaves nothing pressed, unless it is a drag of which a step fails after the
button went down. -/
theorem invoke_exact {σ : Type} (answers : Trace → SeatCall → Option Error) (facade : Facade σ)
    (invocation : Invocation) :
    (∀ control, ¬Abandoned control (invoke answers facade invocation []).2) ↔
      ∀ start target options, invocation = .drag start target options → facade.isOpen = true →
        refusal start target options (Kernel.waypoints facade.curves start target options) =
          none →
        accepts answers [] (beginning start) →
        accepts answers ((beginning start).map fun call => (call, none))
          (walk (Kernel.waypoints facade.curves start target options)) := by
  by_cases passes : ∃ start target options, invocation = .drag start target options ∧
      facade.isOpen = true ∧ refusal start target options
        (Kernel.waypoints facade.curves start target options) = none
  · obtain ⟨start, target, options, rfl, isOpen, admitted⟩ := passes
    simp only [invoke, isOpen]
    refine (drag_exact admitted).trans ⟨?_, fun all => all _ _ _ rfl trivial admitted⟩
    rintro walked _ _ _ ⟨⟩ _ _
    exact walked
  · have lifted := @leaves_invoke answers _ facade _ (fun start target options same isOpen free =>
      passes ⟨start, target, options, same, isOpen, free⟩) [] owes_nil
    rw [ite_self] at lifted
    exact iff_of_true (fun control abandoned => absurd (lifted control abandoned) not_mem_nil)
      fun start target options same isOpen admitted =>
        absurd ⟨start, target, options, same, isOpen, admitted⟩ passes

/-- The seat refuses the first step of the walk of a drag. -/
theorem drag_abandons :
    ¬∀ (answers : Trace → SeatCall → Option Error) (facade : Facade Unit)
      (invocation : Invocation) (control : Control),
      ¬Abandoned control (invoke answers facade invocation []).2 := by
  intro safe
  have lost : Error := ⟨.internalFault, "lost"⟩
  refine safe (fun trace _ => if trace.length = 3 then some lost else none)
    ⟨true, .error lost, Kernel.echoSeat fun _ => true⟩
    (.drag ⟨0, 0⟩ ⟨1, 0⟩ { interpolationSteps := 1 }) (.button primaryButton)
    ⟨[(.movePointerAbsolute 0 0, none), (.flush, none)],
      [(.movePointerAbsolute 1 0, some lost)], rfl, by simp⟩

/-! ## Many calls -/

theorem Leaves.weaken (leaves : Leaves before first after failed) (more : after ⊆ final)
    (moreFailed : failed ⊆ held) : Leaves before first final held := by
  intro trace owes control abandoned
  have made := leaves trace owes control abandoned
  split
  · next succeeded => exact more (by rwa [if_pos succeeded] at made)
  · next unsuccessful => exact moreFailed (by rwa [if_neg unsuccessful] at made)

/-- Whatever fails in it, a drag owes the primary button at most. -/
theorem leaves_executeDrag : Leaves held (executeDrag answers start target options points)
    (.button primaryButton :: held) (.button primaryButton :: held) := by
  have kept := subset_cons_self (.button primaryButton) held
  unfold executeDrag
  split
  · exact leaves_fail.weaken (fun _ => id) kept
  · have moved : Leaves held (makeAll answers [.movePointerAbsolute start.x start.y, .flush])
        held held := (leaves_quiet rfl).andThen ((leaves_quiet rfl).andThen leaves_nothing)
    have pressed := @leaves_press answers (.button primaryButton) held
    have dragged := (pressed.weaken (fun _ => id) kept).andThen
      ((@leaves_makeAll answers _ _ (quiet_walk points)).andThen
        ((@leaves_lift answers _).weaken kept kept))
    refine (moved.weaken (fun _ => id) kept).andThen fun trace owes => ?_
    have made := dragged trace owes
    rw [ite_self] at made ⊢
    exact made

/-- Calls of a facade one after the other, whatever they answer. -/
def invokeAll {σ : Type} (answers : Trace → SeatCall → Option Error) (facade : Facade σ)
    (invocations : List Invocation) (trace : Trace) : Trace :=
  invocations.foldl (fun trace invocation => (invoke answers facade invocation trace).2) trace

theorem owes_invokeAll {σ : Type} (facade : Facade σ) (invocations : List Invocation)
    (owes : Owes held trace) :
    Owes (if invocations.any Invocation.isDrag then .button primaryButton :: held else held)
      (invokeAll answers facade invocations trace) := by
  induction invocations generalizing held trace with
  | nil => exact owes
  | cons first rest later =>
    cases drags : first.isDrag with
    | true =>
      have made : Owes (.button primaryButton :: held) (invoke answers facade first trace).2 := by
        cases first with
        | drag start target options =>
          rw [invoke]
          split
          · exact fun control abandoned => mem_cons_of_mem _ (owes control abandoned)
          · have dragged := @leaves_executeDrag answers held options start target
              (Kernel.waypoints facade.curves start target options) trace owes
            rwa [ite_self] at dragged
        | _ => cases drags
      rw [any_cons, drags, Bool.true_or, if_pos rfl]
      intro control abandoned
      have inside := later made control abandoned
      split at inside
      · exact mem_cons.mpr ((mem_cons.mp inside).elim .inl mem_cons.mp)
      · exact inside
    | false =>
      have made := @leaves_undragged answers _ _ facade _ drags trace owes
      rw [ite_self] at made
      rw [any_cons, drags, Bool.false_or]
      exact later made

/-- Whatever the seat answers, no run of calls abandons a key or another button, and none abandons
the primary button without a drag. -/
theorem invokeAll_owes {σ : Type} (answers : Trace → SeatCall → Option Error) (facade : Facade σ)
    (invocations : List Invocation) :
    Owes (if invocations.any Invocation.isDrag then [.button primaryButton] else [])
      (invokeAll answers facade invocations []) :=
  owes_invokeAll facade invocations owes_nil

end

end Grab.Desktop.InputFacade
