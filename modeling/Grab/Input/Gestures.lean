import Grab.Input.GestureClassifier

/-!
# The grammar of gestures

What a classifier puts out does not depend on how often it is asked between the events, and the
gestures of the buttons are those of a row of presses, one after another: a press ends in a click,
together with the next press in a double click, in a hold that is ended or cancelled, or by
leaving the slop.
-/

namespace Grab.Input

open Grab.Lib Grab.Events List

variable {K : Type} [Zero K] {timestamp : ℚ} {now : Int}

/-! ## Moments -/

theorem eventTime_le (before : timestamp * 1000 ≤ now) : eventTime timestamp ≤ now := by
  unfold eventTime
  split
  · have below := Int.floor_le (timestamp * 1000)
    have cast : ((⌊timestamp * 1000⌋ : Int) : ℚ) ≤ now := le_trans below before
    exact_mod_cast cast
  · exact Int.ceil_le.mpr before

theorem le_eventTime (after : (now : ℚ) ≤ timestamp * 1000) : now ≤ eventTime timestamp := by
  unfold eventTime
  split
  · exact Int.le_floor.mpr after
  · have above := Int.le_ceil (timestamp * 1000)
    have cast : (now : ℚ) ≤ (⌈timestamp * 1000⌉ : Int) := le_trans after above
    exact_mod_cast cast

theorem eventTime_mono {early late : ℚ} (ordered : early ≤ late) :
    eventTime early ≤ eventTime late := by
  have scaled : early * 1000 ≤ late * 1000 := by linarith
  unfold eventTime
  split_ifs with first second second
  · exact Int.floor_mono scaled
  · linarith
  · have negative : early * 1000 ≤ 0 := by linarith
    have positive : 0 ≤ late * 1000 := by linarith
    calc
      ⌈early * 1000⌉ ≤ 0 := Int.ceil_le.mpr (by exact_mod_cast negative)
      _ ≤ ⌊late * 1000⌋ := Int.floor_nonneg.mpr positive
  · exact Int.ceil_mono scaled

/-! ## Calls -/

inductive Call (K : Type) [Zero K] where
  | feed (event : PointerEvent K)
  | advance (now : Int)

namespace Call

/-- Milliseconds, not rounded. -/
def instant : Call K → ℚ
  | .feed event => event.timestamp * 1000
  | .advance now => now

def isFeed : Call K → Bool
  | .feed _ => true
  | .advance _ => false

def input : Call K → Input (PointerEvent K) Int
  | .feed event => .event event (eventTime event.timestamp)
  | .advance now => .tick now

theorem input_mono {first second : Call K} (ordered : first.instant ≤ second.instant) :
    first.input.instant ≤ second.input.instant := by
  cases first with
  | feed early =>
    cases second with
    | feed late =>
      apply eventTime_mono
      change early.timestamp * 1000 ≤ late.timestamp * 1000 at ordered
      linarith
    | advance now => exact eventTime_le ordered
  | advance now =>
    cases second with
    | feed late => exact le_eventTime ordered
    | advance later =>
      change (now : ℚ) ≤ (later : ℚ) at ordered
      change now ≤ later
      exact_mod_cast ordered

@[simp]
theorem isEvent_input (call : Call K) : call.input.isEvent = call.isFeed := by
  cases call <;> rfl

end Call

section

variable [Sub K] [LT K] [DecidableLT K] (hypot : K → K → K)

def Call.apply (call : Call K) (classifier : GestureClassifier K) :
    GestureClassifier K × List (GestureEvent K) :=
  match call with
  | .feed event => classifier.feed hypot event
  | .advance now => classifier.advance now

/-- The classifier after some calls and all that it put out. -/
def runCalls : List (Call K) → GestureClassifier K → GestureClassifier K × List (GestureEvent K)
  | [], classifier => (classifier, [])
  | call :: rest, classifier => andThen (call.apply hypot classifier) (runCalls rest)

/-! ## Asking more often -/

def classifierMachine :
    LazyMachine (GestureClassifier K) (PointerEvent K) (GestureEvent K) Int where
  lapse := GestureClassifier.processDeadline
  act := GestureClassifier.handle hypot

/-- A deadline that has passed fires once, and fires later when it does not fire now. -/
theorem classifierMachine_absorbs : (classifierMachine hypot).Absorbs := by
  intro classifier early late ordered
  change andThen (classifier.processDeadline early) (GestureClassifier.processDeadline late) =
    classifier.processDeadline late
  rcases classifier with ⟨thresholds, state, pressAt, pressTime, movedAt, movedTime, owner, down⟩
  unfold andThen
  cases state with
  | idle | holding | postDouble => rfl
  | pressed =>
    by_cases fires : thresholds.hold ≤ early - pressTime
    · have later : thresholds.hold ≤ late - pressTime := by omega
      simp [GestureClassifier.processDeadline, fires, later]
    · simp [GestureClassifier.processDeadline, fires]
  | moving =>
    by_cases fires : thresholds.pause ≤ early - movedTime
    · have later : thresholds.pause ≤ late - movedTime := by omega
      simp [GestureClassifier.processDeadline, fires, later]
    · simp [GestureClassifier.processDeadline, fires]
  | awaitDouble =>
    by_cases fires : thresholds.doubleClick < early - pressTime
    · have later : thresholds.doubleClick < late - pressTime := by omega
      simp [GestureClassifier.processDeadline, fires, later, GestureClassifier.buttonIsDown]
    · simp [GestureClassifier.processDeadline, fires]

theorem runCalls_eq_run (calls : List (Call K)) (classifier : GestureClassifier K) :
    runCalls hypot calls classifier =
      (classifierMachine hypot).run (calls.map Call.input) classifier := by
  induction calls generalizing classifier with
  | nil => rfl
  | cons call rest ih =>
    have applied : call.apply hypot classifier =
        (classifierMachine hypot).step call.input classifier := by
      cases call <;> rfl
    rw [map_cons, LazyMachine.run, runCalls, applied]
    unfold andThen
    rw [ih]

/-- Calls of `advance` between events change neither what is put out nor the classifier. -/
theorem runCalls_filter_isFeed (calls : List (Call K)) (event : PointerEvent K)
    (sorted : (calls ++ [Call.feed event]).Pairwise fun first second : Call K =>
      first.instant ≤ second.instant) (classifier : GestureClassifier K) :
    runCalls hypot (calls ++ [.feed event]) classifier =
      runCalls hypot (calls.filter Call.isFeed ++ [.feed event]) classifier := by
  rw [pairwise_append] at sorted
  rcases sorted with ⟨before, -, last⟩
  have inputs : (calls.filter Call.isFeed).map Call.input =
      (calls.map Call.input).filter Input.isEvent := by
    rw [filter_map]
    congr 1
    apply filter_congr
    intro call _
    exact call.isEvent_input.symm
  rw [runCalls_eq_run, runCalls_eq_run, map_append, map_append, inputs]
  apply (classifierMachine_absorbs hypot).run_event
  · rw [pairwise_map]
    exact before.imp Call.input_mono
  · intro input member
    rcases mem_map.mp member with ⟨call, inCalls, rfl⟩
    exact Call.input_mono (last call inCalls (.feed event) (mem_singleton_self _))

end

/-! ## Presses and their outcomes -/

/-- What happens to the presses: one takes part in a gesture, one leaves the slop, or a gesture is
put out. -/
inductive Mark where
  | press (button : UInt32)
  | slipped
  | gesture (kind : Gesture) (button : UInt32)
  deriving DecidableEq, Repr

namespace Mark

def gesture? : Mark → Option (Gesture × UInt32)
  | .gesture kind button => some (kind, button)
  | _ => none

def isPress : Mark → Bool
  | .press _ => true
  | _ => false

/-- Moves and pauses belong to no press. -/
def isOfPress : Mark → Bool
  | .gesture .move _ | .gesture .pause _ => false
  | _ => true

end Mark

/-- A double click takes the press that makes it double. -/
def markOf (gesture : GestureEvent K) : List Mark :=
  if gesture.kind = .doubleClick then
    [.press gesture.button, .gesture .doubleClick gesture.button]
  else [.gesture gesture.kind gesture.button]

/-- The marks of what is done about one event: a press starts a gesture when it takes the
classifier to `pressed`, and a gesture that leaves `pressed` other than by a release inside the
slop has slipped. -/
def marksOf (before : GestureClassifier K) (done : GestureClassifier K × List (GestureEvent K)) :
    List Mark :=
  (if before.state = .pressed ∧ done.1.state ≠ .pressed ∧ done.1.state ≠ .awaitDouble then
    [.slipped] else []) ++
  done.2.flatMap markOf ++
  (if before.state ≠ .pressed ∧ done.1.state = .pressed then [.press done.1.ownerButton] else [])

section

variable [Sub K] [LT K] [DecidableLT K] (hypot : K → K → K)

def Call.marks (call : Call K) (classifier : GestureClassifier K) : List Mark :=
  match call with
  | .feed event =>
    let now := eventTime event.timestamp
    let (middle, lapsed) := classifier.processDeadline now
    lapsed.flatMap markOf ++ marksOf middle (middle.handle hypot event now)
  | .advance now => (classifier.processDeadline now).2.flatMap markOf

/-- Everything that happens to the presses along some calls. -/
def story : List (Call K) → GestureClassifier K → List Mark
  | [], _ => []
  | call :: rest, classifier =>
    call.marks hypot classifier ++ story rest (call.apply hypot classifier).1

end

theorem marksOf_stay (classifier : GestureClassifier K) :
    marksOf classifier (classifier, []) = [] := by
  unfold marksOf
  cases classifier.state <;> rfl

inductive Outcome where
  | clicked | doubled | ended | cancelled | slipped
  deriving DecidableEq, Repr

/-- One press, or the two of a double click, and what became of it. -/
structure Press where
  button : UInt32
  outcome : Outcome
  deriving DecidableEq, Repr

def Press.marks (press : Press) : List Mark :=
  match press.outcome with
  | .clicked => [.press press.button, .gesture .click press.button]
  | .doubled => [.press press.button, .press press.button, .gesture .doubleClick press.button]
  | .ended =>
    [.press press.button, .gesture .hold press.button, .gesture .holdEnd press.button]
  | .cancelled =>
    [.press press.button, .gesture .hold press.button, .gesture .holdCancel press.button]
  | .slipped => [.press press.button, .slipped]

/-- The marks of the press that has no outcome yet. -/
def openMarks (classifier : GestureClassifier K) : List Mark :=
  match classifier.state with
  | .pressed | .awaitDouble => [.press classifier.ownerButton]
  | .holding => [.press classifier.ownerButton, .gesture .hold classifier.ownerButton]
  | .idle | .moving | .postDouble => []

/-- Marks that lead from one classifier to another: presses with their outcomes, the first of
which may have been open before and the last of which may stay open. -/
def Leads (before : GestureClassifier K) (marks : List Mark) (after : GestureClassifier K) :
    Prop :=
  ∃ presses : List Press, openMarks before ++ marks.filter Mark.isOfPress =
    presses.flatMap Press.marks ++ openMarks after

namespace Leads

variable {before middle after : GestureClassifier K} {first second : List Mark}

/-- Nothing became of any press. -/
theorem none_resolved (same : openMarks before ++ first.filter Mark.isOfPress =
    openMarks after) : Leads before first after :=
  ⟨[], same⟩

theorem resolved (press : Press) (same : openMarks before ++ first.filter Mark.isOfPress =
    press.marks ++ openMarks after) : Leads before first after :=
  ⟨[press], by rw [flatMap_singleton]; exact same⟩

theorem trans (here : Leads before first middle) (further : Leads middle second after) :
    Leads before (first ++ second) after := by
  rcases here with ⟨early, split⟩
  rcases further with ⟨late, rest⟩
  apply Exists.intro (early ++ late)
  calc
    openMarks before ++ (first ++ second).filter Mark.isOfPress
      = openMarks before ++ first.filter Mark.isOfPress ++ second.filter Mark.isOfPress := by
          rw [filter_append, append_assoc]
    _ = early.flatMap Press.marks ++ (openMarks middle ++ second.filter Mark.isOfPress) := by
          rw [split, append_assoc]
    _ = (early ++ late).flatMap Press.marks ++ openMarks after := by
          rw [rest, flatMap_append, append_assoc]

end Leads

/-! ## One step -/

theorem leads_processDeadline (classifier : GestureClassifier K) (now : Int) :
    Leads classifier ((classifier.processDeadline now).2.flatMap markOf)
      (classifier.processDeadline now).1 := by
  rcases classifier with ⟨thresholds, state, pressAt, pressTime, movedAt, movedTime, owner, down⟩
  cases state with
  | idle | holding | postDouble => exact .none_resolved rfl
  | pressed | moving =>
    unfold GestureClassifier.processDeadline
    dsimp only
    split <;> exact .none_resolved rfl
  | awaitDouble =>
    unfold GestureClassifier.processDeadline
    dsimp only
    split
    · exact .resolved ⟨owner, .clicked⟩ rfl
    · exact .none_resolved rfl

/-- Whether a press is open is told by the state. -/
theorem openMarks_eq_nil {first second : GestureClassifier K} (same : second.state = first.state)
    (closed : openMarks first = []) : openMarks second = [] := by
  unfold openMarks at closed ⊢
  rw [same]
  cases state : first.state <;> simp_all

variable {before marked : GestureClassifier K}

/-- A press outside a gesture opens one, or only claims the button. -/
theorem leads_claim (closed : openMarks before = []) (same : marked.state = before.state)
    (ownerIsDown : Bool) (button : UInt32) (position : Option (Position K)) (now : Int) :
    Leads before (marksOf before (marked.claim ownerIsDown button position now, []))
      (marked.claim ownerIsDown button position now) := by
  apply Leads.none_resolved
  have apart : before.state ≠ .pressed := by
    intro pressed
    simp [openMarks, pressed] at closed
  rw [closed]
  cases ownerIsDown with
  | true =>
    have stays : openMarks marked = [] := openMarks_eq_nil same closed
    simp [GestureClassifier.claim, marksOf, apart, same, stays]
  | false =>
    cases position with
    | none =>
      have stays : openMarks { marked with ownerButton := button } = [] :=
        openMarks_eq_nil same closed
      simpa [GestureClassifier.claim, marksOf, apart, same] using stays
    | some position =>
      simp [GestureClassifier.claim, GestureClassifier.beginPress, marksOf, apart, openMarks,
        Mark.isOfPress]

section

variable [Sub K] [LT K] [DecidableLT K] (hypot : K → K → K) (classifier : GestureClassifier K)

theorem leads_handleMotion (position : Position K) (now : Int) :
    Leads classifier (marksOf classifier (classifier.handleMotion hypot position now))
      (classifier.handleMotion hypot position now).1 := by
  rcases classifier with ⟨thresholds, state, pressAt, pressTime, movedAt, movedTime, owner, down⟩
  cases state with
  | idle | moving | postDouble => exact .none_resolved rfl
  | pressed =>
    unfold GestureClassifier.handleMotion
    dsimp only
    split
    · exact .resolved ⟨owner, .slipped⟩ rfl
    · exact .none_resolved rfl
  | holding =>
    unfold GestureClassifier.handleMotion
    dsimp only
    split
    · exact .resolved ⟨owner, .cancelled⟩ rfl
    · exact .none_resolved rfl
  | awaitDouble =>
    unfold GestureClassifier.handleMotion
    dsimp only
    split
    · exact .resolved ⟨owner, .clicked⟩ rfl
    · exact .none_resolved rfl

theorem leads_handleButtonDown (button : UInt32) (position : Option (Position K)) (now : Int) :
    Leads classifier
      (marksOf classifier (classifier.handleButtonDown hypot button position now))
      (classifier.handleButtonDown hypot button position now).1 := by
  rcases classifier with ⟨thresholds, state, pressAt, pressTime, movedAt, movedTime, owner, down⟩
  unfold GestureClassifier.handleButtonDown GestureClassifier.markButtonDown
  dsimp only
  split
  · cases state <;> exact .none_resolved rfl
  split
  · cases state <;> exact .none_resolved rfl
  cases state with
  | idle | moving | postDouble => apply leads_claim <;> rfl
  | pressed | holding => exact .none_resolved rfl
  | awaitDouble =>
    dsimp only
    cases position with
    | none => exact .none_resolved rfl
    | some position =>
      dsimp only
      split
      · exact .none_resolved rfl
      rename_i same
      rw [not_not] at same
      subst same
      split
      · exact .resolved ⟨button, .doubled⟩ rfl
      · exact .resolved ⟨button, .clicked⟩ rfl

theorem leads_handleButtonUp (button : UInt32) (position : Option (Position K)) :
    Leads classifier (marksOf classifier (classifier.handleButtonUp hypot button position))
      (classifier.handleButtonUp hypot button position).1 := by
  rcases classifier with ⟨thresholds, state, pressAt, pressTime, movedAt, movedTime, owner, down⟩
  unfold GestureClassifier.handleButtonUp GestureClassifier.markButtonUp
  dsimp only
  split
  · cases state <;> exact .none_resolved rfl
  split
  · cases state <;> exact .none_resolved rfl
  cases state with
  | idle | moving | postDouble | awaitDouble => exact .none_resolved rfl
  | holding => exact .resolved ⟨owner, .ended⟩ rfl
  | pressed =>
    cases position with
    | none => exact .none_resolved rfl
    | some position =>
      dsimp only
      split
      · exact .resolved ⟨owner, .slipped⟩ rfl
      · exact .none_resolved rfl

theorem leads_handle (event : PointerEvent K) (now : Int) (classifier : GestureClassifier K) :
    Leads classifier (marksOf classifier (classifier.handle hypot event now))
      (classifier.handle hypot event now).1 := by
  unfold GestureClassifier.handle
  split
  · exact leads_handleMotion hypot _ _ _
  · exact leads_handleButtonDown hypot _ _ _ _
  · exact leads_handleButtonUp hypot _ _ _
  · apply Leads.none_resolved
    rw [marksOf_stay]
    exact append_nil _

theorem leads_call (call : Call K) (classifier : GestureClassifier K) :
    Leads classifier (call.marks hypot classifier) (call.apply hypot classifier).1 := by
  cases call with
  | feed event =>
    exact (leads_processDeadline classifier (eventTime event.timestamp)).trans
      (leads_handle hypot event _ _)
  | advance now => exact leads_processDeadline classifier now

theorem leads_story (calls : List (Call K)) (classifier : GestureClassifier K) :
    Leads classifier (story hypot calls classifier) (runCalls hypot calls classifier).1 := by
  induction calls generalizing classifier with
  | nil => exact .none_resolved (append_nil _)
  | cons call rest ih => exact (leads_call hypot call classifier).trans (ih _)

/-! ## The story tells what is put out -/

omit [Sub K] [LT K] [DecidableLT K] in
theorem gestures_flatMap_markOf (gestures : List (GestureEvent K)) :
    (gestures.flatMap markOf).filterMap Mark.gesture? =
      gestures.map fun gesture => (gesture.kind, gesture.button) := by
  induction gestures with
  | nil => rfl
  | cons gesture rest ih =>
    rw [flatMap_cons, filterMap_append, ih, map_cons]
    unfold markOf
    split
    · rename_i double
      rw [double]
      rfl
    · rfl

omit [Sub K] [LT K] [DecidableLT K] in
theorem gestures_marksOf (before : GestureClassifier K)
    (done : GestureClassifier K × List (GestureEvent K)) :
    (marksOf before done).filterMap Mark.gesture? =
      done.2.map fun gesture => (gesture.kind, gesture.button) := by
  unfold marksOf
  rw [filterMap_append, filterMap_append, gestures_flatMap_markOf]
  have slipped : [Mark.slipped].filterMap Mark.gesture? = [] := rfl
  have press : ∀ button, [Mark.press button].filterMap Mark.gesture? = [] := fun _ => rfl
  split_ifs <;> simp [slipped, press]

theorem gestures_story (calls : List (Call K)) (classifier : GestureClassifier K) :
    (story hypot calls classifier).filterMap Mark.gesture? =
      (runCalls hypot calls classifier).2.map fun gesture => (gesture.kind, gesture.button) := by
  induction calls generalizing classifier with
  | nil => rfl
  | cons call rest ih =>
    have here : (call.marks hypot classifier).filterMap Mark.gesture? =
        (call.apply hypot classifier).2.map fun gesture => (gesture.kind, gesture.button) := by
      cases call with
      | feed event =>
        unfold Call.marks Call.apply GestureClassifier.feed andThen
        rw [filterMap_append, gestures_flatMap_markOf, gestures_marksOf, map_append]
      | advance now => exact gestures_flatMap_markOf _
    rw [story, runCalls, filterMap_append, ih, here]
    unfold andThen
    rw [map_append]

/-! ## Presses come from events -/

omit [Sub K] [LT K] [DecidableLT K] in
/-- The press an event reports when it has a position. -/
def PointerEvent.press? (event : PointerEvent K) : Option Mark :=
  match event.kind, event.payload with
  | .mouseButtonDown, .mouseButton button (some _) => some (.press button)
  | _, _ => none

omit [Sub K] [LT K] [DecidableLT K] in
def Call.press? : Call K → Option Mark
  | .feed event => event.press?
  | .advance _ => none

omit [Sub K] [LT K] [DecidableLT K] in
theorem presses_processDeadline (classifier : GestureClassifier K) (now : Int) :
    ((classifier.processDeadline now).2.flatMap markOf).filter Mark.isPress = [] := by
  unfold GestureClassifier.processDeadline
  cases classifier.state <;> dsimp only <;> first | rfl | (split <;> rfl)

theorem presses_handleMotion (classifier : GestureClassifier K) (position : Position K)
    (now : Int) :
    (marksOf classifier (classifier.handleMotion hypot position now)).filter Mark.isPress = [] := by
  rcases classifier with ⟨thresholds, state, pressAt, pressTime, movedAt, movedTime, owner, down⟩
  unfold GestureClassifier.handleMotion
  cases state <;> dsimp only <;> first | rfl | (split <;> rfl)

/-- The press of a button, if it has a position. -/
def pressAt? (button : UInt32) (position : Option (Position K)) : List Mark :=
  match position with
  | none => []
  | some _ => [.press button]

omit [Sub K] [LT K] [DecidableLT K] in
theorem presses_claim (same : marked.state = before.state) (ownerIsDown : Bool) (button : UInt32)
    (position : Option (Position K)) (now : Int) :
    ((marksOf before (marked.claim ownerIsDown button position now, [])).filter
      Mark.isPress).Sublist (pressAt? button position) := by
  unfold GestureClassifier.claim GestureClassifier.beginPress marksOf
  cases ownerIsDown with
  | true => cases state : before.state <;> simp [same, state]
  | false =>
    cases position with
    | none => cases state : before.state <;> simp [same, state]
    | some position =>
      cases state : before.state <;> simp [pressAt?, Mark.isPress]

variable (classifier : GestureClassifier K)

theorem presses_handleButtonDown (button : UInt32) (position : Option (Position K)) (now : Int) :
    ((marksOf classifier (classifier.handleButtonDown hypot button position now)).filter
      Mark.isPress).Sublist (pressAt? button position) := by
  rcases classifier with ⟨thresholds, state, pressAt, pressTime, movedAt, movedTime, owner, down⟩
  unfold GestureClassifier.handleButtonDown GestureClassifier.markButtonDown
  dsimp only
  split
  · cases state <;> exact nil_sublist _
  split
  · cases state <;> exact nil_sublist _
  cases state with
  | idle | moving | postDouble => apply presses_claim <;> rfl
  | pressed | holding => exact nil_sublist _
  | awaitDouble =>
    dsimp only
    cases position with
    | none => exact nil_sublist _
    | some position =>
      dsimp only
      split
      · exact nil_sublist _
      · split <;> exact Sublist.refl _

theorem presses_handleButtonUp (button : UInt32) (position : Option (Position K)) :
    (marksOf classifier (classifier.handleButtonUp hypot button position)).filter
      Mark.isPress = [] := by
  rcases classifier with ⟨thresholds, state, pressAt, pressTime, movedAt, movedTime, owner, down⟩
  unfold GestureClassifier.handleButtonUp GestureClassifier.markButtonUp
  dsimp only
  split
  · cases state <;> rfl
  split
  · cases state <;> rfl
  cases state with
  | idle | moving | postDouble | awaitDouble | holding => rfl
  | pressed =>
    cases position with
    | none => rfl
    | some position =>
      dsimp only
      split <;> rfl

/-- An event takes part with one press at most, and only when it is a press with a position. -/
theorem presses_handle (event : PointerEvent K) (now : Int) (classifier : GestureClassifier K) :
    ((marksOf classifier (classifier.handle hypot event now)).filter Mark.isPress).Sublist
      event.press?.toList := by
  unfold GestureClassifier.handle
  split
  · rw [presses_handleMotion]
    exact nil_sublist _
  · rename_i button position kind payload
    have pressed : event.press?.toList = pressAt? button position := by
      unfold PointerEvent.press?
      rw [kind, payload]
      cases position <;> rfl
    rw [pressed]
    exact presses_handleButtonDown hypot classifier button position now
  · rw [presses_handleButtonUp]
    exact nil_sublist _
  · rw [marksOf_stay]
    exact nil_sublist _

theorem presses_story (calls : List (Call K)) (classifier : GestureClassifier K) :
    ((story hypot calls classifier).filter Mark.isPress).Sublist (calls.filterMap Call.press?) := by
  induction calls generalizing classifier with
  | nil => exact Sublist.refl _
  | cons call rest ih =>
    have split : (call :: rest).filterMap Call.press? =
        call.press?.toList ++ rest.filterMap Call.press? := by
      cases pressed : call.press? with
      | none => rw [filterMap_cons_none pressed]; rfl
      | some mark => rw [filterMap_cons_some pressed]; rfl
    rw [story, filter_append, split]
    apply Sublist.append _ (ih _)
    cases call with
    | feed event =>
      unfold Call.marks
      rw [filter_append, presses_processDeadline, nil_append]
      exact presses_handle hypot event _ _
    | advance now =>
      have none_taken : ((Call.advance now).marks hypot classifier).filter Mark.isPress = [] :=
        presses_processDeadline classifier now
      rw [none_taken]
      exact nil_sublist _

/-! ## The stream -/

/-- The gestures of a press, in order. -/
def Press.gestures (press : Press) : List (Gesture × UInt32) :=
  match press.outcome with
  | .clicked => [(.click, press.button)]
  | .doubled => [(.doubleClick, press.button)]
  | .ended => [(.hold, press.button), (.holdEnd, press.button)]
  | .cancelled => [(.hold, press.button), (.holdCancel, press.button)]
  | .slipped => []

/-- The hold that has not been ended yet. -/
def openGestures (classifier : GestureClassifier K) : List (Gesture × UInt32) :=
  match classifier.state with
  | .holding => [(.hold, classifier.ownerButton)]
  | _ => []

/-- Gestures of a button; a move and a pause belong to none. -/
def isOfButton (gesture : Gesture × UInt32) : Bool := gesture.1 != .move && gesture.1 != .pause

/-- What a run of calls does with the presses and puts out. -/
structure Grammatical (calls : List (Call K)) (classifier : GestureClassifier K) : Prop where
  /-- The marks tell what is put out. -/
  told : (story hypot calls classifier).filterMap Mark.gesture? =
    (runCalls hypot calls classifier).2.map fun gesture => (gesture.kind, gesture.button)
  /-- Every press that takes part is a press with a position, taken once. -/
  taken : ((story hypot calls classifier).filter Mark.isPress).Sublist (calls.filterMap Call.press?)
  /-- One press follows the other and each but the last has one outcome; the gestures of the
  buttons are those of the presses. -/
  resolved : ∃ presses : List Press,
    (story hypot calls classifier).filter Mark.isOfPress =
      presses.flatMap Press.marks ++ openMarks (runCalls hypot calls classifier).1 ∧
    ((runCalls hypot calls classifier).2.map fun gesture =>
      (gesture.kind, gesture.button)).filter isOfButton =
      presses.flatMap Press.gestures ++ openGestures (runCalls hypot calls classifier).1

omit [Sub K] [LT K] [DecidableLT K] in
theorem gestures_marks (press : Press) : press.marks.filterMap Mark.gesture? = press.gestures := by
  rcases press with ⟨button, outcome⟩
  cases outcome <;> rfl

omit [Sub K] [LT K] [DecidableLT K] in
theorem gestures_openMarks (classifier : GestureClassifier K) :
    (openMarks classifier).filterMap Mark.gesture? = openGestures classifier := by
  unfold openMarks openGestures
  cases classifier.state <;> rfl

omit [Sub K] [LT K] [DecidableLT K] in
/-- The gestures of the buttons are those among the marks of the presses. -/
theorem filter_isOfButton (marks : List Mark) : (marks.filterMap Mark.gesture?).filter isOfButton =
      (marks.filter Mark.isOfPress).filterMap Mark.gesture? := by
  induction marks with
  | nil => rfl
  | cons mark rest ih =>
    cases mark with
    | press button | slipped => exact ih
    | gesture kind button =>
      cases kind with
      | move | pause => exact ih
      | hold | holdEnd | holdCancel | click | doubleClick => exact congrArg (List.cons _) ih

theorem grammatical (calls : List (Call K)) {classifier : GestureClassifier K}
    (fresh : openMarks classifier = []) : Grammatical hypot calls classifier := by
  have told := gestures_story hypot calls classifier
  constructor
  case told => exact told
  case taken => exact presses_story hypot calls classifier
  case resolved =>
    rcases leads_story hypot calls classifier with ⟨presses, resolved⟩
    rw [fresh, nil_append] at resolved
    refine ⟨presses, resolved, ?_⟩
    have gestures : (presses.flatMap Press.marks).filterMap Mark.gesture? =
        presses.flatMap Press.gestures := by
      rw [filterMap_flatMap]
      apply flatMap_congr
      intro press _
      exact gestures_marks press
    rw [← told, filter_isOfButton, resolved, filterMap_append, gestures, gestures_openMarks]

/-- For all thresholds and calls of a new classifier: the gestures of the buttons are those of a
row of presses with one outcome each, so that a hold is ended or cancelled for the same button
before anything else; and for calls in the order of time, leaving out those of `advance` between
the events changes nothing. -/
theorem gesture_stream (thresholds : GestureThresholds K) (calls : List (Call K)) :
    Grammatical hypot calls { thresholds } ∧
      ∀ event, ((calls ++ [Call.feed event]).Pairwise fun first second : Call K =>
          first.instant ≤ second.instant) →
        runCalls hypot (calls ++ [.feed event]) { thresholds } =
          runCalls hypot (calls.filter Call.isFeed ++ [.feed event]) { thresholds } := by
  constructor
  · exact grammatical hypot calls rfl
  · intro event sorted
    exact runCalls_filter_isFeed hypot calls event sorted _

end

/-! ## A run -/

/-- A hold of the first button that a motion cancels, and asking in between. -/
def heldThenMoved : List (Call ℤ) :=
  [ .feed ⟨.mouseButtonDown, 1, .mouseButton 1 (some {})⟩,
    .advance 1300,
    .advance 1600,
    .feed ⟨.mouseMove, 2, .mouseMove (some { x := 3 })⟩,
    .advance 2100,
    .feed ⟨.mouseMove, 3, .mouseMove (some { x := 9 })⟩ ]

def release : PointerEvent ℤ := ⟨.mouseButtonUp, 31 / 10, .mouseButton 1 (some { x := 9 })⟩

/-- The distance along an axis. -/
def axisDistance (x y : ℤ) : ℤ := max (max x (-x)) (max y (-y))

theorem gesture_stream_held :
    ((runCalls axisDistance (heldThenMoved ++ [.feed release])
        { thresholds := { slopPx := 5 } }).2.map fun gesture => (gesture.kind, gesture.button)) =
      [(.hold, 1), (.holdCancel, 1), (.move, 0)] ∧
    runCalls axisDistance (heldThenMoved ++ [.feed release]) { thresholds := { slopPx := 5 } } =
      runCalls axisDistance (heldThenMoved.filter Call.isFeed ++ [.feed release])
        { thresholds := { slopPx := 5 } } := by
  constructor
  · decide +kernel
  · apply (gesture_stream axisDistance { slopPx := 5 } heldThenMoved).2
    decide +kernel

end Grab.Input
