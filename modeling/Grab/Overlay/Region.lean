import Grab.Overlay.Effects

/-!
# The input region and the grab

What the delegate has installed for the pointer, when every call of it succeeds: the whole surface
for a capture, the region of an edit session for an edit, nothing otherwise; and the grab of a
capture or a drag.  Capture and edit sessions install and clear the same region and the same grab,
so this needs that they do not meet.
-/

namespace Grab.Overlay

open Grab.Lib List Bool

namespace Service

variable {setting : Setting} {before after : Service} {refuse : Leftover → Delegate → Delegate}
  {accept : Delegate → Delegate} {pre : Service → Prop}

/-! ## What should be installed -/

def editRegion (setting : Setting) (service : Service) : List Rectangle :=
  setting.editInputRegion service.scene.asSnapshot.shapes service.session.editable

def inputRegion (setting : Setting) (service : Service) : List Rectangle :=
  if service.pointerCaptured then [setting.surfaceBounds]
  else if service.owned && service.session.live then editRegion setting service
  else []

/-- The delegate has installed what the service needs. -/
def Consistent (setting : Setting) (service : Service) : Prop :=
  service.delegate.region = inputRegion setting service ∧
    service.delegate.grabbed = (service.pointerCaptured || service.session.dragging)

/-! ## When every call succeeds -/

/-- A live edit session and no capture.  Its marks of the grab may lag behind. -/
structure Held (service : Service) : Prop where
  owned : service.owned = true
  live : service.session.live = true
  attached : service.session.attached = true
  handler : service.session.editHandlerInstalled = true
  uncaptured : service.pointerCaptured = false
  grip : service.delegate.grabbed = true → service.session.pointerGrabbed = true
  mark : service.session.pointerGrabbed = true → service.session.interaction.isSome = true

/-- No edit session. -/
structure Out (service : Service) : Prop where
  owned : service.owned = false
  live : service.session.live = false
  attached : service.session.attached = false
  idle : service.session.interaction = none
  unmarked : service.session.pointerGrabbed = false

/-- Neither an edit session nor a capture. -/
structure Gone (service : Service) : Prop extends Out service where
  uncaptured : service.pointerCaptured = false
  region : service.delegate.region = []
  ungrabbed : service.delegate.grabbed = false

theorem Held.ungrabbed (held : Held before) (idle : before.session.interaction = none) :
    before.session.pointerGrabbed = false ∧ before.delegate.grabbed = false := by
  have unmarked : before.session.pointerGrabbed = false := by
    cases marked : before.session.pointerGrabbed with
    | false => rfl
    | true =>
      have dragging := held.mark marked
      rw [idle] at dragging
      cases dragging
  refine ⟨unmarked, ?_⟩
  cases grabbed : before.delegate.grabbed with
  | false => rfl
  | true =>
    have marked := held.grip grabbed
    rw [unmarked] at marked
    cases marked

/-- The error of a session does not count. -/
theorem Held.of_error (held : Held before) {error : Option Error} (holdings : after.holdings =
      { before.holdings with session := { before.session with error := error } }) :
    Held after := by
  have session : after.session = { before.session with error := error } :=
    congrArg Holdings.session holdings
  have owned : after.owned = before.owned := congrArg Holdings.owned holdings
  have pointerCaptured : after.pointerCaptured = before.pointerCaptured :=
    congrArg Holdings.pointerCaptured holdings
  have grabbed : after.delegate.grabbed = before.delegate.grabbed :=
    congrArg Holdings.grabbed holdings
  constructor
  case owned => exact owned.trans held.owned
  case live => exact session ▸ held.live
  case attached => exact session ▸ held.attached
  case handler => exact session ▸ held.handler
  case uncaptured => exact pointerCaptured.trans held.uncaptured
  case grip =>
    rw [session, grabbed]
    exact held.grip
  case mark =>
    rw [session]
    exact held.mark

theorem Held.of_holdings (held : Held before) (holdings : after.holdings = before.holdings) :
    Held after :=
  held.of_error holdings

/-- A call that succeeds. -/
theorem ask_accepts (succeeds : ∀ call, setting.replies call = none)
    {post : Except Error Unit → Service → Prop}
    (accepted : ∀ service, pre service → post (.ok ()) { service with
      calls := service.calls + 1, delegate := accept service.delegate }) :
    Ensures pre (ask setting accept refuse) post := by
  apply Ensures.modifyGet
  intro service holds
  rw [succeeds]
  exact accepted service holds

theorem ask_accepts_bind (succeeds : ∀ call, setting.replies call = none) {α : Type}
    {post : α → Service → Prop} {next : Except Error Unit → Action α}
    (accepted : ∀ service, pre service → Ensures (fun after => after = { service with
      calls := service.calls + 1, delegate := accept service.delegate }) (next (.ok ())) post) :
    Ensures pre (ask setting accept refuse >>= next) post := by
  apply ask_bind
  · intro service holds _
    exact accepted service holds
  · intro service error _ refused
    rw [succeeds] at refused
    cases refused

/-- What an installed region leaves alone. -/
structure Installs (region : List Rectangle) (before after : Service) : Prop where
  region : after.delegate.region = region
  scene : after.scene = before.scene
  readings : after.readings = before.readings
  session : ∃ nonempty, after.session = { before.session with nonemptyRegionInstalled := nonempty }
  owned : after.owned = before.owned
  pointerCaptured : after.pointerCaptured = before.pointerCaptured
  grabbed : after.delegate.grabbed = before.delegate.grabbed

namespace Installs

variable {region : List Rectangle} (installs : Installs region before after)

include installs

theorem interaction : after.session.interaction = before.session.interaction := by
  rcases installs.session with ⟨nonempty, session⟩
  rw [session]

theorem target : after.session.target = before.session.target := by
  rcases installs.session with ⟨nonempty, session⟩
  rw [session]

theorem button : after.session.button = before.session.button := by
  rcases installs.session with ⟨nonempty, session⟩
  rw [session]

theorem editable : after.session.editable = before.session.editable := by
  rcases installs.session with ⟨nonempty, session⟩
  rw [session]

theorem held (isHeld : Held before) : Held after := by
  rcases installs.session with ⟨nonempty, session⟩
  constructor
  case owned => exact installs.owned.trans isHeld.owned
  case live => exact session ▸ isHeld.live
  case attached => exact session ▸ isHeld.attached
  case handler => exact session ▸ isHeld.handler
  case uncaptured => exact installs.pointerCaptured.trans isHeld.uncaptured
  case grip =>
    rw [session, installs.grabbed]
    exact isHeld.grip
  case mark =>
    rw [session]
    exact isHeld.mark

end Installs

variable (succeeds : ∀ call, setting.replies call = none)

include succeeds

theorem refreshRegion_installs (attached : before.session.attached = true)
    (shapes : List ShapeRecord) :
    Ensures (fun service => service = before) (refreshRegion setting shapes) fun result after =>
      result = .ok () ∧
        Installs (setting.editInputRegion shapes before.session.editable) before after := by
  unfold refreshRegion
  apply Ensures.get_bind
  rintro current rfl
  rw [if_pos attached]
  refine Ensures.bind (fun _ service => ∃ nonempty, service = { current with
    session := { current.session with nonemptyRegionInstalled := nonempty } }) ?_ fun _ => ?_
  · unfold onlyIf
    split
    · rintro _ rfl
      exact ⟨true, rfl⟩
    · rintro _ rfl
      exact ⟨_, rfl⟩
  refine ask_accepts_bind succeeds ?_
  rintro _ ⟨nonempty, rfl⟩
  rintro _ rfl
  exact ⟨rfl, rfl, rfl, rfl, ⟨_, rfl⟩, rfl, rfl, rfl⟩

/-- Giving up the grab leaves the rest alone. -/
structure Frees (before after : Service) : Prop where
  scene : after.scene = before.scene
  readings : after.readings = before.readings
  region : after.delegate.region = before.delegate.region
  session : after.session = { before.session with pointerGrabbed := false }
  owned : after.owned = before.owned
  pointerCaptured : after.pointerCaptured = before.pointerCaptured
  ungrabbed : after.delegate.grabbed = false

theorem ungrab_frees
    (grip : before.delegate.grabbed = true → before.session.pointerGrabbed = true) :
    Ensures (fun service => service = before) (ungrab setting) fun result after =>
      result = .ok () ∧ Frees before after := by
  unfold ungrab
  apply Ensures.get_bind
  rintro service rfl
  split
  · refine ask_accepts_bind succeeds ?_
    rintro _ rfl
    rintro _ rfl
    exact ⟨rfl, rfl, rfl, rfl, rfl, rfl, rfl, rfl⟩
  rename_i unmarked
  rw [not_eq_true] at unmarked
  rintro service rfl
  have ungrabbed : service.delegate.grabbed = false := by
    cases grabbed : service.delegate.grabbed with
    | false => rfl
    | true =>
      have marked := grip grabbed
      rw [unmarked] at marked
      cases marked
  refine ⟨rfl, rfl, rfl, rfl, ?_, rfl, rfl, ungrabbed⟩
  change service.session = _
  rw [← unmarked]

theorem releaseSessionPointer_frees (attached : before.session.attached = true)
    (grip : before.delegate.grabbed = true → before.session.pointerGrabbed = true) :
    Ensures (fun service => service = before) (releaseSessionPointer setting) fun result after =>
      result = .ok () ∧ Frees before after := by
  unfold releaseSessionPointer
  apply Ensures.get_bind
  rintro current rfl
  rw [if_pos attached]
  refine Ensures.bind _ (ungrab_frees succeeds grip) fun released => ?_
  rintro service ⟨rfl, frees⟩
  exact ⟨rfl, frees⟩

theorem emptyRegion_empties (handler : before.session.editHandlerInstalled = true) :
    Ensures (fun service => service = before) (emptyRegion setting) fun result after =>
      result = .ok () ∧ ∃ calls, after = { before with
        calls := calls
        delegate := { before.delegate with region := [] }
        session := { before.session with nonemptyRegionInstalled := false } } := by
  unfold emptyRegion
  apply Ensures.get_bind
  rintro current rfl
  have installed : (current.session.editHandlerInstalled ||
      current.session.nonemptyRegionInstalled) = true := by
    rw [handler, Bool.true_or]
  rw [if_pos installed]
  refine ask_accepts_bind succeeds ?_
  rintro _ rfl
  rintro _ rfl
  exact ⟨rfl, _, rfl⟩

theorem clearHandler_clears :
    Ensures (fun service => service = before) (clearHandler setting) fun result after =>
      result = .ok () ∧ ∃ calls, after = { before with
        calls := calls
        session := { before.session with editHandlerInstalled := false } } := by
  unfold clearHandler
  apply Ensures.get_bind
  rintro current rfl
  split
  · refine ask_accepts_bind succeeds ?_
    rintro _ rfl
    rintro _ rfl
    exact ⟨rfl, _, rfl⟩
  rename_i cleared
  rw [not_eq_true] at cleared
  rintro service rfl
  refine ⟨rfl, service.calls, ?_⟩
  change service = _
  rw [← cleared]

/-- A session that is ended leaves nothing installed. -/
theorem terminateEdit_closes (held : Held before) :
    Ensures (fun service => service = before) (terminateEdit setting) fun result after =>
      result = .ok () ∧ Gone after ∧ after.scene = before.scene := by
  unfold terminateEdit stopTwice stop
  simp only [bind_assoc]
  refine Ensures.bind (fun _ service => service =
    { before with session := { before.session with live := false }.cancelInteraction }) ?_
    fun _ => ?_
  · rintro _ rfl
    rfl
  apply Ensures.get_bind
  rintro current rfl
  have attached :
      ({ before with session := { before.session with live := false }.cancelInteraction } :
        Service).session.attached = true :=
    held.attached
  rw [if_pos attached]
  simp only [bind_assoc]
  refine Ensures.bind _ (ungrab_frees succeeds held.grip) fun ungrabbed => ?_
  apply Ensures.of_forall
  rintro freed ⟨rfl, frees⟩
  have handler : freed.session.editHandlerInstalled = true := by
    rw [frees.session]
    exact held.handler
  refine Ensures.bind _ (emptyRegion_empties succeeds handler) fun emptied => ?_
  apply Ensures.of_forall
  rintro _ ⟨rfl, calls, rfl⟩
  refine Ensures.bind _ (clearHandler_clears succeeds) fun cleared => ?_
  rintro _ ⟨rfl, calls, rfl⟩
  refine ⟨rfl, ⟨⟨rfl, rfl, rfl, rfl, rfl⟩, ?_, rfl, frees.ungrabbed⟩, frees.scene⟩
  exact frees.pointerCaptured.trans held.uncaptured

omit succeeds in
/-- Without a drag and its grab a session is as before. -/
theorem Held.of_frees (held : Held before)
    (frees : Frees { before with session := before.session.cancelInteraction } after) :
    Held after ∧ after.session.interaction = none := by
  have session := frees.session
  constructor
  · constructor
    case owned => exact frees.owned.trans held.owned
    case live => exact session ▸ held.live
    case attached => exact session ▸ held.attached
    case handler => exact session ▸ held.handler
    case uncaptured => exact frees.pointerCaptured.trans held.uncaptured
    case grip =>
      intro grabbed
      exact absurd (frees.ungrabbed.symm.trans grabbed) false_ne_true
    case mark =>
      intro marked
      rw [session] at marked
      cases marked
  · rw [session]
    rfl

/-- A cancelled drag leaves the session without one. -/
theorem cancelDrag_held (restore : Bool) (held : Held before) :
    Ensures (fun service => service = before) (cancelDrag setting restore) fun result after =>
      (Held after ∧ after.session.interaction = none) ∧
        result.isSome = before.session.dragging := by
  unfold cancelDrag
  apply Ensures.get_bind
  rintro current rfl
  dsimp only
  split
  · rename_i dragging
    refine Ensures.bind (fun _ after => ∃ error, after.holdings =
      { current.holdings with session := { current.session with error := error } }) ?_
      fun restored => ?_
    · split
      · exact restoreOriginal_holdings _
      · rintro _ rfl
        exact ⟨_, rfl⟩
    refine Ensures.bind (fun _ after => ∃ before, Held before ∧
      after = { before with session := before.session.cancelInteraction }) ?_ fun _ => ?_
    · rintro after ⟨error, holdings⟩
      exact ⟨after, held.of_error holdings, rfl⟩
    apply Ensures.of_forall
    rintro _ ⟨dragged, isHeld, rfl⟩
    refine Ensures.bind _ (releaseSessionPointer_frees succeeds isHeld.attached isHeld.grip)
      fun released => ?_
    rintro after ⟨rfl, frees⟩
    exact ⟨isHeld.of_frees frees, dragging.symm⟩
  · rename_i notDragging
    rw [not_eq_true] at notDragging
    rintro _ rfl
    refine ⟨⟨held, ?_⟩, notDragging.symm⟩
    rw [Session.dragging, Option.isSome_eq_false_iff, Option.isNone_iff_eq_none] at notDragging
    exact notDragging

omit succeeds in
theorem rememberError_held (error : Error) :
    Keeps Held (onSession fun session => session.rememberError error) :=
  Keeps.modify fun _ held => held.of_error rfl

theorem failEdit_gone (notification : Option Notification) (error : Error) :
    Ensures Held (failEdit setting notification error) fun _ => Gone := by
  unfold failEdit
  refine Ensures.bind (fun _ => Held) ?_ fun cancelled => ?_
  · split
    · apply Ensures.of_forall
      intro current held
      exact (cancelDrag_held succeeds true held).weaken fun _ _ both => both.1.1
    · exact Keeps.pure _
  refine Ensures.bind _ (rememberError_held error) fun _ => ?_
  apply Ensures.of_forall
  intro current held
  refine Ensures.bind (fun _ => Gone) ?_ fun _ => Ensures.pure fun _ gone => gone
  exact Ensures.discard ((terminateEdit_closes succeeds held).weaken fun _ _ closed => closed.2.1)

/-! ## Refreshing -/

/-- The target of a drag is live. -/
def Targets (service : Service) : Prop :=
  service.session.interaction.isSome = true →
    ∃ record, some record ∈ service.scene.entries ∧ record.id = service.session.target.getD {}

/-- One look at the clock, and nothing else; a drag goes on. -/
structure Looks (setting : Setting) (before after : Service) : Prop where
  readings : after.readings = before.readings + 1
  core : after.scene.core = (before.scene.drainExpired (setting.clock before.readings)).core
  interaction : after.session.interaction = before.session.interaction
  editable : after.session.editable = before.session.editable
  target : after.session.target = before.session.target
  button : after.session.button = before.session.button
  grabbed : after.delegate.grabbed = before.delegate.grabbed
  targets : Targets after

/-- A refresh cancels the drag and says so, or lets it go on. -/
def Continues (setting : Setting) (before : Service) (notification : Option Notification)
    (after : Service) : Prop :=
  notification.isSome = true ∧ after.session.interaction = none ∨
    notification = none ∧ Looks setting before after

theorem refreshTarget_held (held : Held before) :
    Ensures (fun service => service = before) (refreshTarget setting) fun result after =>
      Held after ∧ result.2.shapes = after.scene.asSnapshot.shapes ∧
        Continues setting before result.1 after := by
  unfold refreshTarget
  refine Ensures.bind _ sceneSnapshot_looks fun snapshot => ?_
  apply Ensures.get_bind
  rintro current ⟨holdings, readings, core, shapes⟩
  have isHeld := held.of_holdings holdings
  have session : current.session = before.session := congrArg Holdings.session holdings
  dsimp only
  split
  · rename_i absent
    rw [and_eq_true] at absent
    refine Ensures.bind _ (cancelDrag_held succeeds false isHeld) fun cancelled => ?_
    apply Ensures.of_forall
    rintro idle ⟨⟨stillHeld, isIdle⟩, cancels⟩
    refine Ensures.bind _ sceneSnapshot_looks fun later => ?_
    apply Ensures.pure
    rintro after ⟨laterHoldings, _, _, laterShapes⟩
    have laterSession : after.session = idle.session := congrArg Holdings.session laterHoldings
    refine ⟨stillHeld.of_holdings laterHoldings, laterShapes, .inl ⟨?_, ?_⟩⟩
    · exact cancels.trans absent.1
    · rw [laterSession]
      exact isIdle
  · rename_i present
    apply Ensures.pure
    rintro after rfl
    refine ⟨isHeld, shapes, .inr ⟨rfl, readings, core, ?_, ?_, ?_, ?_, ?_, ?_⟩⟩
    · rw [session]
    · rw [session]
    · rw [session]
    · rw [session]
    · exact congrArg Holdings.grabbed holdings
    intro dragging
    rw [not_eq_true, and_eq_false_iff, Session.dragging, dragging] at present
    have found := present.resolve_left (Bool.noConfusion)
    rw [not_eq_false', any_eq_true] at found
    rcases found with ⟨record, member, isTarget⟩
    refine ⟨record, ?_, beq_iff_eq.mp isTarget⟩
    rw [shapes] at member
    have inLive := (mergeSort_perm _ _).mem_iff.mp member
    exact reduceOption_mem_iff.mp inLive

omit succeeds in
theorem Continues.of_installs {middle : Service} {notification : Option Notification}
    {region : List Rectangle} (continues : Continues setting before notification middle)
    (installs : Installs region middle after) : Continues setting before notification after := by
  rcases continues with ⟨cancelled, idle⟩ | ⟨silent, looks⟩
  · exact .inl ⟨cancelled, installs.interaction.trans idle⟩
  right
  refine ⟨silent, ?_⟩
  constructor
  case readings => exact installs.readings.trans looks.readings
  case core =>
    rw [installs.scene]
    exact looks.core
  case interaction => exact installs.interaction.trans looks.interaction
  case editable => exact installs.editable.trans looks.editable
  case target => exact installs.target.trans looks.target
  case button => exact installs.button.trans looks.button
  case grabbed => exact installs.grabbed.trans looks.grabbed
  case targets =>
    unfold Targets
    rw [installs.interaction, installs.scene, installs.target]
    exact looks.targets

/-- A refresh installs the region of the scene it leaves, or ends the session. -/
theorem refreshEdit_fresh (held : Held before) :
    Ensures (fun service => service = before) (refreshEdit setting) fun notification after =>
      Held after ∧ after.delegate.region = editRegion setting after ∧
        Continues setting before notification after ∨ Gone after := by
  unfold refreshEdit
  apply Ensures.get_bind
  rintro current rfl
  rw [held.owned, held.live]
  refine Ensures.bind _ (refreshTarget_held succeeds held) fun refreshed => ?_
  apply Ensures.get_bind
  rintro middle ⟨isHeld, shapes, continues⟩
  rw [isHeld.owned]
  change Ensures _ (if becameIneligible setting middle.session.editable refreshed.2.shapes = true
    then _ else _) _
  split
  · refine Ensures.consequence (failEdit_gone succeeds refreshed.1 ineligible) ?_ ?_
    · rintro _ rfl
      exact isHeld
    · exact fun _ _ gone => .inr gone
  refine Ensures.bind _ (refreshRegion_installs succeeds isHeld.attached refreshed.2.shapes)
    fun installed => ?_
  apply Ensures.of_forall
  rintro after ⟨rfl, installs⟩
  apply Ensures.pure
  rintro after rfl
  left
  refine ⟨installs.held isHeld, ?_, continues.of_installs installs⟩
  rw [installs.region, editRegion, installs.scene, installs.editable, shapes]

end Service

end Grab.Overlay
