import Grab.Overlay.Region

/-!
# Capture and edit sessions along a run

Which operations keep what the delegate has installed for the pointer right.  An operation of a
capture clears the region of a session and an operation of a session that of a capture, so neither
may come while both are there; and an edit event looks at the clock more than once, so what the
region shows must not expire in between.
-/

namespace Grab.Overlay

open Grab.Lib List Bool

/-! ## Expiry -/

namespace Scene

variable {scene before after : Scene} {record : ShapeRecord} {now : Milliseconds}

theorem mem_entries_expire {deadline : Deadline} (member : some record ∈ scene.entries)
    (other : deadline.id ≠ record.id) : some record ∈ (scene.expire deadline).entries := by
  unfold expire
  split
  · rename_i old here
    split
    · rename_i expired
      rcases SlotTable.mem_cells_iff.mp member with ⟨index, there⟩
      apply SlotTable.mem_cells_iff.mpr
      refine ⟨index, ?_⟩
      have elsewhere : deadline.entrySlot ≠ index := by
        rintro rfl
        rw [here] at there
        cases there
        exact other expired.symm
      change (scene.entries.set deadline.entrySlot none)[index]? = _
      rw [getElem?_set_ne elsewhere]
      exact there
    · exact member
  · exact member

/-- A shape without a deadline that is due stays. -/
theorem mem_entries_drainExpired (member : some record ∈ scene.entries)
    (waits : ∀ deadline ∈ scene.deadlines, deadline.id = record.id → now < deadline.expiresAt) :
    some record ∈ (scene.drainExpired now).entries := by
  have folded : ∀ (deadlines : List Deadline) (start : Scene),
      (∀ deadline ∈ deadlines, deadline.id ≠ record.id) → some record ∈ start.entries →
        some record ∈ (deadlines.foldl expire start).entries := by
    intro deadlines
    induction deadlines with
    | nil => exact fun start _ member => member
    | cons deadline rest later =>
      intro start others member
      apply later
      · exact fun other isRest => others other (mem_cons_of_mem _ isRest)
      · exact mem_entries_expire member (others deadline mem_cons_self)
  apply folded _ scene ?_ member
  intro deadline expired isRecord
  have allDue := all_takeWhile (l := scene.deadlines)
    (p := fun deadline : Deadline => decide (deadline.expiresAt ≤ now))
  have due := all_eq_true.mp allDue deadline expired
  have waiting := waits deadline ((takeWhile_sublist _).subset expired) isRecord
  exact absurd (of_decide_eq_true due) (not_le_of_gt waiting)

theorem epoch_drainExpired (scene : Scene) (now : Milliseconds) :
    (scene.drainExpired now).epoch = scene.epoch := by
  have folded : ∀ (deadlines : List Deadline) (start : Scene),
      (deadlines.foldl expire start).epoch = start.epoch := by
    intro deadlines
    induction deadlines with
    | nil => exact fun start => rfl
    | cons deadline rest later =>
      intro start
      rw [foldl_cons, later]
      unfold expire
      split
      · split <;> rfl
      · rfl
  exact folded _ scene

/-- A live shape that does not expire is found; an update of it fails on its geometry alone. -/
theorem update_live {published : List SceneDelta} (tracks : scene.Tracks published)
    (member : some record ∈ scene.entries)
    (waits : ∀ deadline ∈ scene.deadlines, deadline.id = record.id → now < deadline.expiresAt)
    (shape : Shape) : (scene.update now record.id shape).2 = .ok () ∨
      (scene.update now record.id shape).2 = .error invalidGeometry := by
  have stays := mem_entries_drainExpired member waits
  have current : record.id.epoch = (scene.drainExpired now).epoch :=
    (tracks.current record member).1.trans (epoch_drainExpired scene now).symm
  have found : ((scene.drainExpired now).liveEntrySlot record.id).isSome = true := by
    unfold liveEntrySlot
    rw [findIdx?_isSome, any_eq_true]
    exact ⟨some record, stays, beq_self_eq_true _⟩
  rcases Option.isSome_iff_exists.mp found with ⟨entrySlot, isSlot⟩
  have finds : (scene.drainExpired now).find record.id = some entrySlot := by
    unfold find
    rw [if_pos current, isSlot]
  unfold update
  dsimp only
  rw [finds]
  dsimp only
  split
  · exact .inl rfl
  · exact .inr rfl

end Scene

namespace Service

variable {setting : Setting} {before after : Service}

/-! ## States of the pointer -/

/-- A drag has the grab. -/
def Gripped (service : Service) : Prop :=
  service.session.interaction.isSome = true → service.delegate.grabbed = true

/-- The pointer is captured. -/
structure Captive (setting : Setting) (service : Service) : Prop where
  captured : service.pointerCaptured = true
  region : service.delegate.region = [setting.surfaceBounds]
  grabbed : service.delegate.grabbed = true

/-- A capture without a session. -/
structure Alone (setting : Setting) (service : Service) : Prop
    extends Captive setting service, Out service

/-- The states between two operations: an edit, nothing, or a capture. -/
inductive Fit (setting : Setting) (service : Service) : Prop where
  | edit (held : Held service) (gripped : Gripped service)
    (region : service.delegate.region = editRegion setting service)
  | gone (gone : Gone service)
  | alone (alone : Alone setting service)
  | both (captive : Captive setting service) (owned : service.owned = true)
    (live : service.session.live = true)

/-- The states in which a scene may change and the session be refreshed. -/
inductive Ready (setting : Setting) (service : Service) : Prop where
  | edit (held : Held service) (gripped : Gripped service)
  | gone (gone : Gone service)
  | alone (alone : Alone setting service)

variable (fit : Fit setting before)

include fit

theorem Fit.consistent : Consistent setting before := by
  cases fit with
  | edit held gripped region =>
    refine ⟨?_, ?_⟩
    · rw [inputRegion, held.uncaptured, held.owned, held.live]
      exact region
    rw [held.uncaptured, Bool.false_or, Session.dragging]
    cases dragging : before.session.interaction with
    | none => exact (held.ungrabbed dragging).2
    | some interaction => exact gripped (by rw [dragging]; rfl)
  | gone gone =>
    refine ⟨?_, ?_⟩
    · rw [inputRegion, gone.uncaptured, gone.owned]
      exact gone.region
    · rw [gone.uncaptured, Session.dragging, gone.idle]
      exact gone.ungrabbed
  | alone alone | both alone =>
    refine ⟨?_, ?_⟩
    · rw [inputRegion, if_pos alone.captured]
      exact alone.region
    · rw [alone.captured, Bool.true_or]
      exact alone.grabbed

variable (apart : ¬(before.pointerCaptured = true ∧ before.owned = true))

include apart

theorem Fit.ready : Ready setting before := by
  cases fit with
  | edit held gripped => exact .edit held gripped
  | gone gone => exact .gone gone
  | alone alone => exact .alone alone
  | both captive owned => exact absurd ⟨captive.captured, owned⟩ apart

/-- A session is edited when no capture disturbs it. -/
theorem Fit.held_of_owned (owned : before.owned = true) : Held before ∧ Gripped before := by
  cases fit.ready apart with
  | edit held gripped => exact ⟨held, gripped⟩
  | gone gone | alone gone => exact absurd (gone.owned.symm.trans owned) false_ne_true

omit apart fit

theorem Out.of_holdings (out : Out before) (holdings : after.holdings = before.holdings) :
    Out after := by
  have session : after.session = before.session := congrArg Holdings.session holdings
  have owned : after.owned = before.owned := congrArg Holdings.owned holdings
  exact ⟨owned.trans out.owned, session ▸ out.live, session ▸ out.attached, session ▸ out.idle,
    session ▸ out.unmarked⟩

theorem Gone.of_holdings (gone : Gone before) (holdings : after.holdings = before.holdings) :
    Gone after := by
  have captured : after.pointerCaptured = before.pointerCaptured :=
    congrArg Holdings.pointerCaptured holdings
  have region : after.delegate.region = before.delegate.region := congrArg Holdings.region holdings
  have grabbed : after.delegate.grabbed = before.delegate.grabbed :=
    congrArg Holdings.grabbed holdings
  exact ⟨gone.toOut.of_holdings holdings, captured.trans gone.uncaptured, region.trans gone.region,
    grabbed.trans gone.ungrabbed⟩

theorem Captive.of_holdings (captive : Captive setting before)
    (holdings : after.holdings = before.holdings) : Captive setting after := by
  have captured : after.pointerCaptured = before.pointerCaptured :=
    congrArg Holdings.pointerCaptured holdings
  have region : after.delegate.region = before.delegate.region := congrArg Holdings.region holdings
  have grabbed : after.delegate.grabbed = before.delegate.grabbed :=
    congrArg Holdings.grabbed holdings
  exact ⟨captured.trans captive.captured, region.trans captive.region,
    grabbed.trans captive.grabbed⟩

theorem Alone.of_holdings (alone : Alone setting before)
    (holdings : after.holdings = before.holdings) : Alone setting after :=
  ⟨alone.toCaptive.of_holdings holdings, alone.toOut.of_holdings holdings⟩

theorem Gripped.of_holdings (gripped : Gripped before)
    (holdings : after.holdings = before.holdings) : Gripped after := by
  have session : after.session = before.session := congrArg Holdings.session holdings
  have grabbed : after.delegate.grabbed = before.delegate.grabbed :=
    congrArg Holdings.grabbed holdings
  unfold Gripped
  rw [session, grabbed]
  exact gripped

theorem Ready.of_holdings (ready : Ready setting before)
    (holdings : after.holdings = before.holdings) : Ready setting after := by
  cases ready with
  | edit held gripped => exact .edit (held.of_holdings holdings) (gripped.of_holdings holdings)
  | gone gone => exact .gone (gone.of_holdings holdings)
  | alone alone => exact .alone (alone.of_holdings holdings)

theorem keeps_ready {α : Type} {program : Action α}
    (keeps : ∀ held, Keeps (fun service => service.holdings = held) program) :
    Keeps (Ready setting) program :=
  fun service ready => ready.of_holdings (keeps service.holdings service rfl)

theorem recoverBestEffort_ready : Keeps (Ready setting) (recoverBestEffort setting) :=
  keeps_ready fun held => recoverBestEffort_holdings held

/-- The callbacks do not count. -/
theorem invokeNotification_fit (notification : Option Notification) :
    Keeps (Fit setting) (invokeNotification notification) := by
  apply Keeps.modify
  intro service fit
  cases fit with
  | edit held gripped region =>
    refine .edit ?_ gripped region
    exact ⟨held.owned, held.live, held.attached, held.handler, held.uncaptured, held.grip,
      held.mark⟩
  | gone gone =>
    exact .gone ⟨⟨gone.owned, gone.live, gone.attached, gone.idle, gone.unmarked⟩,
      gone.uncaptured, gone.region, gone.ungrabbed⟩
  | alone alone =>
    exact .alone ⟨⟨alone.captured, alone.region, alone.grabbed⟩,
      ⟨alone.owned, alone.live, alone.attached, alone.idle, alone.unmarked⟩⟩
  | both captive owned live =>
    exact .both ⟨captive.captured, captive.region, captive.grabbed⟩ owned live

/-! ## Changes of the scene -/

variable {notification : Option Notification}

/-- A refresh that lets the session go on leaves the grab as it was. -/
theorem Continues.gripped (continues : Continues setting before notification after)
    (gripped : Gripped before) : Gripped after := by
  intro dragging
  rcases continues with ⟨_, idle⟩ | ⟨_, looks⟩
  · rw [idle] at dragging
    cases dragging
  · rw [looks.interaction] at dragging
    exact looks.grabbed.trans (gripped dragging)

theorem addEach_ready (ids : List ShapeId) (shapes : List Shape) :
    Keeps (Ready setting) (addEach setting ids shapes) := by
  induction shapes generalizing ids with
  | nil => exact Keeps.pure _
  | cons shape rest later =>
    unfold addEach
    refine Keeps.bind (keeps_ready fun held => onScene_holdings _ held) fun added => ?_
    cases added with
    | error error => exact Keeps.pure _
    | ok id => exact later _

section Successful

variable (succeeds : ∀ call, setting.replies call = none)

include succeeds

theorem refreshEdit_fit : Ensures (Ready setting) (refreshEdit setting) fun _ => Fit setting := by
  apply Ensures.of_forall
  intro before ready
  have idle : before.owned = false → Ensures (fun service => service = before)
      (refreshEdit setting) fun _ after => after = before := by
    intro unowned
    unfold refreshEdit
    apply Ensures.get_bind
    rintro current rfl
    rw [unowned]
    exact Ensures.pure fun _ same => same
  cases ready with
  | edit held gripped =>
    refine (refreshEdit_fresh succeeds held).weaken ?_
    rintro notification after (⟨isHeld, region, continues⟩ | gone)
    · exact .edit isHeld (continues.gripped gripped) region
    · exact .gone gone
  | gone gone =>
    refine (idle gone.owned).weaken ?_
    rintro _ after rfl
    exact .gone gone
  | alone alone =>
    refine (idle alone.owned).weaken ?_
    rintro _ after rfl
    exact .alone alone

theorem cancelDrag_ready : Keeps (Ready setting) (cancelDrag setting false) := by
  apply Ensures.of_forall
  intro before ready
  have idle : before.session.interaction = none → Ensures (fun service => service = before)
      (cancelDrag setting false) fun _ after => after = before := by
    intro unmoved
    unfold cancelDrag
    apply Ensures.get_bind
    rintro current rfl
    have notDragging : ¬current.session.dragging = true := by
      rw [Session.dragging, unmoved]
      exact false_ne_true
    rw [if_neg notDragging]
    exact Ensures.pure fun _ same => same
  cases ready with
  | edit held gripped =>
    refine (cancelDrag_held succeeds false held).weaken ?_
    rintro _ after ⟨⟨isHeld, isIdle⟩, _⟩
    refine .edit isHeld ?_
    intro dragging
    rw [isIdle] at dragging
    cases dragging
  | gone gone =>
    refine (idle gone.idle).weaken ?_
    rintro _ after rfl
    exact .gone gone
  | alone alone =>
    refine (idle alone.idle).weaken ?_
    rintro _ after rfl
    exact .alone alone

theorem cancelTarget_ready (id : ShapeId) : Keeps (Ready setting) (cancelTarget setting id) := by
  unfold cancelTarget
  exact Keeps.get.bind fun _ => Keeps.ite (cancelDrag_ready succeeds) (Keeps.pure _)

/-- Refresh and tell. -/
theorem refresh_fit {α : Type} {told : Option Notification → Option Notification} {result : α} :
    Ensures (Ready setting) (do
      let refreshed ← refreshEdit setting
      invokeNotification (told refreshed)
      pure result) fun _ => Fit setting := by
  refine Ensures.bind _ (refreshEdit_fit succeeds) fun refreshed => ?_
  exact Ensures.bind _ (invokeNotification_fit _) fun _ => Ensures.pure fun _ fit => fit

theorem add_fit (shape : Shape) :
    Ensures (Ready setting) (add setting shape) fun _ => Fit setting := by
  unfold add
  refine Ensures.bind _ recoverBestEffort_ready fun _ => ?_
  refine Ensures.bind (fun _ => Ready setting) ?_ fun result => refresh_fit succeeds
  split
  · exact Keeps.pure _
  · exact keeps_ready fun held => onScene_holdings _ held

theorem addMany_fit (shapes : List Shape) :
    Ensures (Ready setting) (addMany setting shapes) fun _ => Fit setting := by
  unfold addMany
  refine Ensures.bind _ recoverBestEffort_ready fun _ => ?_
  refine Ensures.bind (fun _ => Ready setting) ?_ fun result => refresh_fit succeeds
  split
  · exact Keeps.pure _
  · exact addEach_ready _ _

theorem update_fit (id : ShapeId) (shape : Shape) :
    Ensures (Ready setting) (update setting id shape) fun _ => Fit setting := by
  unfold update
  refine Ensures.bind _ recoverBestEffort_ready fun _ => ?_
  split
  · exact refresh_fit succeeds
  refine Ensures.bind (fun _ => Ready setting) ?_ fun result => ?_
  · exact keeps_ready fun held => onScene_holdings _ held
  · refine Ensures.bind (fun _ => Ready setting) ?_ fun cancelled => refresh_fit succeeds
    exact Keeps.ite (cancelTarget_ready succeeds id) (Keeps.pure _)

theorem remove_fit (id : ShapeId) :
    Ensures (Ready setting) (remove setting id) fun _ => Fit setting := by
  unfold remove
  refine Ensures.bind _ recoverBestEffort_ready fun _ => ?_
  refine Ensures.bind (fun _ => Ready setting) ?_ fun result => ?_
  · exact keeps_ready fun held => onScene_holdings _ held
  · refine Ensures.bind (fun _ => Ready setting) ?_ fun cancelled => refresh_fit succeeds
    exact Keeps.ite (cancelTarget_ready succeeds id) (Keeps.pure _)

theorem clear_fit : Ensures (Ready setting) (clear setting) fun _ => Fit setting := by
  unfold clear
  refine Ensures.bind _ recoverBestEffort_ready fun _ => ?_
  refine Ensures.bind (fun _ => Ready setting) ?_ fun _ => ?_
  · exact keeps_ready fun held => onScene_holdings _ held
  refine Ensures.bind _ Keeps.get fun service => ?_
  refine Ensures.bind (fun _ => Ready setting) ?_ fun cancelled => ?_
  · exact Keeps.ite (cancelDrag_ready succeeds) (Keeps.pure _)
  · exact Ensures.bind _ (refreshEdit_fit succeeds) fun _ => invokeNotification_fit _

/-! ## Sessions and captures -/

theorem startSession_fit (shapes : List ShapeRecord) (editable : List ShapeId)
    (gone : Gone before) (current : shapes = before.scene.asSnapshot.shapes) :
    Ensures (fun service => service = before) (startSession setting shapes editable)
      fun _ => Fit setting := by
  unfold startSession
  apply Ensures.get_bind
  rintro start rfl
  refine Ensures.bind (fun _ service => service = { start with
    session := { number := start.sessions, editable, editHandlerInstalled := true }
    owned := false
    sessions := start.sessions + 1 }) ?_ fun _ => ?_
  · rintro _ rfl
    rfl
  refine ask_accepts_bind succeeds ?_
  rintro _ rfl
  refine Ensures.bind _ (refreshRegion_installs succeeds rfl shapes) fun installed => ?_
  rintro service ⟨rfl, installs⟩
  rcases installs.session with ⟨nonempty, session⟩
  refine .edit ⟨rfl, rfl, ?_, ?_, ?_, ?_, ?_⟩ ?_ ?_
  · exact congrArg Session.attached session
  · exact congrArg Session.editHandlerInstalled session
  · exact installs.pointerCaptured.trans gone.uncaptured
  · intro grabbed
    exact absurd ((installs.grabbed.trans gone.ungrabbed).symm.trans grabbed) false_ne_true
  · intro marked
    change service.session.pointerGrabbed = true at marked
    rw [session] at marked
    cases marked
  · intro dragging
    change service.session.interaction.isSome = true at dragging
    rw [session] at dragging
    cases dragging
  · change service.delegate.region = setting.editInputRegion service.scene.asSnapshot.shapes
      service.session.editable
    rw [installs.region, installs.scene, installs.editable, current]

variable (editable : List ShapeId) (event : EditEvent)

theorem startFresh_fit : Ensures Gone (startFresh setting editable) fun _ => Fit setting := by
  unfold startFresh
  refine Ensures.bind (fun _ => Gone) ?_ fun _ => ?_
  · intro service gone
    exact gone.of_holdings (recoverBestEffort_holdings service.holdings service rfl)
  apply Ensures.of_forall
  intro before gone
  refine Ensures.bind _ sceneSnapshot_looks fun snapshot => ?_
  apply Ensures.of_forall
  rintro after ⟨holdings, _, _, shapes⟩
  have stillGone := gone.of_holdings holdings
  split
  · exact Ensures.pure fun _ same => same ▸ .gone stillGone
  · exact startSession_fit succeeds _ _ stillGone shapes

omit succeeds in
/-- There is one session at a time. -/
theorem startEdit_exists (owned : before.owned = true) (live : before.session.live = true) :
    Ensures (fun service => service = before) (startEdit setting editable)
      fun _ after => after = before := by
  unfold startEdit
  apply Ensures.get_bind
  rintro service rfl
  rw [if_pos owned, if_pos live]
  exact Ensures.pure fun _ same => same

theorem startEdit_fit (fit : Fit setting before)
    (apart : before.pointerCaptured = true → before.owned = true) :
    Ensures (fun service => service = before) (startEdit setting editable)
      fun _ => Fit setting := by
  have alive : before.owned = true → before.session.live = true →
      Ensures (fun service => service = before) (startEdit setting editable)
        fun _ => Fit setting := by
    intro owned live
    refine (startEdit_exists editable owned live).weaken ?_
    rintro _ after rfl
    exact fit
  cases fit with
  | edit held => exact alive held.owned held.live
  | gone gone =>
    unfold startEdit
    apply Ensures.get_bind
    rintro service rfl
    rw [if_neg (by rw [gone.owned]; exact false_ne_true)]
    exact (startFresh_fit succeeds editable).strengthen fun _ same => same ▸ gone
  | alone alone =>
    exact absurd (alone.owned.symm.trans (apart alone.captured)) false_ne_true
  | both captive owned live => exact alive owned live

theorem stopEdit_fit (number : Nat) (fit : Fit setting before)
    (apart : before.owned = true → before.session.number = number →
      before.pointerCaptured = false) :
    Ensures (fun service => service = before) (stopEdit setting number) fun _ => Fit setting := by
  unfold stopEdit
  apply Ensures.get_bind
  rintro current rfl
  split
  · rename_i addressed
    rw [and_eq_true, beq_iff_eq] at addressed
    have uncaptured := apart addressed.1 addressed.2
    have free : ¬(current.pointerCaptured = true ∧ current.owned = true) := by
      rintro ⟨captured, _⟩
      exact absurd (uncaptured.symm.trans captured) false_ne_true
    have held := (fit.held_of_owned free addressed.1).1
    refine Ensures.bind _ (cancelDrag_held succeeds true held) fun cancelled => ?_
    apply Ensures.get_bind
    rintro idle ⟨⟨isHeld, _⟩, _⟩
    rw [if_pos isHeld.owned]
    refine Ensures.bind _ (terminateEdit_closes succeeds isHeld) fun result => ?_
    refine Ensures.bind (fun _ => Fit setting) ?_ fun _ => Ensures.pure fun _ fit => fit
    refine Ensures.strengthen (invokeNotification_fit _) ?_
    rintro _ ⟨_, gone, _⟩
    exact .gone gone
  · exact Ensures.pure fun _ same => same ▸ fit

theorem releasePointer_fit (fit : Fit setting before)
    (apart : ¬(before.pointerCaptured = true ∧ before.owned = true)) :
    Ensures (fun service => service = before) (releasePointer setting) fun _ => Fit setting := by
  unfold releasePointer
  apply Ensures.get_bind
  rintro current rfl
  split
  · rename_i captured
    cases fit.ready apart with
    | edit held | gone held => exact absurd (held.uncaptured.symm.trans captured) false_ne_true
    | alone alone =>
      refine ask_accepts_bind succeeds ?_
      rintro _ rfl
      refine ask_accepts_bind succeeds ?_
      rintro _ rfl
      rintro _ rfl
      exact .gone ⟨⟨alone.owned, alone.live, alone.attached, alone.idle, alone.unmarked⟩, rfl,
        rfl, rfl⟩
  · exact Ensures.pure fun _ same => same ▸ fit

theorem capturePointer_fit (fit : Fit setting before) :
    Ensures (fun service => service = before) (capturePointer setting) fun _ => Fit setting := by
  unfold capturePointer
  apply Ensures.get_bind
  rintro current rfl
  split
  · exact Ensures.pure fun _ same => same ▸ fit
  rename_i uncaptured
  split
  · exact Ensures.pure fun _ same => same ▸ fit
  refine ask_accepts_bind succeeds ?_
  rintro start rfl
  refine Ensures.bind (fun _ service => ∃ calls, service = { start with
    calls := calls
    delegate := { start.delegate with region := [setting.surfaceBounds] }
    pointerCaptured := true }) ?_ fun _ => ?_
  · rintro _ rfl
    exact ⟨_, rfl⟩
  refine ask_accepts_bind succeeds ?_
  rintro _ ⟨calls, rfl⟩
  rintro _ rfl
  cases fit with
  | edit held => exact .both ⟨rfl, rfl, rfl⟩ held.owned held.live
  | gone gone =>
    exact .alone ⟨⟨rfl, rfl, rfl⟩, ⟨gone.owned, gone.live, gone.attached, gone.idle, gone.unmarked⟩⟩
  | alone alone | both alone => exact absurd alone.captured uncaptured

/-! ## Edit events -/

omit succeeds in
theorem beginDrag_held (shapes : List ShapeRecord) (event : EditEvent) (held : Held before) :
    Ensures (fun service => service = before) (beginDrag setting shapes event) fun began after =>
      (began = false ∧ after = before) ∨
        (began = true ∧ Held after ∧ after.session.interaction.isSome = true ∧
          after.session.pointerGrabbed = before.session.pointerGrabbed ∧
          after.scene = before.scene ∧ after.session.editable = before.session.editable ∧
          after.delegate = before.delegate) := by
  unfold beginDrag
  apply Ensures.get_bind
  rintro current rfl
  dsimp only
  split
  · exact Ensures.pure fun _ same => .inl ⟨rfl, same⟩
  rintro service rfl
  refine .inr ⟨rfl, ?_, rfl, rfl, rfl, rfl, rfl⟩
  exact ⟨held.owned, held.live, held.attached, held.handler, held.uncaptured, held.grip,
    fun _ => rfl⟩

theorem grabPointer_held (held : Held before) (dragging : before.session.interaction.isSome = true)
    (unmarked : before.session.pointerGrabbed = false) :
    Ensures (fun service => service = before) (grabPointer setting) fun result after =>
      result = .ok () ∧ Held after ∧ Gripped after ∧ after.scene = before.scene ∧
        after.session.editable = before.session.editable ∧
        after.delegate.region = before.delegate.region := by
  unfold grabPointer
  apply Ensures.get_bind
  rintro current rfl
  rw [if_neg (by rw [unmarked]; exact false_ne_true), if_pos held.attached]
  refine Ensures.bind (fun _ service => service = { current with
    session := { current.session with pointerGrabbed := true } }) ?_ fun _ => ?_
  · rintro _ rfl
    rfl
  refine ask_accepts succeeds ?_
  rintro _ rfl
  refine ⟨rfl, ?_, fun _ => rfl, rfl, rfl, rfl⟩
  exact ⟨held.owned, held.live, held.attached, held.handler, held.uncaptured, fun _ => rfl,
    fun _ => dragging⟩

/-- A press, where the second look shows the same region. -/
theorem buttonPress_fit (held : Held before) (gripped : Gripped before)
    (region : before.delegate.region = editRegion setting before)
    (calm : before.session.dragging = false → event.button = primaryPointerButton →
      setting.editInputRegion
          (before.scene.drainExpired (setting.clock before.readings)).asSnapshot.shapes
          before.session.editable = editRegion setting before) :
    Ensures (fun service => service = before) (buttonPress setting event) fun _ => Fit setting := by
  unfold buttonPress
  apply Ensures.get_bind
  rintro current rfl
  dsimp only
  split
  · rename_i begins
    rw [and_eq_true, beq_iff_eq, not_eq_true'] at begins
    refine Ensures.bind _ sceneSnapshot_looks fun snapshot => ?_
    apply Ensures.of_forall
    rintro looked ⟨holdings, _, core, _⟩
    have isHeld := held.of_holdings holdings
    have session : looked.session = current.session := congrArg Holdings.session holdings
    have sameRegion : looked.delegate.region = editRegion setting looked := by
      have shapes : looked.scene.asSnapshot.shapes =
          (current.scene.drainExpired (setting.clock current.readings)).asSnapshot.shapes :=
        congrArg (fun records : List ShapeRecord => records.mergeSort Scene.paintedBefore)
          (Scene.live_of_core core)
      rw [editRegion, shapes, session, calm begins.1 begins.2]
      exact (congrArg Holdings.region holdings).trans region
    have idle : looked.session.interaction = none := by
      rw [session]
      exact Option.isNone_iff_eq_none.mp (Option.isSome_eq_false_iff.mp begins.1)
    refine Ensures.bind _ (beginDrag_held _ event isHeld) fun began => ?_
    apply Ensures.of_forall
    rintro begun (⟨rfl, rfl⟩ | ⟨rfl, stillHeld, dragging, marked, scene, editable, delegate⟩)
    · apply Ensures.pure
      rintro _ rfl
      exact .edit isHeld (gripped.of_holdings holdings) sameRegion
    have unmarked := marked.trans (isHeld.ungrabbed idle).1
    refine Ensures.bind _ (grabPointer_held succeeds stillHeld dragging unmarked) fun result => ?_
    apply Ensures.of_forall
    rintro after ⟨rfl, afterHeld, afterGripped, afterScene, afterEditable, afterRegion⟩
    apply Ensures.pure
    rintro _ rfl
    refine .edit afterHeld afterGripped ?_
    rw [afterRegion, delegate, sameRegion, editRegion, editRegion, afterScene, afterEditable,
      scene, editable]
  · exact Ensures.pure fun _ same => same ▸ .edit held gripped region

/-- The target of a drag is live now and at the next reading. -/
def Remains (setting : Setting) (service : Service) : Prop :=
  ∃ record, some record ∈ service.scene.entries ∧
    record.id = service.session.target.getD {} ∧
    ∀ deadline ∈ service.scene.deadlines, deadline.id = record.id →
      setting.clock service.readings < deadline.expiresAt

omit succeeds in
theorem sceneUpdate_remains (inStep : InStep setting before) (remains : Remains setting before)
    (shape : Shape) :
    Ensures (fun service => service = before)
      (sceneUpdate setting (before.session.target.getD {}) shape) fun result after =>
      after.holdings = before.holdings ∧
        (result = .ok () ∨ result = .error Scene.invalidGeometry) := by
  rintro service rfl
  have operates := onScene_operates setting
    (fun now scene => scene.update now (service.session.target.getD {}) shape) service service rfl
  rcases inStep with ⟨deltas, synced⟩
  rcases remains with ⟨record, member, isTarget, waits⟩
  have updated := Scene.update_live synced.tracks member waits shape
  rw [isTarget] at updated
  refine ⟨operates.holdings, ?_⟩
  rcases updated with accepted | refused
  · exact .inl (operates.value.trans accepted)
  · exact .inr (operates.value.trans refused)

theorem refuseShape_gone {error : Error} (fatal : error.code ≠ .staleShape) :
    Ensures Held (refuseShape setting error) fun _ => Gone := by
  unfold refuseShape
  rw [if_neg fatal]
  apply Ensures.of_forall
  intro before held
  refine Ensures.bind (fun _ => Held) ?_ fun cancelled => ?_
  · exact (cancelDrag_held succeeds true held).weaken fun _ _ both => both.1.1
  refine Ensures.bind _ (rememberError_held error) fun _ => ?_
  apply Ensures.of_forall
  intro current isHeld
  refine Ensures.bind (fun _ => Gone) ?_ fun _ => Ensures.pure fun _ gone => gone
  exact Ensures.discard ((terminateEdit_closes succeeds isHeld).weaken fun _ _ closed => closed.2.1)

theorem pointerMotion_fit (held : Held before) (gripped : Gripped before)
    (region : before.delegate.region = editRegion setting before) (inStep : InStep setting before)
    (remains : (before.session.update setting event.position).isSome = true →
      Remains setting before) :
    Ensures (fun service => service = before) (pointerMotion setting event)
      fun _ => Fit setting := by
  unfold pointerMotion
  apply Ensures.get_bind
  rintro current rfl
  dsimp only
  split
  · exact Ensures.pure fun _ same => same ▸ .edit held gripped region
  rename_i preview moves
  rw [moves] at remains
  refine Ensures.bind _ (sceneUpdate_remains inStep (remains rfl) preview) fun result => ?_
  apply Ensures.of_forall
  rintro updated ⟨holdings, rfl | rfl⟩
  · refine (refreshEdit_fit succeeds).strengthen ?_
    rintro _ rfl
    exact .edit (held.of_holdings holdings) (gripped.of_holdings holdings)
  refine Ensures.consequence (refuseShape_gone succeeds (by decide)) ?_ ?_
  · rintro _ rfl
    exact held.of_holdings holdings
  · exact fun _ _ gone => .gone gone

theorem commitDrag_fit (target : ShapeId) (event : EditEvent) (notification : Option Notification)
    (held : Held before) (region : before.delegate.region = editRegion setting before)
    (moves : (before.session.update setting event.position).isSome = true) :
    Ensures (fun service => service = before) (commitDrag setting target event notification)
      fun _ => Fit setting := by
  unfold commitDrag
  refine Ensures.bind _ (releaseSessionPointer_frees succeeds held.attached held.grip)
    fun released => ?_
  apply Ensures.of_forall
  rintro freed ⟨rfl, frees⟩
  apply Ensures.get_bind
  rintro current rfl
  have session := frees.session
  have still : current.session.update setting event.position =
      before.session.update setting event.position := by
    rw [session]
    rfl
  rcases Option.isSome_iff_exists.mp moves with ⟨committed, isCommitted⟩
  dsimp only
  rw [still, isCommitted]
  rintro after rfl
  refine .edit ⟨?_, ?_, ?_, ?_, ?_, ?_, ?_⟩ ?_ ?_
  · exact frees.owned.trans held.owned
  · exact (congrArg Session.live session).trans held.live
  · exact (congrArg Session.attached session).trans held.attached
  · exact (congrArg Session.editHandlerInstalled session).trans held.handler
  · exact frees.pointerCaptured.trans held.uncaptured
  · intro grabbed
    exact absurd (frees.ungrabbed.symm.trans grabbed) false_ne_true
  · intro marked
    exact absurd ((congrArg Session.pointerGrabbed session).symm.trans marked) false_ne_true
  · nofun
  have editable := congrArg Session.editable session
  change after.delegate.region = setting.editInputRegion after.scene.asSnapshot.shapes
    after.session.editable
  rw [frees.region, region, frees.scene, editable]
  rfl

theorem buttonRelease_fit (held : Held before) (gripped : Gripped before)
    (region : before.delegate.region = editRegion setting before) (inStep : InStep setting before)
    (remains : event.button = before.session.button →
      (before.session.update setting event.position).isSome = true → Remains setting before) :
    Ensures (fun service => service = before) (buttonRelease setting event)
      fun _ => Fit setting := by
  unfold buttonRelease
  apply Ensures.get_bind
  rintro current rfl
  dsimp only
  split
  · rename_i sameButton
    rw [beq_iff_eq] at sameButton
    split
    · exact Ensures.pure fun _ same => same ▸ .edit held gripped region
    rename_i shape moves
    have remains := remains sameButton (by rw [moves]; rfl)
    refine Ensures.bind _ (sceneUpdate_remains inStep remains shape) fun result => ?_
    apply Ensures.of_forall
    rintro updated ⟨holdings, rfl | rfl⟩
    · have isHeld := held.of_holdings holdings
      have session : updated.session = current.session := congrArg Holdings.session holdings
      refine Ensures.bind _ (refreshEdit_fresh succeeds isHeld) fun notification => ?_
      apply Ensures.get_bind
      rintro refreshed (⟨stillHeld, newRegion, continues⟩ | gone)
      · split
        · rename_i dragging
          rw [and_eq_true] at dragging
          refine commitDrag_fit succeeds _ event _ stillHeld newRegion ?_
          rcases continues with ⟨_, idle⟩ | ⟨_, looks⟩
          · have noDrag := dragging.2
            rw [Session.dragging, idle] at noDrag
            cases noDrag
          rw [Session.update, looks.interaction, session]
          change (current.session.update setting event.position).isSome = true
          rw [moves]
          rfl
        · exact Ensures.pure fun _ same => same ▸
            .edit stillHeld (continues.gripped (gripped.of_holdings holdings)) newRegion
      · rw [gone.owned]
        exact Ensures.pure fun _ same => same ▸ .gone gone
    · refine Ensures.consequence (refuseShape_gone succeeds (by decide)) ?_ ?_
      · rintro _ rfl
        exact held.of_holdings holdings
      · exact fun _ _ gone => .gone gone
  · exact Ensures.pure fun _ same => same ▸ .edit held gripped region

theorem notifyUngrab_fit (held : Held before) (lost : before.delegate.grabbed = false)
    (region : before.delegate.region = editRegion setting before) :
    Ensures (fun service => service = before) (notifyUngrab setting) fun _ => Fit setting := by
  unfold notifyUngrab
  refine Ensures.bind (fun _ service => Held service ∧
    service.delegate.region = editRegion setting service) ?_ fun _ => ?_
  · rintro service rfl
    refine ⟨⟨held.owned, held.live, held.attached, held.handler, held.uncaptured, ?_, ?_⟩, region⟩
    · intro grabbed
      exact absurd (lost.symm.trans grabbed) false_ne_true
    · nofun
  apply Ensures.get_bind
  rintro current ⟨isHeld, isRegion⟩
  split
  · refine Ensures.bind _ (cancelDrag_held succeeds true isHeld) fun cancelled => ?_
    refine Ensures.bind (fun _ => Fit setting) ?_ fun _ => Ensures.pure fun _ fit => fit
    refine (refreshEdit_fit succeeds).strengthen ?_
    rintro idle ⟨⟨stillHeld, isIdle⟩, _⟩
    refine .edit stillHeld ?_
    intro dragging
    rw [isIdle] at dragging
    cases dragging
  · rename_i notDragging
    apply Ensures.pure
    rintro _ rfl
    exact .edit isHeld (fun dragging => absurd dragging notDragging) isRegion

/-- What an edit event counts on does not expire between its first two looks at the clock: the
shapes in the region for a press, the target for a motion or a release. -/
def Calm (setting : Setting) (service : Service) (event : EditEvent) : Prop :=
  let shown := service.scene.drainExpired (setting.clock service.readings)
  let later := setting.clock (service.readings + 1)
  let session := service.session
  match event.kind with
  | .buttonPress =>
    session.dragging = false → event.button = primaryPointerButton →
      setting.editInputRegion (shown.drainExpired later).asSnapshot.shapes session.editable =
        setting.editInputRegion shown.asSnapshot.shapes session.editable
  | .pointerMotion =>
    (session.update setting event.position).isSome = true →
      ∀ deadline ∈ shown.deadlines, deadline.id = session.target.getD {} →
        later < deadline.expiresAt
  | .buttonRelease =>
    event.button = session.button → (session.update setting event.position).isSome = true →
      ∀ deadline ∈ shown.deadlines, deadline.id = session.target.getD {} →
        later < deadline.expiresAt
  | .notifyUngrab => True

variable (looks : Looks setting before after)

include looks

omit succeeds in
/-- The shapes shown after a refresh that lets the session go on. -/
theorem Looks.shapes :
    after.scene.asSnapshot.shapes =
      (before.scene.drainExpired (setting.clock before.readings)).asSnapshot.shapes :=
  congrArg (fun records : List ShapeRecord => records.mergeSort Scene.paintedBefore)
    (Scene.live_of_core looks.core)

omit succeeds in
theorem Looks.later_shapes :
    (after.scene.drainExpired (setting.clock after.readings)).asSnapshot.shapes =
      ((before.scene.drainExpired (setting.clock before.readings)).drainExpired
        (setting.clock (before.readings + 1))).asSnapshot.shapes := by
  rw [looks.readings]
  exact congrArg (fun records : List ShapeRecord => records.mergeSort Scene.paintedBefore)
    (Scene.live_of_core (Scene.core_drainExpired looks.core _))

omit succeeds in
theorem Looks.remains (dragging : after.session.interaction.isSome = true)
    (calm : ∀ deadline ∈ (before.scene.drainExpired (setting.clock before.readings)).deadlines,
      deadline.id = before.session.target.getD {} →
        setting.clock (before.readings + 1) < deadline.expiresAt) : Remains setting after := by
  rcases looks.targets dragging with ⟨record, member, isTarget⟩
  have deadlines : after.scene.deadlines =
      (before.scene.drainExpired (setting.clock before.readings)).deadlines :=
    Scene.deadlines_of_core looks.core
  refine ⟨record, member, isTarget, ?_⟩
  intro deadline isWaiting isRecord
  rw [looks.readings]
  apply calm deadline (deadlines ▸ isWaiting)
  rw [isRecord, isTarget, looks.target]

omit looks in
omit succeeds in
theorem Session.dragging_of_update {session : Session} {position : SpacePoint}
    (moves : (session.update setting position).isSome = true) :
    session.interaction.isSome = true := by
  unfold Session.update at moves
  cases dragging : session.interaction with
  | none =>
    rw [dragging] at moves
    cases moves
  | some interaction => rfl

/-- An event behind a refresh that has nothing to tell. -/
theorem dispatch_fit (held : Held after) (inStep : InStep setting after)
    (gripped : event.kind ≠ .notifyUngrab → Gripped after)
    (lost : event.kind = .notifyUngrab → after.delegate.grabbed = false)
    (region : after.delegate.region = editRegion setting after) (calm : Calm setting before event) :
    Ensures (fun service => service = after) (dispatch setting event none)
      fun _ => Fit setting := by
  unfold Calm at calm
  unfold dispatch
  cases kind : event.kind with
  | buttonPress =>
    rw [kind] at calm gripped
    refine buttonPress_fit succeeds event held (gripped (by decide)) region ?_
    intro idle primary
    rw [Session.dragging, looks.interaction] at idle
    rw [editRegion, looks.later_shapes, looks.shapes, looks.editable]
    exact calm idle primary
  | pointerMotion =>
    rw [kind] at calm gripped
    refine pointerMotion_fit succeeds event held (gripped (by decide)) region inStep ?_
    intro moves
    apply looks.remains (Session.dragging_of_update moves)
    rw [Session.update, looks.interaction] at moves
    exact calm moves
  | buttonRelease =>
    rw [kind] at calm gripped
    refine buttonRelease_fit succeeds event held (gripped (by decide)) region inStep ?_
    intro button moves
    apply looks.remains (Session.dragging_of_update moves)
    rw [Session.update, looks.interaction] at moves
    exact calm (button.trans looks.button) moves
  | notifyUngrab =>
    refine Ensures.bind _ (notifyUngrab_fit succeeds held (lost kind) region) fun told => ?_
    exact Ensures.pure fun _ fit => fit

omit looks

/-- An event behind a refresh that cancelled the drag. -/
theorem dispatch_told (told : notification.isSome = true) (held : Held before)
    (idle : before.session.interaction = none)
    (region : before.delegate.region = editRegion setting before) :
    Ensures (fun service => service = before) (dispatch setting event notification)
      fun _ => Fit setting := by
  have gripped : Gripped before := by
    intro dragging
    rw [idle] at dragging
    cases dragging
  have silent : ¬notification.isNone = true := by
    rw [Option.isNone_iff_eq_none]
    rintro rfl
    cases told
  have left : ∀ program : Action (Option Notification), Ensures (fun service => service = before)
      (if notification.isNone = true then program else pure notification) fun _ => Fit setting := by
    intro program
    rw [if_neg silent]
    exact Ensures.pure fun _ same => same ▸ .edit held gripped region
  unfold dispatch
  cases event.kind with
  | buttonPress | pointerMotion | buttonRelease => exact left _
  | notifyUngrab =>
    refine Ensures.bind _ (notifyUngrab_fit succeeds held (held.ungrabbed idle).2 region)
      fun answer => ?_
    exact Ensures.pure fun _ fit => fit

/-- The condition on an edit event: its session is not under a capture, and it is calm. -/
def Undisturbed (setting : Setting) (service : Service) (number : Nat) (event : EditEvent) : Prop :=
  service.owned = true → service.session.number = number →
    service.pointerCaptured = false ∧ Calm setting service event

omit succeeds in
/-- Losing the grab does not change what an event counts on. -/
theorem lose_held (held : Held before) :
    Held { before with delegate := { before.delegate with grabbed := false } } := by
  refine ⟨held.owned, held.live, held.attached, held.handler, held.uncaptured, ?_, held.mark⟩
  intro grabbed
  cases grabbed

theorem handleEditEvent_fit (number : Nat) (event : EditEvent) (fit : Fit setting before)
    (inStep : InStep setting before) (undisturbed : Undisturbed setting before number event) :
    Ensures (fun service => service = before) (handleEditEvent setting number event)
      fun _ => Fit setting := by
  unfold handleEditEvent
  apply Ensures.get_bind
  rintro current rfl
  split
  · rename_i addressed
    rw [and_eq_true, and_eq_true, beq_iff_eq] at addressed
    rcases undisturbed addressed.1.1 addressed.1.2 with ⟨uncaptured, calm⟩
    have free : ¬(current.pointerCaptured = true ∧ current.owned = true) := by
      rintro ⟨captured, _⟩
      exact absurd (uncaptured.symm.trans captured) false_ne_true
    rcases fit.held_of_owned free addressed.1.1 with ⟨held, gripped⟩
    refine Ensures.bind (fun _ service => Held service ∧ InStep setting service ∧
      Calm setting service event ∧ (event.kind ≠ .notifyUngrab → Gripped service) ∧
      (event.kind = .notifyUngrab → service.delegate.grabbed = false)) ?_ fun _ => ?_
    · unfold onlyIf
      split
      · rename_i isUngrab
        rintro service rfl
        refine ⟨lose_held held, inStep.of_eq rfl rfl rfl rfl, calm, ?_, fun _ => rfl⟩
        exact fun other => absurd (beq_iff_eq.mp isUngrab) other
      rename_i other
      rintro service rfl
      refine ⟨held, inStep, calm, fun _ => gripped, ?_⟩
      exact fun isUngrab => absurd (beq_iff_eq.mpr isUngrab) other
    · apply Ensures.of_forall
      rintro start ⟨startHeld, startInStep, startCalm, startGripped, startLost⟩
      refine Ensures.bind (fun notification after => (Held after ∧
        after.delegate.region = editRegion setting after ∧
        Continues setting start notification after ∨ Gone after) ∧ InStep setting after) ?_
        fun notification => ?_
      · rintro service rfl
        exact ⟨refreshEdit_fresh succeeds startHeld service rfl,
          inStepRule.refreshEdit_kept _ startInStep⟩
      apply Ensures.get_bind
      rintro after ⟨⟨isHeld, region, continues⟩ | gone, afterInStep⟩
      · refine Ensures.bind (fun _ => Fit setting) ?_ fun _ => invokeNotification_fit _
        rw [isHeld.owned, isHeld.live]
        rcases continues with ⟨told, idle⟩ | ⟨rfl, looks⟩
        · exact dispatch_told succeeds event told isHeld idle region
        refine dispatch_fit succeeds event looks isHeld afterInStep ?_ ?_ region startCalm
        · intro other dragging
          rw [looks.interaction] at dragging
          exact looks.grabbed.trans (startGripped other dragging)
        · exact fun isUngrab => looks.grabbed.trans (startLost isUngrab)
      · rw [gone.owned]
        refine Ensures.bind (fun _ => Fit setting) ?_ fun _ => invokeNotification_fit _
        exact Ensures.pure fun _ same => same ▸ .gone gone
  · exact Ensures.pure fun _ same => same ▸ fit

end Successful

/-! ## Runs -/

/-- The step keeps captures and sessions apart.  A capture may begin during a session, but nothing
may touch either of them then; and no session starts under a capture. -/
def Apart (setting : Setting) (service : Service) : Step → Prop
  | .startEdit _ => service.pointerCaptured = true → service.owned = true
  | .stopEdit number =>
    service.owned = true → service.session.number = number → service.pointerCaptured = false
  | .editEvent number event => Undisturbed setting service number event
  | .capturePointer => True
  -- A fence is no operation on the pointer or the shapes.
  | .flush => False
  | _ => ¬(service.pointerCaptured = true ∧ service.owned = true)

/-- Every step of a run keeps them apart. -/
def Careful (setting : Setting) (service : Service) : List Step → Prop
  | [] => True
  | step :: rest => Apart setting service step ∧ Careful setting (service.step setting step) rest

theorem step_fit (succeeds : ∀ call, setting.replies call = none) (fit : Fit setting before)
    (inStep : InStep setting before) (step : Step) (apart : Apart setting before step) :
    Fit setting (before.step setting step) := by
  have fits : Ensures (fun service => service = before) (perform setting step)
      fun _ => Fit setting := by
    have ready : ∀ {α : Type} {program : Action α},
        ¬(before.pointerCaptured = true ∧ before.owned = true) →
        Ensures (Ready setting) program (fun _ => Fit setting) →
        Ensures (fun service => service = before) program fun _ => Fit setting := by
      intro α program free ensures
      exact ensures.strengthen fun _ same => same ▸ fit.ready free
    cases step with
    | add shape => exact Ensures.discard (ready apart (add_fit succeeds shape))
    | addMany shapes => exact Ensures.discard (ready apart (addMany_fit succeeds shapes))
    | update id shape => exact Ensures.discard (ready apart (update_fit succeeds id shape))
    | remove id => exact Ensures.discard (ready apart (remove_fit succeeds id))
    | clear => exact ready apart (clear_fit succeeds)
    | flush => exact apart.elim
    | startEdit editable => exact Ensures.discard (startEdit_fit succeeds editable fit apart)
    | stopEdit session => exact Ensures.discard (stopEdit_fit succeeds session fit apart)
    | capturePointer => exact Ensures.discard (capturePointer_fit succeeds fit)
    | releasePointer => exact Ensures.discard (releasePointer_fit succeeds fit apart)
    | editEvent session event =>
      exact handleEditEvent_fit succeeds session event fit inStep apart
  exact fits before rfl

/-- When every call of the delegate succeeds and captures and sessions keep apart, what is installed
for the pointer is right behind every step. -/
theorem pointer_consistent (setting : Setting) (succeeds : ∀ call, setting.replies call = none)
    (steps : List Step) (careful : Careful setting {} steps) :
    Consistent setting (Service.run setting {} steps) := by
  have runs : ∀ (steps : List Step) (service : Service), Fit setting service →
      InStep setting service → Careful setting service steps →
        Fit setting (service.run setting steps) := by
    intro steps
    induction steps with
    | nil => exact fun service fit _ _ => fit
    | cons step rest later =>
      intro service fit inStep careful
      exact later _ (step_fit succeeds fit inStep step careful.1)
        (inStepRule.step_kept inStep step) careful.2
  have initial : Fit setting {} := .gone ⟨⟨rfl, rfl, rfl, rfl, rfl⟩, rfl, rfl, rfl⟩
  exact (runs steps {} initial inStep_initial careful).consistent

/-- One display, where nothing is hit and every call succeeds. -/
def display : Setting where
  surfaceBounds := ⟨0, 0, 1920, 1080⟩
  transformShape := .ok
  detailedHitTest := fun _ _ _ => none
  editInputRegion := fun _ editable => editable.map fun _ => ⟨0, 0, 10, 10⟩
  draggedShape := fun shape _ _ _ => some shape
  clock := fun reading => reading
  replies := fun _ => none
  leftover := fun _ => {}

def press : EditEvent where
  kind := .buttonPress
  position := { x := .ofInt _ 5, y := .ofInt _ 5, space := ⟨0⟩ }
  button := 1

/-- A capture, and behind it an edit session with a press. -/
theorem pointer_consistent_press :
    Careful display {} [.capturePointer, .releasePointer, .startEdit [], .editEvent 0 press] ∧
      Consistent display (Service.run display {}
        [.capturePointer, .releasePointer, .startEdit [], .editEvent 0 press]) := by
  have careful : Careful display {}
      [.capturePointer, .releasePointer, .startEdit [], .editEvent 0 press] := by
    refine ⟨trivial, ?_, ?_, ?_, trivial⟩
    · rintro ⟨_, impossible⟩
      cases impossible
    · nofun
    · intro _ _
      exact ⟨rfl, fun _ _ => rfl⟩
  exact ⟨careful, pointer_consistent display (fun _ => rfl) _ careful⟩

/-- An edit session that ends under a capture takes the region of the capture away. -/
theorem pointer_inconsistent :
    (∀ call, display.replies call = none) ∧
      (Service.run display {} [.startEdit [], .capturePointer, .stopEdit 0]).pointerCaptured =
        true ∧
      (Service.run display {} [.startEdit [], .capturePointer, .stopEdit 0]).delegate.region = [] ∧
      ¬Consistent display
        (Service.run display {} [.startEdit [], .capturePointer, .stopEdit 0]) := by
  refine ⟨fun _ => rfl, rfl, rfl, ?_⟩
  rintro ⟨region, _⟩
  cases region

end Service

end Grab.Overlay
