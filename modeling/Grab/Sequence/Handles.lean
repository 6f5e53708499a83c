import Grab.Sequence.SessionSeat

/-!
# Repeated overlay steps and the handles of a document

Clearing, releasing and detaching again change nothing.  A removal takes the handle of its shape
away, and what comes second finds no shape of that name; so does a removal behind a clear, which the
loader takes for a handle that is live.
-/

namespace Grab.Overlay

open Grab.Lib List

namespace Scene

variable {scene : Scene}

theorem live_clear (scene : Scene) (now : Milliseconds) : (scene.clear now).live = [] := by
  rw [clear, live_of_core (core_beginPublication _), live, eq_nil_iff_forall_not_mem]
  intro record member
  rw [reduceOption_mem_iff] at member
  rcases mem_map.mp member with ⟨_, _, impossible⟩
  cases impossible

/-- There is nothing to update in a scene with nothing live. -/
theorem live_update (empty : scene.live = []) (now : Milliseconds) (id : ShapeId) (shape : Shape) :
    (scene.update now id shape).1.live = [] := by
  have drained := live_of_shrinks empty (shrinks_drainExpired scene now)
  unfold update
  dsimp only
  split
  · rw [live_of_core (core_beginPublication _), drained]
  rename_i entrySlot found
  rcases find_spec found with ⟨record, here, _⟩
  have member := reduceOption_mem_iff.mpr (mem_of_getElem? here)
  rw [← live, drained] at member
  cases member

theorem live_snapshot (empty : scene.live = []) (now : Milliseconds) :
    (scene.snapshot now).1.live = [] := by
  rw [snapshot, live_of_core (core_beginPublication _)]
  exact live_of_shrinks empty (shrinks_drainExpired scene now)

end Scene

namespace Service

variable {setting : Setting}

/-- Nothing is live, and the capture is as given. -/
structure Bare (captured : Bool) (service : Service) : Prop where
  live : service.scene.live = []
  capture : service.pointerCaptured = captured

/-- An operation of the scene leaves the capture alone. -/
theorem onScene_bare {α : Type} {operation : Milliseconds → Scene → Scene × α} {captured : Bool}
    {pre : Service → Prop} (capture : ∀ service, pre service → service.pointerCaptured = captured)
    (empties : ∀ service, pre service → ∀ now, (operation now service.scene).1.live = []) :
    Ensures pre (onScene setting operation) fun _ => Bare captured := by
  intro service holds
  have operates := onScene_operates setting operation service service rfl
  constructor
  case live => exact (Scene.live_of_core operates.core).trans (empties service holds _)
  case capture =>
    exact (congrArg Holdings.pointerCaptured operates.holdings).trans (capture service holds)

/-- An edit session brings nothing back. -/
theorem bareRule (captured : Bool) : EditRule setting (Bare captured) := by
  constructor
  case frame =>
    constructor
    intro before after bare scene _ _ _ capture _
    exact ⟨scene ▸ bare.live, capture.trans bare.capture⟩
  case sceneUpdate =>
    intro id shape
    exact onScene_bare (fun _ bare => bare.capture)
      fun _ bare now => Scene.live_update bare.live now id shape
  case sceneSnapshot =>
    exact onScene_bare (fun _ bare => bare.capture)
      fun _ bare now => Scene.live_snapshot bare.live now

/-- A clear leaves nothing live and the capture as it was. -/
theorem clear_bare (captured : Bool) :
    Ensures (fun service => service.pointerCaptured = captured) (clear setting)
      fun _ => Bare captured := by
  have rule : EditRule setting (Bare captured) := bareRule captured
  unfold clear
  refine Ensures.bind (fun _ service => service.pointerCaptured = captured) ?_ fun _ => ?_
  · intro service capture
    have kept : Keeps (fun other => other.holdings = service.holdings)
        (recoverBestEffort setting) := recoverBestEffort_holdings service.holdings
    exact (congrArg Holdings.pointerCaptured (kept service rfl)).trans capture
  refine Ensures.bind (fun _ => Bare captured) ?_ fun _ => ?_
  · exact onScene_bare (fun _ => id) fun service _ now => service.scene.live_clear now
  · refine Keeps.get.bind fun service => ?_
    refine (Keeps.ite (rule.cancelDrag_kept _) (Keeps.pure _)).bind fun notification => ?_
    exact rule.refreshEdit_kept.bind fun _ => rule.frame.invokeNotification_kept _

/-- What a removal answers. -/
theorem remove_succeeds (id : ShapeId) :
    Ensures (fun _ => True) (remove setting id) fun result _ =>
      result = .ok () ∨ result = .error Scene.staleShape := by
  unfold remove
  refine Ensures.bind (fun _ _ => True) (fun _ _ => trivial) fun _ => ?_
  refine Ensures.bind (fun result _ => result = .ok () ∨ result = .error Scene.staleShape) ?_
    fun result => ?_
  · intro service _
    have operates := onScene_operates setting (fun now scene => scene.remove now id) service
      service rfl
    rw [sceneRemove, operates.value, Scene.remove]
    split
    · exact .inr rfl
    · exact .inl rfl
  · intro service answers
    exact answers

theorem releasePointer_released :
    Ensures (fun _ => True) (releasePointer setting) fun _ service =>
      service.pointerCaptured = false := by
  unfold releasePointer
  apply Ensures.get_bind
  intro current _
  split
  · refine Ensures.bind (fun _ _ => True) (fun _ _ => trivial) fun released => ?_
    refine Ensures.bind (fun _ _ => True) (fun _ _ => trivial) fun emptied => ?_
    refine Ensures.bind (fun _ service => service.pointerCaptured = false)
      (Ensures.modify fun _ _ => rfl) fun _ => ?_
    cases released with
    | error error | ok value => exact Ensures.pure fun _ => id
  rename_i idle
  apply Ensures.pure
  rintro _ rfl
  simpa using idle

theorem releasePointer_idle {service : Service} (idle : service.pointerCaptured = false) :
    (releasePointer setting).run service = (.ok (), service) := by
  unfold releasePointer
  change (if service.pointerCaptured then _ else _ : Action (Except Error Unit)).run service = _
  rw [idle]
  rfl

end Service

end Grab.Overlay

namespace Grab.Sequence

open Grab.Lib List Function
open Grab.Overlay (Shape ShapeRecord Service)

variable {setting : SeatSetting}

/-! ## One call -/

namespace Surface

variable {surface : Surface} {α : Type}

theorem invoke_open (isOpen : surface.closed = false) (operation : Overlay.Action (Except Error α))
    :
    surface.invoke operation = ((operation.run surface.service).1,
      { surface with service := (operation.run surface.service).2 }) :=
  if_neg (Bool.eq_false_iff.mp isOpen)

theorem store_handles (surface : Surface) (entry : Placed) :
    (surface.store entry).handles = surface.handles := by
  rw [handles, store, map_map]
  apply map_congr_left
  intro other _
  rw [comp_apply]
  split
  · rename_i same
    exact same.symm
  · rfl

variable {handle other : String} {entry : Placed}

theorem mem_forget :
    other ∈ (surface.forget handle).handles ↔ other ≠ handle ∧ other ∈ surface.handles := by
  simp only [handles, forget, mem_map, mem_filter, bne_iff_ne]
  constructor
  · rintro ⟨entry, ⟨member, apart⟩, rfl⟩
    exact ⟨apart, entry, member, rfl⟩
  · rintro ⟨apart, entry, member, rfl⟩
    exact ⟨entry, ⟨member, apart⟩, rfl⟩

theorem findShape_handle (found : surface.findShape handle = some entry) : entry.handle = handle :=
  beq_iff_eq.mp (find?_some found :)

theorem findShape_isSome : (surface.findShape handle).isSome ↔ handle ∈ surface.handles := by
  rw [findShape, find?_isSome, handles, mem_map]
  simp only [beq_iff_eq]

/-- What is written under a handle is found under it. -/
theorem findShape_store (known : entry.handle ∈ surface.handles) :
    (surface.store entry).findShape entry.handle = some entry := by
  rcases mem_map.mp known with ⟨old, member, same⟩
  have matches_ : ((fun other : Placed => other.handle == entry.handle) ∘ fun other : Placed =>
      if other.handle = entry.handle then entry else other) =
      fun other => other.handle == entry.handle := by
    funext other
    rw [comp_apply]
    split
    · rename_i equal
      rw [equal]
    · rfl
  have isSome : (surface.findShape entry.handle).isSome := findShape_isSome.mpr known
  rcases Option.isSome_iff_exists.mp isSome with ⟨old, found⟩
  have first := found
  unfold findShape at found ⊢
  rw [store, find?_map, matches_, found, Option.map_some, if_pos (findShape_handle first)]

variable (surface : Surface)

/-- Writing the same entry again changes nothing. -/
theorem store_store (entry : Placed) : (surface.store entry).store entry = surface.store entry := by
  simp only [store, map_map]
  congr 1
  apply map_congr_left
  intro other _
  rw [comp_apply]
  split
  · exact if_pos rfl
  · rfl

/-! ### What happens to the handles -/

variable (operation : Overlay.Action (Except Error α))

theorem invoke_handles : (surface.invoke operation).2.handles = surface.handles := by
  unfold invoke
  split <;> rfl

/-- A call is refused, or something is written down. -/
theorem settle_cases (next : α → Surface → Surface) :
    (∃ error after, after.handles = surface.handles ∧
      settle (surface.invoke operation) next = (.error error, after)) ∨
    ∃ value after, after.handles = surface.handles ∧
      settle (surface.invoke operation) next = (.ok (), next value after) := by
  unfold settle
  split
  · rename_i error _
    exact .inl ⟨error, _, invoke_handles surface operation, rfl⟩
  · rename_i value _
    exact .inr ⟨value, _, invoke_handles surface operation, rfl⟩

theorem mem_keep (apart : other ≠ handle ∨ handle = "") (surface : Surface) (id : Overlay.ShapeId)
    (shape : Shape) : other ∈ (surface.keep handle id shape).handles ↔ other ∈ surface.handles := by
  unfold keep
  split
  · rfl
  rename_i named
  have apart : other ≠ handle := apart.resolve_right named
  rw [handles, map_append, mem_append, map_singleton, mem_singleton]
  change other ∈ (surface.forget handle).handles ∨ other = handle ↔ _
  rw [mem_forget]
  constructor
  · rintro (⟨_, member⟩ | same)
    · exact member
    · exact absurd same apart
  · exact fun member => .inl ⟨apart, member⟩

/-- An addition does not concern other handles, and one without a handle concerns none. -/
theorem mem_place (apart : other ≠ handle ∨ handle = "") (surface : Surface) (shape : Shape) :
    other ∈ (surface.place setting handle shape).2.handles ↔ other ∈ surface.handles := by
  unfold place
  rcases settle_cases surface
      (Service.add setting.overlay (stamped setting.overlay.delegateSpace shape))
      (fun id surface => surface.keep handle id (stamped setting.overlay.delegateSpace shape)) with
    ⟨error, after, same, refused⟩ | ⟨id, after, same, accepted⟩
  · rw [refused, same]
  · rw [accepted, mem_keep apart, same]

/-- An addition that is accepted makes its handle known. -/
theorem place_known (named : handle ≠ "") (surface : Surface) (shape : Shape)
    (accepted : (surface.place setting handle shape).1 = .ok ()) :
    handle ∈ (surface.place setting handle shape).2.handles := by
  unfold place at accepted ⊢
  rcases settle_cases surface
      (Service.add setting.overlay (stamped setting.overlay.delegateSpace shape))
      (fun id surface => surface.keep handle id (stamped setting.overlay.delegateSpace shape)) with
    ⟨error, after, same, refused⟩ | ⟨id, after, same, settled⟩
  · rw [refused] at accepted
    cases accepted
  · rw [settled, keep, if_neg named, handles, map_append, mem_append]
    exact .inr (mem_singleton_self handle)

theorem update_handles (shape : Shape) (surface : Surface) (entry : Placed) :
    (surface.update setting shape entry).2.handles = surface.handles := by
  unfold update
  rcases settle_cases surface
      (Service.update setting.overlay entry.id (stamped setting.overlay.delegateSpace shape))
      (fun _ surface =>
        surface.store { entry with shape := stamped setting.overlay.delegateSpace shape }) with
    ⟨error, after, same, refused⟩ | ⟨_, after, same, settled⟩
  · rw [refused, same]
  · rw [settled, store_handles, same]

theorem mem_remove :
    other ∈ (surface.remove setting entry).2.handles ↔
      other ≠ entry.handle ∧ other ∈ surface.handles := by
  rw [remove, invoke_handles]
  exact mem_forget

/-- A removal of a shape that has a handle fails when the session is closed only. -/
theorem remove_answer (surface : Surface) (entry : Placed) : (surface.remove setting entry).1 =
      if surface.closed then .error sessionClosed else .ok () := by
  have answers := @Service.remove_succeeds setting.overlay entry.id surface.service trivial
  unfold remove invoke
  change forgiven (if surface.closed then _ else _ : Answer × Surface).1 = _
  split
  · rfl
  · rcases answers with accepted | stale
    · exact congrArg forgiven accepted
    · exact congrArg forgiven stale

/-- Clearing leaves nothing live, unless the session is closed. -/
theorem clear_cases (setting : SeatSetting) (surface : Surface) :
    ∃ service, surface.clear setting = (.ok (), { surface with service, shapes := [] }) ∧
      (surface.closed = true ∧ service = surface.service ∨
        surface.closed = false ∧ Service.Bare surface.service.pointerCaptured service) := by
  have bare := @Service.clear_bare setting.overlay _ surface.service rfl
  unfold clear
  by_cases isClosed : surface.closed = true
  · refine ⟨surface.service, ?_, .inl ⟨isClosed, rfl⟩⟩
    rw [invoke, if_pos isClosed]
  have isOpen := Bool.eq_false_iff.mpr isClosed
  refine ⟨_, ?_, .inr ⟨isOpen, bare⟩⟩
  rw [invoke_open isOpen]
  rfl

theorem attach_handles (offset : Option Geometry.Point) (surface : Surface) (entry : Placed) :
    (surface.attach setting offset entry).2.handles = surface.handles := by
  unfold attach
  split
  · exact store_handles surface _
  split
  · rfl
  · exact store_handles _ _

theorem carryAttached_handles (position : Geometry.Point) (entries : List Placed)
    (surface : Surface) :
    (surface.carryAttached setting position entries).handles = surface.handles := by
  induction entries generalizing surface with
  | nil => rfl
  | cons entry rest ih =>
    unfold carryAttached
    split
    · dsimp only
      split
      · rw [invoke_handles, store_handles]
      · rw [ih, invoke_handles, store_handles]
    · exact ih surface

end Surface

namespace SessionSeat

variable {seat : SessionSeat}

/-! ## One step -/

/-- A step that opens the overlay fails to, or acts on a surface with the same handles. -/
theorem onOverlay_cases (setting : SeatSetting) (seat : SessionSeat)
    (use : Surface → Answer × Surface) : (∃ error after, after.handles = seat.handles ∧
      seat.onOverlay setting use = (.error error, after)) ∨
    ∃ (surface : Surface) (before : SessionSeat), surface.handles = seat.handles ∧
      seat.onOverlay setting use = before.put (use surface) := by
  unfold onOverlay ensureOverlay
  split
  · rename_i error after outcome
    split at outcome
    · cases outcome
    rename_i closed
    dsimp only at outcome
    split at outcome
    · cases outcome
      refine .inl ⟨_, _, ?_, rfl⟩
      rw [handles, handles]
    · cases outcome
  · rename_i surface before outcome
    refine .inr ⟨surface, before, ?_, rfl⟩
    split at outcome
    · rename_i opened
      cases outcome
      rw [handles, opened]
    rename_i closed
    dsimp only at outcome
    split at outcome
    · cases outcome
    · cases outcome
      rw [handles, closed]
      rfl

theorem put_handles (seat : SessionSeat) (result : Answer × Surface) :
    (seat.put result).2.handles = result.2.handles :=
  rfl

/-- Nothing has the handle, or something is done with the shape of that name. -/
theorem onShape_cases (seat : SessionSeat) (handle : String)
    (use : Surface → Placed → Answer × Surface) :
    (handle ∉ seat.handles ∧ seat.onShape handle use = (.error (unknownHandle handle), seat)) ∨
    ∃ surface entry, seat.surface = some surface ∧ surface.findShape handle = some entry ∧
      seat.onShape handle use = seat.put (use surface entry) := by
  unfold onShape
  split
  · rename_i closed
    refine .inl ⟨?_, rfl⟩
    rw [handles, closed]
    exact not_mem_nil
  rename_i surface opened
  split
  · rename_i missing
    refine .inl ⟨?_, rfl⟩
    rw [handles, opened]
    intro known
    rw [← Surface.findShape_isSome, missing] at known
    cases known
  · rename_i entry found
    exact .inr ⟨surface, entry, opened, found, rfl⟩

theorem handles_opened {surface : Surface} (opened : seat.surface = some surface) :
    seat.handles = surface.handles := by
  rw [handles, opened]

theorem onShape_handles (handle : String) (use : Surface → Placed → Answer × Surface)
    (keeps : ∀ surface entry, (use surface entry).2.handles = surface.handles) :
    (seat.onShape handle use).2.handles = seat.handles := by
  rcases seat.onShape_cases handle use with ⟨_, missed⟩ | ⟨surface, entry, opened, _, acted⟩
  · rw [missed]
  · rw [acted, put_handles, keeps, handles_opened opened]

variable {handle : String} {other : String}

/-- A removal concerns its own handle only. -/
theorem mem_overlayRemove (apart : other ≠ handle) :
    other ∈ (seat.overlayRemove setting handle).2.handles ↔ other ∈ seat.handles := by
  rcases seat.onShape_cases handle (Surface.remove setting) with
    ⟨_, missed⟩ | ⟨surface, entry, opened, found, acted⟩
  · rw [overlayRemove, missed]
  · rw [overlayRemove, acted, put_handles, Surface.mem_remove, handles_opened opened,
      Surface.findShape_handle found]
    exact ⟨And.right, fun known => ⟨apart, known⟩⟩

/-- Behind a removal its handle is not known. -/
theorem overlayRemove_forgets : handle ∉ (seat.overlayRemove setting handle).2.handles := by
  rcases seat.onShape_cases handle (Surface.remove setting) with
    ⟨unknown, missed⟩ | ⟨surface, entry, opened, found, acted⟩
  · rw [overlayRemove, missed]
    exact unknown
  · rw [overlayRemove, acted, put_handles, Surface.mem_remove, Surface.findShape_handle found]
    exact fun known => known.1 rfl

/-- A removal misses exactly where its handle is not known. -/
theorem overlayRemove_unknown_iff :
    (seat.overlayRemove setting handle).1 = .error (unknownHandle handle) ↔
      handle ∉ seat.handles := by
  rcases seat.onShape_cases handle (Surface.remove setting) with
    ⟨unknown, missed⟩ | ⟨surface, entry, opened, found, acted⟩
  · rw [overlayRemove, missed]
    exact ⟨fun _ => unknown, fun _ => rfl⟩
  have known : handle ∈ surface.handles := Surface.findShape_isSome.mp (Option.isSome_of_mem found)
  rw [overlayRemove, acted, handles_opened opened, put, Surface.remove_answer]
  constructor
  · split <;> exact fun impossible => by cases impossible
  · exact fun unknown => absurd known unknown

theorem mem_overlayAdd (apart : other ≠ handle ∨ handle = "") (shape : Shape) :
    other ∈ (seat.overlayAdd setting handle shape).2.handles ↔ other ∈ seat.handles := by
  rcases onOverlay_cases setting seat fun surface => surface.place setting handle shape with
    ⟨error, after, same, refused⟩ | ⟨surface, before, same, acted⟩
  · rw [overlayAdd, refused, same]
  · rw [overlayAdd, acted, put_handles, Surface.mem_place apart, same]

theorem overlayAdd_known (named : handle ≠ "") (shape : Shape)
    (accepted : (seat.overlayAdd setting handle shape).1 = .ok ()) :
    handle ∈ (seat.overlayAdd setting handle shape).2.handles := by
  unfold overlayAdd at accepted ⊢
  rcases onOverlay_cases setting seat fun surface => surface.place setting handle shape with
    ⟨error, after, same, refused⟩ | ⟨surface, before, same, acted⟩
  · rw [refused] at accepted
    cases accepted
  · rw [acted] at accepted ⊢
    exact Surface.place_known named surface shape accepted

theorem overlayClear_handles : (seat.overlayClear setting).2.handles = [] := by
  unfold overlayClear onSurface
  split
  · rename_i closed
    rw [handles, closed]
  · rfl

theorem overlayGrab_handles : (seat.overlayGrab setting).2.handles = seat.handles := by
  rcases onOverlay_cases setting seat fun surface =>
      surface.invoke (Service.capturePointer setting.overlay) with
    ⟨error, after, same, refused⟩ | ⟨surface, before, same, acted⟩
  · rw [overlayGrab, refused, same]
  · rw [overlayGrab, acted, put_handles, Surface.invoke_handles, same]

theorem overlayRelease_handles : (seat.overlayRelease setting).2.handles = seat.handles := by
  unfold overlayRelease onSurface
  split
  · rfl
  · rename_i surface opened
    rw [put_handles, Surface.invoke_handles, handles_opened opened]

/-! ## Repeated steps -/

/-- What there is to see of an overlay. -/
structure OverlayState where
  shapes : List Placed
  live : List ShapeRecord
  captured : Bool

def stateOf (surface : Surface) : OverlayState where
  shapes := surface.shapes
  live := surface.service.scene.live
  captured := surface.service.pointerCaptured

def overlayState (seat : SessionSeat) : OverlayState :=
  match seat.surface with
  | none => { shapes := [], live := [], captured := false }
  | some surface => stateOf surface

def isOverlay : Command → Bool
  | .overlayAdd .. | .overlayUpdate .. | .overlayRemove .. | .overlayClear => true
  | .overlayGrab | .overlayRelease | .overlayAttach .. | .overlayDetach .. => true
  | _ => false

/-- If a step succeeds it succeeds again, and the second time it changes nothing. -/
def Repeats (setting : SeatSetting) (seat : SessionSeat) (command : Command) : Prop :=
  (seat.perform setting command).1 = .ok () →
    ((seat.perform setting command).2.perform setting command).1 = .ok () ∧
      ((seat.perform setting command).2.perform setting command).2.overlayState =
        (seat.perform setting command).2.overlayState

/-- The handle names a shape, and the session is open. -/
def Removable (seat : SessionSeat) (handle : String) : Prop :=
  ∃ surface, seat.surface = some surface ∧ surface.closed = false ∧ handle ∈ surface.handles

theorem overlayRemove_ok_iff :
    (seat.overlayRemove setting handle).1 = .ok () ↔ seat.Removable handle := by
  rcases seat.onShape_cases handle (Surface.remove setting) with
    ⟨unknown, missed⟩ | ⟨surface, entry, opened, found, acted⟩
  · rw [overlayRemove, missed]
    constructor
    · exact fun impossible => by cases impossible
    · rintro ⟨surface, opened, _, known⟩
      rw [handles_opened opened] at unknown
      exact absurd known unknown
  rw [overlayRemove, acted, put, Surface.remove_answer]
  constructor
  · intro accepted
    refine ⟨surface, opened, ?_, Surface.findShape_isSome.mp (Option.isSome_of_mem found)⟩
    split at accepted
    · cases accepted
    · rename_i isOpen
      exact Bool.eq_false_iff.mpr isOpen
  · rintro ⟨other, same, isOpen, _⟩
    cases opened.symm.trans same
    exact if_neg (Bool.eq_false_iff.mp isOpen)

/-- A removal that succeeds fails when it is made again. -/
theorem overlayRemove_repeats_iff :
    Repeats setting seat (.overlayRemove handle) ↔ ¬seat.Removable handle := by
  constructor
  · intro repeats removable
    have again := (repeats (overlayRemove_ok_iff.mpr removable)).1
    rcases overlayRemove_ok_iff.mp again with ⟨surface, opened, _, known⟩
    rw [← handles_opened opened] at known
    exact overlayRemove_forgets known
  · exact fun kept accepted => absurd (overlayRemove_ok_iff.mp accepted) kept

variable {command : Command}

/-- A step on the surface repeats when what it does there does. -/
theorem repeats_onSurface {use : Surface → Answer × Surface}
    (performs : ∀ seat : SessionSeat, seat.perform setting command = seat.onSurface use)
    (again : ∀ surface, (use surface).1 = .ok () → (use (use surface).2).1 = .ok () ∧
      stateOf (use (use surface).2).2 = stateOf (use surface).2) :
    Repeats setting seat command := by
  unfold Repeats
  simp only [performs]
  intro accepted
  cases opened : seat.surface with
  | none =>
    have idle : seat.onSurface use = (.ok (), seat) := by
      rw [onSurface, opened]
    rw [idle, idle]
    exact ⟨rfl, rfl⟩
  | some surface =>
    have acted : seat.onSurface use = seat.put (use surface) := by
      rw [onSurface, opened]
    rw [acted] at accepted ⊢
    exact again surface accepted

theorem overlayClear_repeats : Repeats setting seat .overlayClear := by
  apply repeats_onSurface (fun _ => rfl)
  intro surface _
  rcases surface.clear_cases setting with ⟨first, cleared, outcome⟩
  rcases { surface with service := first, shapes := [] : Surface }.clear_cases setting with
    ⟨second, again, after⟩
  rw [cleared, again]
  refine ⟨rfl, ?_⟩
  rcases after with ⟨_, same⟩ | ⟨isOpen, bare⟩
  · rw [same]
  · rcases outcome with ⟨isClosed, _⟩ | ⟨_, empty⟩
    · cases isClosed.symm.trans isOpen
    · rw [stateOf, stateOf, bare.live, bare.capture, empty.live]

theorem overlayRelease_repeats : Repeats setting seat .overlayRelease := by
  apply repeats_onSurface (fun _ => rfl)
  intro surface accepted
  cases isClosed : surface.closed with
  | true =>
    rw [Surface.invoke, if_pos isClosed] at accepted
    cases accepted
  | false =>
    have released := @Service.releasePointer_released setting.overlay surface.service trivial
    have idle : ∀ after : Surface, after.closed = false →
        after.service.pointerCaptured = false →
        after.invoke (Service.releasePointer setting.overlay) = (.ok (), after) := by
      intro after isOpen notCaptured
      rw [Surface.invoke_open isOpen, Service.releasePointer_idle notCaptured]
    rw [Surface.invoke_open isClosed]
    let after : Surface := { surface with
      service := ((Service.releasePointer setting.overlay).run surface.service).2 }
    have again := idle after isClosed released
    exact ⟨congrArg Prod.fst again, congrArg (fun result => stateOf result.2) again⟩

theorem overlayDetach_repeats : Repeats setting seat (.overlayDetach handle) := by
  intro accepted
  change (seat.onShape handle Surface.detach).1 = _ at accepted
  change ((seat.onShape handle Surface.detach).2.onShape handle Surface.detach).1 = _ ∧
    overlayState ((seat.onShape handle Surface.detach).2.onShape handle Surface.detach).2 =
      overlayState (seat.onShape handle Surface.detach).2
  rcases seat.onShape_cases handle Surface.detach with
    ⟨unknown, missed⟩ | ⟨surface, entry, opened, found, acted⟩
  · rw [missed] at accepted
    cases accepted
  have named : entry.handle = handle := Surface.findShape_handle found
  subst named
  have known := Surface.findShape_isSome.mp (Option.isSome_of_mem found)
  have stays : (surface.detach entry).2.findShape entry.handle =
      some { entry with attached := false } :=
    @Surface.findShape_store surface { entry with attached := false } known
  have again : (seat.put (surface.detach entry)).2.onShape entry.handle Surface.detach =
      seat.put ((surface.detach entry).2.detach { entry with attached := false }) := by
    simp only [onShape, put, stays]
  rw [acted, again]
  refine ⟨rfl, ?_⟩
  exact congrArg stateOf (Surface.store_store surface { entry with attached := false })

def changesHandles : Command → Bool
  | .overlayAdd .. | .overlayRemove .. | .overlayClear => true
  | _ => false

theorem perform_handles (quiet : changesHandles command = false) :
    (seat.perform setting command).2.handles = seat.handles := by
  cases command with
  | overlayAdd handle shape | overlayRemove handle | overlayClear => cases quiet
  | overlayUpdate handle shape =>
    exact onShape_handles handle _ (Surface.update_handles shape)
  | overlayGrab => exact overlayGrab_handles
  | overlayRelease => exact overlayRelease_handles
  | overlayAttach handle offset => exact onShape_handles handle _ (Surface.attach_handles offset)
  | overlayDetach handle => exact onShape_handles handle _ fun surface _ => surface.store_handles _
  | _ => rfl

/-! ## The handles of a document -/

/-- Whether a clear stands behind the last addition of a handle. -/
def clearedBy (handle : String) (cleared : Bool) : Command → Bool
  | .overlayAdd added _ => if added = handle then false else cleared
  | .overlayClear => true
  | _ => cleared

def clearedSince (handle : String) (commands : List Command) : Bool :=
  commands.foldl (clearedBy handle) false

/-- The additions of a handle in a run succeed. -/
def Added (setting : SeatSetting) (handle : String) (seat : SessionSeat) (events : List Event) :
    Prop :=
  ∀ earlier shape later, events = earlier ++ .step (.overlayAdd handle shape) :: later →
    ((seat.play setting earlier).perform setting (.overlayAdd handle shape)).1 = .ok ()

/-- A handle that the loader takes for live is known to the seat until a clear. -/
structure Agrees (handle : String) (live : Finset String) (cleared : Bool) (seat : SessionSeat) :
    Prop where
  named : "" ∉ live
  known : handle ∈ live → (handle ∈ seat.handles ↔ cleared = false)

variable {scope : Scope} {live tracked : Finset String} {cleared : Bool} {places : ℕ → Scope}
  {rest : List Command} {index : ℕ}

theorem useHandle_ok {used : String} {retires : Bool}
    (accepted : useHandle scope live used retires = .ok tracked) :
    used ∈ live ∧ tracked = if retires then live.erase used else live := by
  unfold useHandle at accepted
  split at accepted
  · cases accepted
  rename_i known
  refine ⟨not_not.mp known, ?_⟩
  cases retires with
  | true | false => cases accepted; rfl

theorem Agrees.of_handles {after : SessionSeat} (agrees : Agrees handle live cleared seat)
    (same : after.handles = seat.handles) : Agrees handle live cleared after := by
  refine ⟨agrees.named, ?_⟩
  rw [same]
  exact agrees.known

/-- What one command does, in the loader and in the seat. -/
theorem Agrees.step (agrees : Agrees handle live cleared seat) {command : Command}
    (accepted : trackHandles scope live command = .ok tracked)
    (added : ∀ shape, command = .overlayAdd handle shape →
      (seat.perform setting command).1 = .ok ()) :
    Agrees handle tracked (clearedBy handle cleared command) (seat.perform setting command).2 := by
  cases command with
  | overlayAdd new shape =>
    change (if new = "" then _ else _ : Except Error (Finset String)) = _ at accepted
    change Agrees handle tracked (if new = handle then false else cleared) _
    split at accepted
    · rename_i unnamed
      cases accepted
      constructor
      case named => exact agrees.named
      case known =>
        intro isLive
        have apart : new ≠ handle := by
          rintro rfl
          exact agrees.named (unnamed ▸ isLive)
        rw [if_neg apart]
        exact (mem_overlayAdd (.inr unnamed) shape).trans (agrees.known isLive)
    · rename_i named
      split at accepted
      · cases accepted
      cases accepted
      constructor
      case named =>
        rw [Finset.mem_insert, not_or]
        exact ⟨Ne.symm named, agrees.named⟩
      case known =>
        intro isLive
        by_cases same : new = handle
        · subst same
          rw [if_pos rfl]
          exact iff_of_true (overlayAdd_known named shape (added shape rfl)) rfl
        · rw [if_neg same]
          have before := Finset.mem_of_mem_insert_of_ne isLive (Ne.symm same)
          exact (mem_overlayAdd (.inl (Ne.symm same)) shape).trans (agrees.known before)
  | overlayRemove removed =>
    rcases useHandle_ok accepted with ⟨_, rfl⟩
    constructor
    case named => exact fun member => agrees.named (Finset.mem_of_mem_erase member)
    case known =>
      intro isLive
      have kept := Finset.mem_erase.mp isLive
      exact (mem_overlayRemove kept.1).trans (agrees.known kept.2)
  | overlayClear =>
    cases accepted
    constructor
    case named => exact agrees.named
    case known =>
      intro _
      change handle ∈ (seat.overlayClear setting).2.handles ↔ true = false
      rw [overlayClear_handles]
      exact iff_of_false not_mem_nil Bool.noConfusion
  | overlayUpdate used shape | overlayAttach used offset | overlayDetach used =>
    rcases useHandle_ok accepted with ⟨_, rfl⟩
    exact agrees.of_handles (perform_handles rfl)
  | _ =>
    cases accepted
    exact agrees.of_handles (perform_handles rfl)

/-- What happens besides the steps leaves the handles alone. -/
theorem map_handles {change : Surface → Surface}
    (keeps : ∀ surface, (change surface).handles = surface.handles) :
    handles { seat with surface := seat.surface.map change } = seat.handles := by
  cases opened : seat.surface with
  | none => rw [handles, handles, opened, Option.map_none]
  | some surface =>
    rw [handles, handles, opened, Option.map_some]
    exact keeps surface

theorem trackDocument_cons
    (accepted : trackDocument places index live (command :: rest) = .ok tracked) :
    ∃ after, trackHandles (places index) live command = .ok after ∧
      trackDocument places (index + 1) after rest = .ok tracked := by
  rw [trackDocument] at accepted
  split at accepted
  · cases accepted
  · rename_i after isTracked
    exact ⟨after, isTracked, accepted⟩

/-- The loader and the seat over a run. -/
theorem Agrees.play {events : List Event} (agrees : Agrees handle live cleared seat)
    (accepted : trackDocument places index live (commands events ++ rest) = .ok tracked)
    (added : Added setting handle seat events) :
    ∃ reached next, trackDocument places next reached rest = .ok tracked ∧
      Agrees handle reached ((commands events).foldl (clearedBy handle) cleared)
        (seat.play setting events) := by
  induction events generalizing seat live cleared index with
  | nil => exact ⟨live, index, accepted, agrees⟩
  | cons event later ih =>
    have addedLater : Added setting handle (seat.occur setting event) later := by
      intro earlier shape behind split
      exact added (event :: earlier) shape behind (congrArg (event :: ·) split)
    cases event with
    | step command =>
      rcases trackDocument_cons accepted with ⟨after, isTracked, acceptedLater⟩
      have stepped := agrees.step isTracked fun shape isAdd => by
        subst isAdd
        exact added [] shape later rfl
      exact ih stepped acceptedLater addedLater
    | waypoint position =>
      have carried := agrees.of_handles (map_handles fun surface =>
        @Surface.carryAttached_handles setting position surface.shapes surface)
      exact ih carried accepted addedLater
    | meanwhile change | close =>
      exact ih (agrees.of_handles (map_handles fun _ => rfl)) accepted addedLater

def square : Shape where
  geometry := .polygon []
  stroke := none
  fill := some { color := {} }

/-- A display where every call succeeds. -/
def steadySeat : SeatSetting where
  overlay :=
    { surfaceBounds := ⟨0, 0, 1920, 1080⟩
      transformShape := .ok
      detailedHitTest := fun _ _ _ => none
      editInputRegion := fun _ _ => []
      draggedShape := fun shape _ _ _ => some shape
      clock := fun reading => reading
      replies := fun _ => none
      leftover := fun _ => {} }
  opened := fun _ => .ok {}
  position := fun _ => .ok {}
  carried := fun geometry _ _ => geometry

/-- A shape that is added, cleared away and removed by its handle. -/
def addAndClear : List Event := [.step (.overlayAdd "a" square), .step .overlayClear]

end SessionSeat

end Grab.Sequence
