import Mathlib.Data.List.Basic

/-!
# The X11 input seat

`X11InputSeat` of `drivers/desktop/x11/x11_routes.cpp` over a seat whose calls may fail, with or
without effect.  It remembers a control as held when a press succeeded, and forgets all of them at
the end of every `neutralize`.

The model keeps what the seat below holds down beside the seat.  The ledger is the list of what was
recorded in it; its clock and its capacity are left out, as are the mutex and the lane.
-/

namespace Grab.Desktop

open List Function

/-- What can be pressed: a button or a key, by its X detail. -/
inductive Control where
  | button (detail : UInt8)
  | key (keycode : UInt8)
  deriving DecidableEq

/-- The answer of the seat below.  A call that failed may have taken effect. -/
inductive Reply where
  | success
  | failure (applied : Bool)
  deriving DecidableEq

def Reply.hasValue : Reply → Bool
  | .success => true
  | .failure _ => false

def Reply.applied : Reply → Bool
  | .success => true
  | .failure applied => applied

inductive NeutralizationOutcome where
  | notAttempted
  | nothingHeld
  | released
  | failed
  deriving DecidableEq

inductive InjectionKind where
  | motion
  | buttonPress
  | buttonRelease
  | keyPress
  | keyRelease
  deriving DecidableEq

def injectionKind : Control → Bool → InjectionKind
  | .button _, true => .buttonPress
  | .button _, false => .buttonRelease
  | .key _, true => .keyPress
  | .key _, false => .keyRelease

def Control.detail : Control → UInt8
  | .button detail => detail
  | .key keycode => keycode

structure X11InputSeat where
  /-- `held_buttons_` and `held_keys_`. -/
  held : Control → Bool
  ledger : Option (List (InjectionKind × UInt8))
  /-- What the calls of this seat left down below it. -/
  down : Control → Bool

namespace X11InputSeat

def create (ledger : Option (List (InjectionKind × UInt8))) : X11InputSeat where
  held := fun _ => false
  ledger := ledger
  down := fun _ => false

def record (seat : X11InputSeat) (kind : InjectionKind) (detail : UInt8) : X11InputSeat :=
  { seat with ledger := seat.ledger.map (· ++ [(kind, detail)]) }

/-- The call of the seat below. -/
def inject (seat : X11InputSeat) (control : Control) (press : Bool) (reply : Reply) :
    X11InputSeat :=
  if reply.applied then { seat with down := Function.update seat.down control press } else seat

def movePointerAbsolute (seat : X11InputSeat) (reply : Reply) : X11InputSeat × Bool :=
  if reply.hasValue then (seat.record .motion 0, true) else (seat, false)

/-- `button` and `key` differ in the array they write and in what they record. -/
def send (seat : X11InputSeat) (control : Control) (press : Bool) (reply : Reply) :
    X11InputSeat × Bool :=
  let seat := seat.inject control press reply
  if reply.hasValue then
    ({ seat with held := Function.update seat.held control press }.record
      (injectionKind control press) control.detail, true)
  else (seat, false)

def button (seat : X11InputSeat) (detail : UInt8) (press : Bool) (reply : Reply) :
    X11InputSeat × Bool :=
  seat.send (.button detail) press reply

def key (seat : X11InputSeat) (keycode : UInt8) (press : Bool) (reply : Reply) :
    X11InputSeat × Bool :=
  seat.send (.key keycode) press reply

/-- The indices of both arrays, the buttons first. -/
def controls : List Control :=
  (List.range 256).map (fun index => .button (UInt8.ofNat index)) ++
    (List.range 256).map (fun index => .key (UInt8.ofNat index))

/-- The locals of `neutralize` with the seat. -/
structure Neutralization where
  seat : X11InputSeat
  held : Bool
  failed : Bool

/-- One round of the loops of `neutralize`. -/
def releaseHeld (replies : Control → Reply) (pass : Neutralization) (control : Control) :
    Neutralization :=
  if pass.seat.held control then
    let seat := pass.seat.inject control false (replies control)
    if (replies control).hasValue then
      { seat := seat.record (injectionKind control false) control.detail
        held := true
        failed := pass.failed }
    else { seat := seat, held := true, failed := true }
  else pass

def neutralize (seat : X11InputSeat) (replies : Control → Reply) (flushed : Bool) :
    X11InputSeat × NeutralizationOutcome :=
  let pass := controls.foldl (releaseHeld replies) { seat := seat, held := false, failed := false }
  let failed := pass.failed || !flushed
  ({ pass.seat with held := fun _ => false },
    if failed then .failed else if pass.held then .released else .nothingHeld)

/-! ## The loops of `neutralize` -/

theorem mem_controls (control : Control) : control ∈ controls := by
  apply mem_append.mpr
  cases control with
  | button detail =>
    left
    exact mem_map.mpr ⟨detail.toNat, mem_range.mpr detail.toNat_lt, by simp⟩
  | key keycode =>
    right
    exact mem_map.mpr ⟨keycode.toNat, mem_range.mpr keycode.toNat_lt, by simp⟩

section Loop

variable {replies : Control → Reply} {pass : Neutralization} {control other : Control}

theorem releaseHeld_held (replies : Control → Reply) (pass : Neutralization) (control : Control) :
    (releaseHeld replies pass control).seat.held = pass.seat.held := by
  unfold releaseHeld inject record
  split
  · split <;> split <;> rfl
  · rfl

theorem releaseHeld_down : (releaseHeld replies pass control).seat.down other =
      if other = control ∧ pass.seat.held control = true ∧ (replies control).applied = true then
        false
      else pass.seat.down other := by
  have injected : (pass.seat.inject control false (replies control)).down other =
      if other = control ∧ (replies control).applied = true then false
      else pass.seat.down other := by
    unfold inject
    by_cases applied : (replies control).applied = true
    · rw [if_pos applied]
      simp only [update_apply, applied, and_true]
    · rw [if_neg applied, if_neg fun both => applied both.2]
  unfold releaseHeld
  by_cases held : pass.seat.held control = true
  · rw [if_pos held]
    simp only [held, true_and]
    split <;> exact injected
  · rw [if_neg held, if_neg fun all => held all.2.1]

theorem releaseHeld_failed : (releaseHeld replies pass control).failed =
      (pass.failed || (pass.seat.held control && !(replies control).hasValue)) := by
  unfold releaseHeld
  split
  · rename_i held
    split
    · rename_i succeeded
      rw [held, succeeded, Bool.not_true, Bool.and_false, Bool.or_false]
    · rename_i failed
      rw [Bool.not_eq_true] at failed
      rw [held, failed, Bool.not_false, Bool.and_true, Bool.or_true]
  · rename_i up
    rw [Bool.not_eq_true] at up
    rw [up, Bool.false_and, Bool.or_false]

/-- The loops lift what is held where the call took effect, and leave the rest as it is. -/
theorem foldl_releaseHeld (replies : Control → Reply) (calls : List Control)
    (pass : Neutralization) : (calls.foldl (releaseHeld replies) pass).seat.held = pass.seat.held ∧
      (∀ control, (calls.foldl (releaseHeld replies) pass).seat.down control =
        if control ∈ calls ∧ pass.seat.held control = true ∧ (replies control).applied = true then
          false
        else pass.seat.down control) ∧
      ((calls.foldl (releaseHeld replies) pass).failed = false ↔
        pass.failed = false ∧ ∀ control ∈ calls, pass.seat.held control = true →
          (replies control).hasValue = true) := by
  induction calls generalizing pass with
  | nil => simp
  | cons first rest later =>
    have ⟨held, down, failed⟩ := later (releaseHeld replies pass first)
    rw [foldl_cons]
    rw [releaseHeld_held] at held down failed
    refine ⟨held, fun control => ?_, failed.trans ?_⟩
    · rw [down control, releaseHeld_down]
      by_cases same : control = first
      · rw [same]
        by_cases lifted : pass.seat.held first = true ∧ (replies first).applied = true
        · simp [lifted]
        · simp only [lifted, and_false, if_false]
      · simp [same]
    · rw [releaseHeld_failed]
      simp only [Bool.or_eq_false_iff, Bool.and_eq_false_iff, Bool.not_eq_false',
        forall_mem_cons, and_assoc]
      cases pass.seat.held first <;> simp

end Loop

variable (seat : X11InputSeat) (replies : Control → Reply) (flushed : Bool)

/-- What `neutralize` leaves down. -/
theorem neutralize_down (control : Control) : (seat.neutralize replies flushed).1.down control =
      if seat.held control = true ∧ (replies control).applied = true then false
      else seat.down control := by
  have ⟨_, down, _⟩ := foldl_releaseHeld replies controls
    { seat := seat, held := false, failed := false }
  unfold neutralize
  rw [down control]
  simp only [mem_controls, true_and]

/-- `neutralize` fails when a release or the flush failed. -/
theorem neutralize_failed : (seat.neutralize replies flushed).2 ≠ .failed ↔
      flushed = true ∧ ∀ control, seat.held control = true → (replies control).hasValue = true := by
  have ⟨_, _, failed⟩ := foldl_releaseHeld replies controls
    { seat := seat, held := false, failed := false }
  simp only [mem_controls, true_implies, true_and] at failed
  rw [← failed]
  unfold neutralize
  dsimp only
  cases (controls.foldl (releaseHeld replies)
    { seat := seat, held := false, failed := false }).failed with
  | true => simp
  | false =>
    cases flushed with
    | true =>
      simp only [Bool.not_true, Bool.or_false, Bool.false_eq_true, if_false, ne_eq, and_self,
        iff_true]
      split <;> exact nofun
    | false => simp

theorem neutralize_not_failed : (seat.neutralize replies flushed).2 = .nothingHeld ∨
        (seat.neutralize replies flushed).2 = .released ↔
      (seat.neutralize replies flushed).2 ≠ .failed := by
  unfold neutralize
  dsimp only
  split
  · simp
  · split <;> simp

/-! ## Runs -/

/-- A call with the answers it gets from the seat below. -/
inductive Call where
  | movePointerAbsolute (reply : Reply)
  | button (detail : UInt8) (press : Bool) (reply : Reply)
  | key (keycode : UInt8) (press : Bool) (reply : Reply)
  | flush (reply : Reply)
  | neutralize (replies : Control → Reply) (flushed : Bool)

def step (seat : X11InputSeat) : Call → X11InputSeat
  | .movePointerAbsolute reply => (seat.movePointerAbsolute reply).1
  | .button detail press reply => (seat.button detail press reply).1
  | .key keycode press reply => (seat.key keycode press reply).1
  | .flush _ => seat
  | .neutralize replies flushed => (seat.neutralize replies flushed).1

def run (seat : X11InputSeat) (calls : List Call) : X11InputSeat := calls.foldl step seat

/-- Whenever `neutralize` says that nothing is held any more, nothing is down. -/
def Truthful (seat : X11InputSeat) : Prop :=
  ∀ replies flushed, (seat.neutralize replies flushed).2 = .nothingHeld ∨
      (seat.neutralize replies flushed).2 = .released →
    ∀ control, (seat.neutralize replies flushed).1.down control = false

/-- Everything that is down is remembered. -/
def Recorded (seat : X11InputSeat) : Prop :=
  ∀ control, seat.down control = true → seat.held control = true

/-- A press that failed and took effect is of a control that is remembered already. -/
def SendCareful (seat : X11InputSeat) (control : Control) (press : Bool) (reply : Reply) : Prop :=
  press = true → reply = .failure true → seat.held control = true

/-- A call after which the seat still remembers everything that is down. -/
def Call.Careful (seat : X11InputSeat) : Call → Prop
  | .movePointerAbsolute _ => True
  | .button detail press reply => seat.SendCareful (.button detail) press reply
  | .key keycode press reply => seat.SendCareful (.key keycode) press reply
  | .flush _ => True
  | .neutralize replies _ =>
    ∀ control, seat.down control = true → (replies control).applied = true

def CarefulRun (seat : X11InputSeat) : List Call → Prop
  | [] => True
  | call :: rest => call.Careful seat ∧ CarefulRun (seat.step call) rest

variable {seat : X11InputSeat}

theorem truthful_iff_recorded : seat.Truthful ↔ seat.Recorded := by
  constructor
  · intro truthful control down
    by_contra forgotten
    have quiet := truthful (fun _ => .success) true
      ((neutralize_not_failed _ _ _).mpr ((neutralize_failed _ _ _).mpr ⟨rfl, fun _ _ => rfl⟩))
      control
    rw [neutralize_down, if_neg fun both => forgotten both.1, down] at quiet
    cases quiet
  · intro recorded replies flushed outcome control
    rw [neutralize_not_failed, neutralize_failed] at outcome
    rw [neutralize_down]
    split
    · rfl
    rename_i kept
    cases down : seat.down control with
    | false => rfl
    | true =>
      have held := recorded control down
      have succeeded := outcome.2 control held
      exfalso
      apply kept
      refine ⟨held, ?_⟩
      cases reply : replies control with
      | success => rfl
      | failure applied =>
        rw [reply] at succeeded
        cases succeeded

theorem send_recorded_iff (recorded : seat.Recorded) (control : Control) (press : Bool)
    (reply : Reply) :
    (seat.send control press reply).1.Recorded ↔ seat.SendCareful control press reply := by
  cases reply with
  | success =>
    refine iff_of_true ?_ (fun _ impossible => nomatch impossible)
    intro other down
    change Function.update seat.down control press other = true at down
    change Function.update seat.held control press other = true
    rw [update_apply] at down ⊢
    split at down
    · rename_i same
      rw [if_pos same]
      exact down
    · rename_i different
      rw [if_neg different]
      exact recorded other down
  | failure applied =>
    cases applied with
    | false => exact iff_of_true recorded (fun _ impossible => nomatch impossible)
    | true =>
      change (∀ other, Function.update seat.down control press other = true →
        seat.held other = true) ↔ (press = true → _ → seat.held control = true)
      constructor
      · intro kept pressed _
        apply kept control
        rw [update_self, pressed]
      intro careful other down
      rw [update_apply] at down
      split at down
      · rename_i same
        rw [same]
        exact careful down rfl
      · exact recorded other down

/-- A step keeps everything remembered exactly when it is careful. -/
theorem step_recorded_iff (recorded : seat.Recorded) (call : Call) :
    (seat.step call).Recorded ↔ call.Careful seat := by
  cases call with
  | movePointerAbsolute reply =>
    refine iff_of_true ?_ trivial
    cases reply
    · exact recorded
    · exact recorded
  | button detail press reply => exact send_recorded_iff recorded (.button detail) press reply
  | key keycode press reply => exact send_recorded_iff recorded (.key keycode) press reply
  | flush reply => exact iff_of_true recorded trivial
  | neutralize replies flushed =>
    -- Nothing is remembered afterwards, so nothing may be down.
    constructor
    · intro kept control down
      by_contra lost
      have remembered := kept control (by
        change (seat.neutralize replies flushed).1.down control = true
        rw [neutralize_down, if_neg fun both => lost both.2, down])
      cases remembered
    intro careful control down
    change (seat.neutralize replies flushed).1.down control = true at down
    rw [neutralize_down] at down
    split at down
    · cases down
    · rename_i kept
      exact absurd ⟨recorded control down, careful control down⟩ kept

theorem run_recorded_iff (calls : List Call) (recorded : seat.Recorded) :
    (∀ made, (seat.run (calls.take made)).Recorded) ↔ CarefulRun seat calls := by
  induction calls generalizing seat with
  | nil => exact iff_of_true (fun made => by rw [take_nil]; exact recorded) trivial
  | cons call rest later =>
    constructor
    · intro kept
      have next : (seat.step call).Recorded := kept 1
      exact ⟨(step_recorded_iff recorded call).mp next, (later next).mp fun made => kept (made + 1)⟩
    rintro ⟨careful, others⟩ made
    have next := (step_recorded_iff recorded call).mpr careful
    cases made with
    | zero => exact recorded
    | succ made => exact (later next).mpr others made

/-- The report of `neutralize` is true at every point of a run exactly when every press that took
effect was remembered, and every release that `neutralize` made lifted what it was for. -/
theorem neutralize_truthful_iff (ledger : Option (List (InjectionKind × UInt8)))
    (calls : List Call) :
    (∀ made, ((create ledger).run (calls.take made)).Truthful) ↔
      CarefulRun (create ledger) calls := by
  simp only [truthful_iff_recorded]
  exact run_recorded_iff calls fun _ down => nomatch down

/-- A key is pressed and the first `neutralize` cannot lift it.  The second says that nothing is
held. -/
theorem neutralize_forgets :
    let pressed := (create none).run [.key 38 true .success]
    let failed := pressed.neutralize (fun _ => .failure false) true
    let repeated := failed.1.neutralize (fun _ => .success) true
    failed.2 = .failed ∧ repeated.2 = .nothingHeld ∧ repeated.1.down (.key 38) = true := by
  decide +kernel

end X11InputSeat

end Grab.Desktop
