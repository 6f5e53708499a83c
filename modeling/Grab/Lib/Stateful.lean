import Mathlib.Init

/-!
# Programs on a state

Pre- and postconditions of programs that read and write one state.  A program is taken apart along
its sequence; a condition of the state that every part keeps is kept by the whole.
-/

namespace Grab.Lib

universe u

variable {σ α β : Type u} {pre stronger : σ → Prop} {post middle weaker : α → σ → Prop}

/-- A program that runs on a condition only. -/
def onlyIf {σ : Type} (condition : Bool) (program : StateM σ PUnit) : StateM σ PUnit :=
  if condition then program else pure ⟨⟩

/-- What is done about an error. -/
def onError {σ ε α : Type} (result : Except ε α) (handler : ε → StateM σ PUnit) : StateM σ PUnit :=
  match result with
  | .error error => handler error
  | .ok _ => pure ⟨⟩

/-- From every state with the precondition a program ends with the postcondition. -/
def Ensures (pre : σ → Prop) (program : StateM σ α) (post : α → σ → Prop) : Prop :=
  ∀ state, pre state → post (program.run state).1 (program.run state).2

/-- A condition that a program does not change. -/
def Keeps (kept : σ → Prop) (program : StateM σ α) : Prop := Ensures kept program fun _ => kept

namespace Ensures

theorem pure {value : α} (holds : ∀ state, pre state → post value state) :
    Ensures pre (Pure.pure value) post :=
  holds

theorem bind {first : StateM σ α} {next : α → StateM σ β} {last : β → σ → Prop}
    (middle : α → σ → Prop) (head : Ensures pre first middle)
    (tail : ∀ value, Ensures (middle value) (next value) last) :
    Ensures pre (first >>= next) last :=
  fun state holds => tail _ _ (head state holds)

variable {program : StateM σ α} (ensures : Ensures pre program post)

include ensures

theorem consequence (before : ∀ state, stronger state → pre state)
    (after : ∀ value state, post value state → weaker value state) :
    Ensures stronger program weaker :=
  fun state holds => after _ _ (ensures state (before state holds))

/-- Weaken what holds afterwards. -/
theorem weaken (after : ∀ value state, post value state → weaker value state) :
    Ensures pre program weaker :=
  ensures.consequence (fun _ => id) after

/-- Strengthen what holds before. -/
theorem strengthen (before : ∀ state, stronger state → pre state) : Ensures stronger program post :=
  ensures.consequence before fun _ _ => id

omit ensures

/-- Read the state and go on with it. -/
theorem get_bind {next : σ → StateM σ α} (ensures : ∀ current, pre current →
      Ensures (fun state => state = current) (next current) post) :
    Ensures pre (get >>= next) post :=
  fun state holds => ensures state holds state rfl

theorem modify {change : σ → σ} {post : PUnit → σ → Prop}
    (holds : ∀ state, pre state → post ⟨⟩ (change state)) :
    Ensures pre (modify change : StateM σ PUnit) post :=
  holds

theorem modifyGet {change : σ → α × σ}
    (holds : ∀ state, pre state → post (change state).1 (change state).2) :
    Ensures pre (MonadStateOf.modifyGet change : StateM σ α) post :=
  holds

/-- A program whose value is not used. -/
theorem discard {post : PUnit → σ → Prop} (ensures : Ensures pre program fun _ => post ⟨⟩) :
    Ensures pre (Functor.discard program) post :=
  ensures

/-- A condition on the inputs alone stands before the program. -/
theorem of_forall
    (ensures : ∀ state, pre state → Ensures (fun other => other = state) program post) :
    Ensures pre program post :=
  fun state holds => ensures state holds state rfl

end Ensures

namespace Keeps

variable {kept : σ → Prop}

theorem pure (value : α) : Keeps kept (Pure.pure value : StateM σ α) := fun _ holds => holds

theorem bind {first : StateM σ α} {next : α → StateM σ β} (head : Keeps kept first)
    (tail : ∀ value, Keeps kept (next value)) : Keeps kept (first >>= next) :=
  Ensures.bind _ head tail

theorem get : Keeps kept (get : StateM σ σ) := fun _ holds => holds

theorem modify {change : σ → σ} (holds : ∀ state, kept state → kept (change state)) :
    Keeps kept (modify change : StateM σ PUnit) :=
  holds

theorem ite {condition : Prop} [Decidable condition] {yes no : StateM σ α}
    (isYes : Keeps kept yes) (isNo : Keeps kept no) :
    Keeps kept (if condition then yes else no) := by
  split
  · exact isYes
  · exact isNo

end Keeps

namespace Keeps

variable {σ ε α : Type} {kept : σ → Prop}

theorem onlyIf {condition : Bool} {program : StateM σ PUnit} (keeps : Keeps kept program) :
    Keeps kept (onlyIf condition program) :=
  ite keeps (pure _)

theorem onError {result : Except ε α} {handler : ε → StateM σ PUnit}
    (keeps : ∀ error, Keeps kept (handler error)) : Keeps kept (onError result handler) := by
  cases result with
  | error error => exact keeps error
  | ok value => exact pure _

theorem discard {program : StateM σ α} (keeps : Keeps kept program) :
    Keeps kept (discard program) :=
  keeps

end Keeps

end Grab.Lib
