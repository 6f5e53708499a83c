import Grab.Lib.Stateful

/-!
# Programs that may fail

A program on a state whose value is an error or a result.  The next program is run on the result
only, and its conditions are stated for the two endings apart.
-/

namespace Grab.Lib

variable {σ ε α β : Type}

/-- Go on with the result of a program, unless it failed. -/
def proceed (first : StateM σ (Except ε α)) (next : α → StateM σ (Except ε β)) :
    StateM σ (Except ε β) := do
  match ← first with
  | .error error => return .error error
  | .ok value => next value

variable {first : StateM σ (Except ε α)} {next : α → StateM σ (Except ε β)} {kept : σ → Prop}
  {state after : σ}

theorem run_proceed_ok {value : α} (ended : first.run state = (.ok value, after)) :
    (proceed first next).run state = (next value).run after := by
  have ends : first state = (.ok value, after) := ended
  simp only [proceed, StateT.run, bind, StateT.bind, ends]

theorem run_proceed_error {error : ε} (ended : first.run state = (.error error, after)) :
    (proceed first next).run state = (.error error, after) := by
  have ends : first state = (.error error, after) := ended
  simp only [proceed, StateT.run, bind, StateT.bind, ends]
  rfl

/-- What holds after a failure and what holds after a success. -/
def Ends (failed : ε → σ → Prop) (done : α → σ → Prop) : Except ε α → σ → Prop
  | .error error => failed error
  | .ok value => done value

namespace Ensures

variable {pre : σ → Prop} {failed weaker : ε → σ → Prop} {succeeded middle : α → σ → Prop}
  {last : β → σ → Prop}

theorem fail {error : ε} (holds : ∀ state, pre state → failed error state) :
    Ensures pre (Pure.pure (Except.error error) : StateM σ (Except ε α)) (Ends failed succeeded) :=
  holds

theorem done {value : α} (holds : ∀ state, pre state → succeeded value state) :
    Ensures pre (Pure.pure (Except.ok value) : StateM σ (Except ε α)) (Ends failed succeeded) :=
  holds

theorem proceed (head : Ensures pre first (Ends weaker middle))
    (stops : ∀ error state, weaker error state → failed error state)
    (goes : ∀ value, Ensures (middle value) (next value) (Ends failed last)) :
    Ensures pre (Lib.proceed first next) (Ends failed last) := by
  refine Ensures.bind (Ends weaker middle) head ?_
  intro result
  cases result with
  | error error => exact Ensures.fail (stops error)
  | ok value => exact goes value

/-- Weaken both endings. -/
theorem ends {program : StateM σ (Except ε α)} (ensures : Ensures pre program (Ends weaker middle))
    (failures : ∀ error state, weaker error state → failed error state)
    (results : ∀ value state, middle value state → succeeded value state) :
    Ensures pre program (Ends failed succeeded) := by
  refine ensures.weaken ?_
  intro result state
  cases result with
  | error error => exact failures error state
  | ok value => exact results value state

end Ensures

/-- A condition that both programs keep is kept by their sequence. -/
theorem Keeps.proceed (head : Keeps kept first) (tail : ∀ value, Keeps kept (next value)) :
    Keeps kept (proceed first next) := by
  refine Keeps.bind head ?_
  intro result
  cases result with
  | error error => exact Keeps.pure _
  | ok value => exact tail value

/-- What is kept holds at both endings. -/
theorem Keeps.ends {program : StateM σ (Except ε α)} (keeps : Keeps kept program) :
    Ensures kept program (Ends (fun _ => kept) fun _ => kept) := by
  refine Ensures.weaken keeps ?_
  intro result state holds
  cases result with
  | error error | ok value => exact holds

end Grab.Lib
