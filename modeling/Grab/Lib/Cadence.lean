import Mathlib.Order.Basic
import Mathlib.Data.List.Basic

/-!
# Machines with lazy deadlines

A machine that looks at its deadlines whenever something happens: at an event, before it acts on
it, or because somebody asks.  When letting time pass in two steps is the same as in one, it does
not matter how often somebody asks between the events.
-/

namespace Grab.Lib

open List

universe u

/-- What happens to a machine, and when. -/
inductive Input (ε τ : Type u) where
  | event (event : ε) (moment : τ)
  | tick (moment : τ)

namespace Input

variable {ε τ : Type u}

def instant : Input ε τ → τ
  | .event _ moment => moment
  | .tick moment => moment

def isEvent : Input ε τ → Bool
  | .event _ _ => true
  | .tick _ => false

end Input

/-- A state with what was put out on the way to it. -/
def andThen {σ ω : Type u} (before : σ × List ω) (next : σ → σ × List ω) : σ × List ω :=
  ((next before.1).1, before.2 ++ (next before.1).2)

variable {σ ω : Type u}

theorem andThen_assoc (before : σ × List ω) (first second : σ → σ × List ω) :
    andThen (andThen before first) second =
      andThen before fun state => andThen (first state) second := by
  unfold andThen
  rw [append_assoc]

@[simp]
theorem andThen_stay (before : σ × List ω) :
    andThen before (fun state => (state, [])) = before := by
  unfold andThen
  rw [append_nil]

structure LazyMachine (σ ε ω τ : Type u) where
  lapse : τ → σ → σ × List ω
  act : ε → τ → σ → σ × List ω

namespace LazyMachine

variable {σ ε ω τ : Type u} (machine : LazyMachine σ ε ω τ)

def step : Input ε τ → σ → σ × List ω
  | .event event moment, state => andThen (machine.lapse moment state) (machine.act event moment)
  | .tick moment, state => machine.lapse moment state

def run : List (Input ε τ) → σ → σ × List ω
  | [], state => (state, [])
  | input :: rest, state => andThen (machine.step input state) (run rest)

theorem run_append (first second : List (Input ε τ)) (state : σ) :
    machine.run (first ++ second) state = andThen (machine.run first state)
      (machine.run second) := by
  induction first generalizing state with
  | nil => rfl
  | cons input rest ih =>
    rw [cons_append, run, run, andThen_assoc]
    unfold andThen
    rw [ih]
    rfl

section

variable [Preorder τ]

/-- Letting time pass in two steps is the same as in one. -/
def Absorbs : Prop :=
  ∀ state early late, early ≤ late →
    andThen (machine.lapse early state) (machine.lapse late) = machine.lapse late state

variable {machine} {late : τ} (absorbs : machine.Absorbs)

include absorbs

variable (inputs : List (Input ε τ))

/-- A tick in front of later inputs that end at a later moment makes no difference. -/
theorem Absorbs.tick_run {early late : τ} (later : ∀ input ∈ inputs, early ≤ input.instant)
    (last : early ≤ late) (state : σ) :
    andThen (machine.lapse early state) (machine.run (inputs ++ [.tick late])) =
      machine.run (inputs ++ [.tick late]) state := by
  have first : ∃ input rest, inputs ++ [Input.tick late] = input :: rest ∧
      early ≤ input.instant := by
    cases inputs with
    | nil => exact ⟨_, _, rfl, last⟩
    | cons input rest => exact ⟨_, _, rfl, later input mem_cons_self⟩
  rcases first with ⟨input, rest, split, after⟩
  rw [split]
  have passed := absorbs state early input.instant after
  cases input with
  | event event moment =>
    change andThen (machine.lapse early state) (fun middle =>
      andThen (andThen (machine.lapse moment middle) (machine.act event moment))
        (machine.run rest)) =
      andThen (andThen (machine.lapse moment state) (machine.act event moment)) (machine.run rest)
    rw [← andThen_assoc, ← andThen_assoc, show
      andThen (machine.lapse early state) (machine.lapse moment) = machine.lapse moment state from
        passed]
  | tick moment =>
    change andThen (machine.lapse early state) (fun middle =>
      andThen (machine.lapse moment middle) (machine.run rest)) =
      andThen (machine.lapse moment state) (machine.run rest)
    rw [← andThen_assoc, show
      andThen (machine.lapse early state) (machine.lapse moment) = machine.lapse moment state from
        passed]

variable (sorted : inputs.Pairwise fun first second => first.instant ≤ second.instant)

include sorted

variable (before : ∀ input ∈ inputs, input.instant ≤ late)

include before

/-- Leaving out the ticks of a run that ends with one makes no difference. -/
theorem Absorbs.run_tick (state : σ) :
    machine.run (inputs ++ [.tick late]) state =
      machine.run (inputs.filter Input.isEvent ++ [.tick late]) state := by
  induction inputs generalizing state with
  | nil => rfl
  | cons input rest ih =>
    rw [pairwise_cons] at sorted
    have beforeRest : ∀ other ∈ rest, other.instant ≤ late :=
      fun other member => before other (mem_cons_of_mem _ member)
    have rests := ih sorted.2 beforeRest
    cases input with
    | event event moment =>
      rw [filter_cons_of_pos rfl, cons_append, cons_append, run, run]
      unfold andThen
      rw [rests]
    | tick moment =>
      rw [filter_cons_of_neg Bool.false_ne_true, cons_append, run]
      have removed := absorbs.tick_run (rest.filter Input.isEvent)
        (fun other member => sorted.1 other (mem_filter.mp member).1)
        (before (.tick moment) mem_cons_self) state
      rw [← removed]
      unfold andThen
      rw [rests]
      rfl

/-- Ticks between events make no difference to the state after the last event and to what was put
out until then. -/
theorem Absorbs.run_event {event : ε} (state : σ) :
    machine.run (inputs ++ [.event event late]) state =
      machine.run (inputs.filter Input.isEvent ++ [.event event late]) state := by
  have acts : ∀ others : List (Input ε τ), machine.run (others ++ [.event event late]) state =
      andThen (machine.run (others ++ [.tick late]) state) (machine.act event late) := by
    intro others
    rw [run_append, run_append, andThen_assoc]
    apply congrArg (andThen _)
    funext middle
    simp only [run, step, andThen_stay]
  rw [acts, acts, absorbs.run_tick inputs sorted before]

end

end LazyMachine

end Grab.Lib
