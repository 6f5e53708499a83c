import Mathlib.Data.List.Basic

/-!
# Computations on machine sizes

A computation returns a value, reports an error, or is at fault: it reads outside a
buffer, wraps a size, or does not end.  `Meets` is what one proves of it: it is never at
fault, what it returns satisfies a postcondition, and it reports an error only where that
is allowed.  `Safe` allows errors and `Returns` does not.
-/

namespace Grab.Lib

universe u

/-- What a computation must never do. -/
inductive Fault where
  | outOfRange | wrapped | endless
  deriving DecidableEq, Repr

/-- Why a computation returned nothing. -/
inductive Stop (ε : Type u) where
  | fault (fault : Fault)
  | reported (error : ε)
  deriving DecidableEq, Repr

abbrev Checked (ε α : Type u) := Except (Stop ε) α

/-- The largest value of `std::size_t`. -/
def maxSize : Nat := 18446744073709551615

namespace Checked

section

variable {ε α : Type u}

def report (error : ε) : Checked ε α := .error (.reported error)

def faulty (fault : Fault) : Checked ε α := .error (.fault fault)

/-- Go on when a condition holds, report an error otherwise. -/
def require {ε : Type} (condition : Prop) [Decidable condition] (error : ε) : Checked ε Unit :=
  if condition then .ok () else report error

/-- Go on with the value when there is one. -/
def expect (found : Option α) (error : ε) : Checked ε α :=
  match found with
  | some value => .ok value
  | none => report error

end

section

variable {ε : Type}

/-! ## Sizes -/

def addSize (left right : Nat) : Checked ε Nat :=
  if left + right ≤ maxSize then .ok (left + right) else faulty .wrapped

def subSize (left right : Nat) : Checked ε Nat :=
  if right ≤ left then .ok (left - right) else faulty .wrapped

def mulSize (left right : Nat) : Checked ε Nat :=
  if left * right ≤ maxSize then .ok (left * right) else faulty .wrapped

variable {left right : Nat} {condition : Prop}

theorem addSize_ok (fits : left + right ≤ maxSize) :
    (addSize left right : Checked ε Nat) = .ok (left + right) :=
  if_pos fits

theorem subSize_ok (below : right ≤ left) :
    (subSize left right : Checked ε Nat) = .ok (left - right) :=
  if_pos below

theorem mulSize_ok (fits : left * right ≤ maxSize) :
    (mulSize left right : Checked ε Nat) = .ok (left * right) :=
  if_pos fits

/-! ## Buffers -/

variable {α : Type} {items : List α} {position : Nat}

def itemAt (items : List α) (position : Nat) : Checked ε α :=
  match items[position]? with
  | some item => .ok item
  | none => faulty .outOfRange

def setItem (items : List α) (position : Nat) (item : α) : Checked ε (List α) :=
  if position < items.length then .ok (items.set position item) else faulty .outOfRange

def subspan (items : List α) (offset count : Nat) : Checked ε (List α) :=
  if offset ≤ items.length ∧ count ≤ items.length - offset then
    .ok ((items.drop offset).take count)
  else faulty .outOfRange

/-- A callee wrote `count` items to a buffer of `capacity`. -/
def within (count capacity : Nat) : Checked ε Unit :=
  if count ≤ capacity then .ok () else faulty .outOfRange

theorem within_ok {count capacity : Nat} (below : count ≤ capacity) :
    (within count capacity : Checked ε Unit) = .ok () :=
  if_pos below

theorem itemAt_ok {item : α} (found : items[position]? = some item) :
    (itemAt items position : Checked ε α) = .ok item := by
  rw [itemAt, found]

theorem setItem_ok (inside : position < items.length) (item : α) :
    (setItem items position item : Checked ε (List α)) =
      .ok (items.set position item) :=
  if_pos inside

theorem subspan_ok {offset count : Nat} (inside : offset + count ≤ items.length) :
    (subspan items offset count : Checked ε (List α)) = .ok ((items.drop offset).take count) := by
  apply if_pos
  omega

/-! ## Loops -/

/-- `for` over the numbers below `count`. -/
def times {σ : Type} (body : Nat → σ → Checked ε σ) (state : σ) : Nat → Checked ε σ
  | 0 => .ok state
  | count + 1 => do
      let before ← times body state count
      body count before

/-- Repeat `body` until it returns; a body that keeps going for `fuel` rounds is endless. -/
def loop {σ : Type} (body : σ → Checked ε (σ ⊕ α)) : Nat → σ → Checked ε α
  | 0, _ => faulty .endless
  | fuel + 1, state => do
      match ← body state with
      | .inl next => loop body fuel next
      | .inr result => .ok result

/-! ## Sequencing -/

variable {β : Type} {computation : Checked ε α} {post : α → Prop} {error : ε} {value : α}

theorem ok_bind (value : α) (next : α → Checked ε β) :
    ((Except.ok value : Checked ε α) >>= next) = next value :=
  rfl

theorem bind_eq_ok {first : Checked ε α} {next : α → Checked ε β} {result : β} :
    (first >>= next) = .ok result ↔ ∃ value, first = .ok value ∧ next value = .ok result := by
  cases first with
  | error stop =>
    constructor
    · nofun
    · rintro ⟨value, impossible, _⟩
      cases impossible
  | ok value =>
    constructor
    · exact fun returned => ⟨value, rfl, returned⟩
    · rintro ⟨other, same, returned⟩
      cases same
      exact returned

theorem loop_inl {σ : Type} {body : σ → Checked ε (σ ⊕ α)} {state next : σ} {fuel : Nat}
    (round : body state = .ok (.inl next)) : loop body (fuel + 1) state = loop body fuel next := by
  rw [loop, round, ok_bind]

theorem require_eq_ok [Decidable condition] : (require condition error = .ok ()) ↔ condition := by
  unfold require report
  by_cases holds : condition
  · rw [if_pos holds]
    exact ⟨fun _ => holds, fun _ => rfl⟩
  rw [if_neg holds]
  constructor
  · nofun
  · exact fun impossible => absurd impossible holds

theorem require_ok [Decidable condition] (holds : condition) : require condition error = .ok () :=
  require_eq_ok.mpr holds

theorem expect_eq_ok {found : Option α} : expect found error = .ok value ↔ found = some value := by
  cases found with
  | none =>
    constructor
    · nofun
    · nofun
  | some other =>
    rw [expect, Except.ok.injEq, Option.some.injEq]

/-! ## Never at fault -/

/-- Never at fault; what is returned satisfies `post`, and an error is reported only when
`mayReport`. -/
def Meets (mayReport : Prop) (post : α → Prop) (computation : Checked ε α) : Prop :=
  match computation with
  | .ok value => post value
  | .error (.reported _) => mayReport
  | .error (.fault _) => False

abbrev Safe (post : α → Prop) (computation : Checked ε α) : Prop := Meets True post computation

abbrev Returns (post : α → Prop) (computation : Checked ε α) : Prop := Meets False post computation

section

variable {mayReport : Prop} {σ : Type} {state : σ}

theorem Meets.ok (holds : post value) : Meets mayReport post (.ok value : Checked ε α) :=
  holds

theorem Meets.of_ok (returned : computation = .ok value) (holds : post value) :
    Meets mayReport post computation := by
  rw [returned]
  exact holds

theorem Meets.bind {middle : α → Prop} {post : β → Prop} {first : Checked ε α}
    {next : α → Checked ε β} (meets : Meets mayReport middle first)
    (continues : ∀ value, middle value → Meets mayReport post (next value)) :
    Meets mayReport post (first >>= next) := by
  cases first with
  | ok value => exact continues value meets
  | error stop =>
    cases stop with
    | reported error => exact meets
    | fault fault => exact meets.elim

theorem Meets.weaken {stronger post : α → Prop} (meets : Meets mayReport stronger computation)
    (weaker : ∀ value, stronger value → post value) : Meets mayReport post computation := by
  cases computation with
  | ok value => exact weaker value meets
  | error stop =>
    cases stop with
    | reported error => exact meets
    | fault fault => exact meets.elim

/-- An invariant indexed by the number of rounds done survives the whole `for`. -/
theorem Meets.times {body : Nat → σ → Checked ε σ} (invariant : Nat → σ → Prop) {count : Nat}
    (initial : invariant 0 state) (round : ∀ index before, index < count → invariant index before →
      Meets mayReport (invariant (index + 1)) (body index before)) :
    Meets mayReport (invariant count) (Checked.times body state count) := by
  induction count with
  | zero => exact initial
  | succ count done =>
    apply Meets.bind
    · apply done
      intro index before below
      exact round index before (Nat.lt_succ_of_lt below)
    · intro before held
      exact round count before (Nat.lt_succ_self count) held

/-- A loop whose rounds keep an invariant and decrease a measure ends within the measure. -/
theorem Meets.loop {body : σ → Checked ε (σ ⊕ α)} (invariant : σ → Prop) (measure : σ → Nat)
    (round : ∀ state, invariant state → Meets mayReport (fun outcome =>
      match outcome with
      | .inl next => invariant next ∧ measure next < measure state
      | .inr result => post result) (body state)) {fuel : Nat} (enough : measure state < fuel)
    (holds : invariant state) : Meets mayReport post (Checked.loop body fuel state) := by
  induction fuel generalizing state with
  | zero => exact absurd enough (Nat.not_lt_zero _)
  | succ fuel ends =>
    apply (round state holds).bind
    intro outcome after
    cases outcome with
    | inl next => exact ends (by omega) after.1
    | inr result => exact after

end

theorem Safe.report (error : ε) : Safe post (Checked.report error : Checked ε α) :=
  trivial

theorem Safe.require [Decidable condition] (error : ε) :
    Safe (fun _ => condition) (Checked.require condition error) := by
  unfold Checked.require
  split
  · assumption
  · trivial

theorem Safe.expect (found : Option α) (error : ε) :
    Safe (fun value => found = some value) (Checked.expect found error) := by
  cases found with
  | none => trivial
  | some value => exact rfl

/-- A safe computation reports an error or returns a value that satisfies the postcondition. -/
theorem Safe.outcome (safe : Safe post computation) :
    (∃ error, computation = .error (.reported error)) ∨
      ∃ value, computation = .ok value ∧ post value := by
  cases computation with
  | ok value => exact .inr ⟨value, rfl, safe⟩
  | error stop =>
    cases stop with
    | reported error => exact .inl ⟨error, rfl⟩
    | fault fault => exact safe.elim

theorem Returns.eq_ok (returns : Returns (fun returned => returned = value) computation) :
    computation = .ok value := by
  cases computation with
  | ok returned => exact congrArg Except.ok returns
  | error stop =>
    cases stop with
    | reported error | fault fault => exact returns.elim

end

end Checked

end Grab.Lib
