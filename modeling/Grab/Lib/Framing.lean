import Mathlib.Data.List.Basic

/-!
# Framed streams

A splitter finds the first frame of a stream, or says that it is not complete yet or cannot be one.
What it said of a stream stays true when more is appended.  Taking frames off the front as the
stream arrives therefore gives the frames of the whole stream, wherever it was cut.
-/

namespace Grab.Lib

universe u v

/-- What stands at the front of a stream. -/
inductive Split (α : Type u) (β : Type v) where
  | incomplete
  | invalid
  | frame (item : β) (rest : List α)

structure Framing (α : Type u) (β : Type v) where
  split : List α → Split α β
  shorter : ∀ {input item rest}, split input = .frame item rest → rest.length < input.length
  frame_append : ∀ {input item rest} (more : List α), split input = .frame item rest →
    split (input ++ more) = .frame item (rest ++ more)
  invalid_append : ∀ {input} (more : List α), split input = .invalid →
    split (input ++ more) = .invalid

/-- The frames at the front of a stream, and what stays behind them. -/
structure Unframed (α : Type u) (β : Type v) where
  items : List β
  rest : List α
  valid : Bool

namespace Framing

variable {α : Type u} {β : Type v} (framing : Framing α β)

/-- Take frames off the front; nothing is kept of a stream that is not valid. -/
def unframeFuel : Nat → List α → Unframed α β
  | 0, input => ⟨[], input, true⟩
  | fuel + 1, input =>
    match framing.split input with
    | .incomplete => ⟨[], input, true⟩
    | .invalid => ⟨[], [], false⟩
    | .frame item rest =>
      let later := unframeFuel fuel rest
      { later with items := item :: later.items }

def unframe (input : List α) : Unframed α β := framing.unframeFuel (input.length + 1) input

theorem unframeFuel_eq {input : List α} {fuel more : Nat} (enough : input.length < fuel)
    (alsoEnough : input.length < more) :
    framing.unframeFuel fuel input = framing.unframeFuel more input := by
  induction fuel generalizing input more with
  | zero => exact absurd enough (Nat.not_lt_zero _)
  | succ fuel later =>
    cases more with
    | zero => exact absurd alsoEnough (Nat.not_lt_zero _)
    | succ more =>
      unfold unframeFuel
      split
      · rfl
      · rfl
      · rename_i item rest isFrame
        have short := framing.shorter isFrame
        rw [later (by omega) (by omega : rest.length < more)]

/-- The frames of a stream, one at a time. -/
theorem unframe_eq (input : List α) :
    framing.unframe input =
      match framing.split input with
      | .incomplete => ⟨[], input, true⟩
      | .invalid => ⟨[], [], false⟩
      | .frame item rest =>
        { framing.unframe rest with items := item :: (framing.unframe rest).items } := by
  rw [unframe, unframeFuel]
  split
  · rfl
  · rfl
  rename_i item rest isFrame
  have short := framing.shorter isFrame
  rw [framing.unframeFuel_eq short (Nat.lt_succ_self rest.length)]
  rfl

variable {framing} {input : List α}

theorem unframe_frame {item : β} {rest : List α}
    (isFrame : framing.split input = .frame item rest) :
    framing.unframe input =
      { framing.unframe rest with items := item :: (framing.unframe rest).items } := by
  rw [unframe_eq, isFrame]

theorem unframe_incomplete (incomplete : framing.split input = .incomplete) :
    framing.unframe input = ⟨[], input, true⟩ := by
  rw [unframe_eq, incomplete]

theorem unframe_invalid (invalid : framing.split input = .invalid) :
    framing.unframe input = ⟨[], [], false⟩ := by
  rw [unframe_eq, invalid]

/-- A stream can be taken apart wherever it was cut. -/
theorem unframe_append (framing : Framing α β) (input more : List α) :
    ((framing.unframe input).valid = false → framing.unframe (input ++ more) =
        framing.unframe input) ∧
      ((framing.unframe input).valid = true → framing.unframe (input ++ more) =
        { framing.unframe ((framing.unframe input).rest ++ more) with
          items := (framing.unframe input).items ++
            (framing.unframe ((framing.unframe input).rest ++ more)).items }) := by
  induction length : input.length using Nat.strongRecOn generalizing input with
  | ind count later =>
    cases found : framing.split input with
    | incomplete =>
      rw [unframe_incomplete found]
      exact ⟨nofun, fun _ => rfl⟩
    | invalid =>
      rw [unframe_invalid found, unframe_invalid (framing.invalid_append more found)]
      exact ⟨fun _ => rfl, nofun⟩
    | frame item rest =>
      have short := framing.shorter found
      have ⟨invalid, valid⟩ := later rest.length (by omega) rest rfl
      rw [unframe_frame found, unframe_frame (framing.frame_append more found)]
      constructor
      · intro isInvalid
        rw [invalid isInvalid]
      · intro isValid
        rw [valid isValid]
        rfl

theorem valid_of_append {more : List α} (valid : (framing.unframe (input ++ more)).valid = true) :
    (framing.unframe input).valid = true := by
  cases isValid : (framing.unframe input).valid with
  | true => rfl
  | false =>
    rw [(framing.unframe_append input more).1 isValid, isValid] at valid
    cases valid

end Framing

end Grab.Lib
