import Mathlib.Data.List.Nodup
import Mathlib.Data.List.TakeWhile

/-!
# A waiting line

Those who ever joined a line, in the order in which they came, and the ticket each of them still
holds.  The line is what is left of them.  Leaving it takes one ticket out and keeps the order of
the others, whoever it is that leaves.
-/

namespace Grab.Lib.WaitingLine

open List

universe u v

variable {α : Type u} {β : Type v} [DecidableEq α]

/-- The tickets of those who still wait, in the order of their arrival. -/
def line (arrivals : List α) (ticket : α → Option β) : List β := arrivals.filterMap ticket

/-- Those who came before somebody; everybody, if he has not come. -/
def ahead (arrivals : List α) (member : α) : List α :=
  arrivals.takeWhile fun other => other ≠ member

/-- Nobody holds the ticket of another one. -/
def Apart (ticket : α → Option β) : Prop :=
  ∀ {first second : α} {slip : β}, ticket first = some slip → ticket second = some slip →
    first = second

variable {arrivals : List α} {ticket : α → Option β} {member other : α} {slip : β}

omit [DecidableEq α] in
theorem mem_line : slip ∈ line arrivals ticket ↔ ∃ member ∈ arrivals, ticket member = some slip :=
  mem_filterMap

omit [DecidableEq α] in
theorem line_nodup (once : arrivals.Nodup) (apart : Apart ticket) : (line arrivals ticket).Nodup :=
  Nodup.filterMap
    (fun _ _ _ left right => apart (Option.mem_def.mp left) (Option.mem_def.mp right)) once

omit [DecidableEq α] in
theorem not_waiting_of_line_nil (empty : line arrivals ticket = []) (came : other ∈ arrivals) :
    ticket other = none :=
  filterMap_eq_nil_iff.mp empty other came

variable (absent : member ∉ arrivals)

include absent

theorem ahead_of_not_mem : ahead arrivals member = arrivals := by
  apply takeWhile_eq_self_iff.2
  intro other came
  have differs : other ≠ member := fun same => absent (same ▸ came)
  exact decide_eq_true differs

/-- Whoever is not there changes nothing. -/
theorem line_update_of_not_mem (held : Option β) :
    line arrivals (Function.update ticket member held) = line arrivals ticket := by
  apply filterMap_congr
  intro other came
  have differs : other ≠ member := fun same => absent (same ▸ came)
  exact Function.update_of_ne differs _ _

theorem line_join (slip : β) :
    line (arrivals ++ [member]) (Function.update ticket member (some slip)) =
      line arrivals ticket ++ [slip] := by
  have last : line [member] (Function.update ticket member (some slip)) = [slip] := by
    simp [line]
  calc
    line (arrivals ++ [member]) (Function.update ticket member (some slip))
      = line arrivals (Function.update ticket member (some slip)) ++
          line [member] (Function.update ticket member (some slip)) := filterMap_append
    _ = line arrivals ticket ++ [slip] := by rw [line_update_of_not_mem absent, last]

omit absent

/-- Who leaves takes his own ticket out. -/
theorem line_leave [BEq β] [LawfulBEq β] (once : arrivals.Nodup) (apart : Apart ticket)
    (came : member ∈ arrivals) (holds : ticket member = some slip) :
    line arrivals (Function.update ticket member none) = (line arrivals ticket).erase slip := by
  induction arrivals with
  | nil => exact absurd came not_mem_nil
  | cons first rest ih =>
    rcases nodup_cons.mp once with ⟨absent, onceRest⟩
    by_cases same : first = member
    · subst same
      have gone : line (first :: rest) (Function.update ticket first none) =
          line rest (Function.update ticket first none) := by
        simp [line]
      have front : line (first :: rest) ticket = slip :: line rest ticket := by
        simp [line, holds]
      rw [gone, front, line_update_of_not_mem absent, erase_cons_head]
    · have later : member ∈ rest := by
        rcases mem_cons.mp came with here | there
        · exact absurd here.symm same
        · exact there
      have ihRest := ih onceRest later
      have kept : Function.update ticket member none first = ticket first :=
        Function.update_of_ne same _ _
      cases held : ticket first with
      | none =>
        have left : line (first :: rest) (Function.update ticket member none) =
            line rest (Function.update ticket member none) := by
          simp [line, kept, held]
        have right : line (first :: rest) ticket = line rest ticket := by
          simp [line, held]
        rw [left, right, ihRest]
      | some front =>
        have differs : front ≠ slip := by
          intro equal
          subst equal
          exact same (apart held holds)
        have left : line (first :: rest) (Function.update ticket member none) =
            front :: line rest (Function.update ticket member none) := by
          simp [line, kept, held]
        have right : line (first :: rest) ticket = front :: line rest ticket := by
          simp [line, held]
        rw [left, right, ihRest, erase_cons_tail (by simpa using differs)]

/-- Nobody waits ahead of the one at the front. -/
theorem not_waiting_ahead {rest : List β} (apart : Apart ticket)
    (front : line arrivals ticket = slip :: rest) (holds : ticket member = some slip)
    (before : other ∈ ahead arrivals member) : ticket other = none := by
  induction arrivals with
  | nil => exact absurd before not_mem_nil
  | cons first later ih =>
    by_cases same : first = member
    · subst same
      simp [ahead] at before
    have split : ahead (first :: later) member = first :: ahead later member := by
      simp [ahead, same]
    have free : ticket first = none := by
      cases held : ticket first with
      | none => rfl
      | some own =>
        have first_front : line (first :: later) ticket = own :: line later ticket := by
          simp [line, held]
        rw [first_front] at front
        rcases cons.inj front with ⟨equal, -⟩
        subst equal
        exact absurd (apart held holds) same
    rw [split] at before
    rcases mem_cons.mp before with here | there
    · subst here
      exact free
    · have shorter : line later ticket = slip :: rest := by
        simpa [line, free] using front
      exact ih shorter there

end Grab.Lib.WaitingLine
