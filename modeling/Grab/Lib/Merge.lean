import Mathlib.Data.List.Pairwise
import Mathlib.Data.List.Nodup
import Std.Data.ExtTreeMap

/-!
# Walking two ascending lists

One pass over two lists that ascend by a key sorts their elements into those on
the left alone, those on the right alone and the pairs with equal keys.  The
walk itself ascends by key, so nothing is met twice.
-/

namespace Grab.Lib.Merge

open List

universe u v w

/-- Where the walk met a key. -/
inductive Side (α : Type u) (β : Type v) where
  | left (item : α)
  | right (item : β)
  | both (first : α) (second : β)
  deriving DecidableEq, Repr

variable {α : Type u} {β : Type v} {κ : Type w} [Ord κ]

section

variable (leftKey : α → κ) (rightKey : β → κ)

/-- The walk with `item` at the head of the left list; `rest` walks on without
it. -/
def walkFrom (item : α) (rest : List β → List (Side α β)) : List β → List (Side α β)
  | [] => .left item :: rest []
  | other :: others =>
    if compare (leftKey item) (rightKey other) = .lt then
      .left item :: rest (other :: others)
    else if compare (rightKey other) (leftKey item) = .lt then
      .right other :: walkFrom item rest others
    else
      .both item other :: rest others

def walk : List α → List β → List (Side α β)
  | [], others => others.map .right
  | item :: items, others => walkFrom leftKey rightKey item (walk items) others

/-- The key a side was met at. -/
def Side.key : Side α β → κ
  | .left item => leftKey item
  | .right item => rightKey item
  | .both first _ => leftKey first

end

/-- Strictly ascending keys. -/
def Ascending (key : α → κ) (items : List α) : Prop :=
  items.Pairwise fun first second => compare (key first) (key second) = .lt

section

variable {leftKey : α → κ} {rightKey : β → κ} {items : List α} {others : List β}
  {item : α} {other : β}

theorem Ascending.tail (ascending : Ascending leftKey (item :: items)) : Ascending leftKey items :=
  (pairwise_cons.mp ascending).2

theorem Ascending.head_lt (ascending : Ascending leftKey (item :: items)) {later : α}
    (member : later ∈ items) : compare (leftKey item) (leftKey later) = .lt :=
  (pairwise_cons.mp ascending).1 later member

variable (leftKey rightKey) in
/-- An induction over the walk: the three ways two lists can start, and the two
ways one of them can be used up. -/
theorem walk_induction {motive : List α → List β → Prop} (leftDone : ∀ others, motive [] others)
    (rightDone : ∀ item items, motive items [] → motive (item :: items) [])
    (onLeft : ∀ item items other others,
      compare (leftKey item) (rightKey other) = .lt →
      motive items (other :: others) → motive (item :: items) (other :: others))
    (onRight : ∀ item items other others,
      compare (leftKey item) (rightKey other) ≠ .lt →
      compare (rightKey other) (leftKey item) = .lt →
      motive (item :: items) others → motive (item :: items) (other :: others))
    (onBoth : ∀ item items other others,
      compare (leftKey item) (rightKey other) ≠ .lt →
      compare (rightKey other) (leftKey item) ≠ .lt →
      motive items others → motive (item :: items) (other :: others))
    (items : List α) (others : List β) : motive items others := by
  induction items generalizing others with
  | nil => exact leftDone others
  | cons item items ih =>
    induction others with
    | nil => exact rightDone item items (ih [])
    | cons other others inner =>
      by_cases less : compare (leftKey item) (rightKey other) = .lt
      · exact onLeft item items other others less (ih _)
      · by_cases greater : compare (rightKey other) (leftKey item) = .lt
        · exact onRight item items other others less greater inner
        · exact onBoth item items other others less greater (ih _)

theorem walk_onLeft (less : compare (leftKey item) (rightKey other) = .lt) :
    walk leftKey rightKey (item :: items) (other :: others) =
      .left item :: walk leftKey rightKey items (other :: others) := by
  rw [walk, walkFrom, if_pos less]

variable (notLess : compare (leftKey item) (rightKey other) ≠ .lt)

include notLess

theorem walk_onRight (greater : compare (rightKey other) (leftKey item) = .lt) :
    walk leftKey rightKey (item :: items) (other :: others) =
      .right other :: walk leftKey rightKey (item :: items) others := by
  rw [walk, walkFrom, if_neg notLess, if_pos greater, walk]

theorem walk_onBoth (notGreater : compare (rightKey other) (leftKey item) ≠ .lt) :
    walk leftKey rightKey (item :: items) (other :: others) =
      .both item other :: walk leftKey rightKey items others := by
  rw [walk, walkFrom, if_neg notLess, if_neg notGreater]

omit notLess

variable [Std.TransOrd κ] [Std.LawfulEqOrd κ] {first second : κ} {bound : κ}

omit [Std.LawfulEqOrd κ] in
theorem ne_of_lt (less : compare first second = .lt) : first ≠ second := by
  rintro rfl
  have equal : compare first first = .eq := Std.ReflCmp.compare_self
  cases equal.symm.trans less

theorem eq_of_not_lt (notLess : compare first second ≠ .lt)
    (notGreater : compare second first ≠ .lt) : first = second := by
  cases order : compare first second with
  | lt => exact absurd order notLess
  | eq => exact Std.LawfulEqCmp.eq_of_compare order
  | gt => exact absurd (Std.OrientedCmp.gt_iff_lt.mp order) notGreater

omit [Std.LawfulEqOrd κ] in
/-- Every key of a list is apart from a key below its head. -/
theorem Ascending.apart (ascending : Ascending leftKey (item :: items))
    (less : compare bound (leftKey item) = .lt) :
    ∀ later ∈ item :: items, bound ≠ leftKey later := by
  intro later member
  rcases mem_cons.mp member with rfl | inTail
  · exact ne_of_lt less
  · exact ne_of_lt (Std.TransCmp.lt_trans less (ascending.head_lt inTail))

/-- Which sides the walk meets. -/
def Meets (leftKey : α → κ) (rightKey : β → κ) (items : List α) (others : List β) : Side α β → Prop
  | .left item => item ∈ items ∧ ∀ other ∈ others, leftKey item ≠ rightKey other
  | .right other => other ∈ others ∧ ∀ item ∈ items, leftKey item ≠ rightKey other
  | .both item other => item ∈ items ∧ other ∈ others ∧ leftKey item = rightKey other

theorem mem_walk_iff (leftAscending : Ascending leftKey items)
    (rightAscending : Ascending rightKey others) (side : Side α β) :
    side ∈ walk leftKey rightKey items others ↔ Meets leftKey rightKey items others side := by
  induction items, others using walk_induction leftKey rightKey with
  | leftDone others => cases side <;> simp [walk, Meets]
  | rightDone first items ih =>
    rw [walk, walkFrom, mem_cons, ih leftAscending.tail List.Pairwise.nil]
    cases side <;> simp [Meets]
  | onLeft first items other others less ih =>
    have apart := rightAscending.apart less
    rw [walk_onLeft less, mem_cons, ih leftAscending.tail rightAscending]
    cases side <;> simp only [Meets, mem_cons] at apart ⊢ <;> grind
  | onRight first items other others notLess greater ih =>
    have apart := leftAscending.apart greater
    rw [walk_onRight notLess greater, mem_cons, ih leftAscending rightAscending.tail]
    cases side <;> simp only [Meets, mem_cons] at apart ⊢ <;> grind
  | onBoth first items other others notLess notGreater ih =>
    have same := eq_of_not_lt notLess notGreater
    have leftApart : ∀ item ∈ items, leftKey item ≠ rightKey other := by
      intro item member equal
      exact ne_of_lt (leftAscending.head_lt member) (same.trans equal.symm)
    have rightApart : ∀ item ∈ others, leftKey first ≠ rightKey item := by
      intro item member equal
      exact ne_of_lt (rightAscending.head_lt member) (same.symm.trans equal)
    rw [walk_onBoth notLess notGreater, mem_cons, ih leftAscending.tail rightAscending.tail]
    cases side <;> simp only [Meets, mem_cons] <;> grind

/-- A bound below both heads is below the whole walk. -/
theorem lt_walk (leftAscending : Ascending leftKey items)
    (rightAscending : Ascending rightKey others)
    (leftAbove : ∀ item ∈ items, compare bound (leftKey item) = .lt)
    (rightAbove : ∀ other ∈ others, compare bound (rightKey other) = .lt) {side : Side α β}
    (member : side ∈ walk leftKey rightKey items others) :
    compare bound (side.key leftKey rightKey) = .lt := by
  have meets := (mem_walk_iff leftAscending rightAscending side).mp member
  cases side with
  | left item | both item other => exact leftAbove item meets.1
  | right other => exact rightAbove other meets.1

omit [Std.LawfulEqOrd κ] in
theorem Ascending.above (ascending : Ascending leftKey (item :: items))
    (less : compare bound (leftKey item) = .lt) :
    ∀ later ∈ item :: items, compare bound (leftKey later) = .lt := by
  intro later member
  rcases mem_cons.mp member with rfl | inTail
  · exact less
  · exact Std.TransCmp.lt_trans less (ascending.head_lt inTail)

/-- The walk ascends by key. -/
theorem walk_ascending (leftAscending : Ascending leftKey items)
    (rightAscending : Ascending rightKey others) :
    Ascending (Side.key leftKey rightKey) (walk leftKey rightKey items others) := by
  induction items, others using walk_induction leftKey rightKey with
  | leftDone others => exact pairwise_map.mpr rightAscending
  | rightDone first items ih =>
    rw [walk, walkFrom]
    apply pairwise_cons.mpr
    constructor
    · intro side member
      exact lt_walk leftAscending.tail List.Pairwise.nil
        (fun item => leftAscending.head_lt) (by simp) member
    · exact ih leftAscending.tail List.Pairwise.nil
  | onLeft first items other others less ih =>
    rw [walk_onLeft less]
    apply pairwise_cons.mpr
    constructor
    · intro side member
      exact lt_walk leftAscending.tail rightAscending
        (fun item => leftAscending.head_lt) (rightAscending.above less) member
    · exact ih leftAscending.tail rightAscending
  | onRight first items other others notLess greater ih =>
    rw [walk_onRight notLess greater]
    apply pairwise_cons.mpr
    constructor
    · intro side member
      exact lt_walk leftAscending rightAscending.tail (leftAscending.above greater)
        (fun item => rightAscending.head_lt) member
    · exact ih leftAscending rightAscending.tail
  | onBoth first items other others notLess notGreater ih =>
    have same := eq_of_not_lt notLess notGreater
    rw [walk_onBoth notLess notGreater]
    apply pairwise_cons.mpr
    constructor
    · intro side member
      refine lt_walk leftAscending.tail rightAscending.tail
        (fun item => leftAscending.head_lt) ?_ member
      intro item inOthers
      rw [same]
      exact rightAscending.head_lt inOthers
    · exact ih leftAscending.tail rightAscending.tail

omit [Std.LawfulEqOrd κ] in
/-- What the sides of an ascending list contribute is duplicate-free when each
contribution is and carries the key of its side. -/
theorem nodup_flatMap_of_key {γ : Type*} {σ : Type*} {key : σ → κ} {sides : List σ}
    (ascending : Ascending key sides) {part : σ → List γ} (tag : γ → κ)
    (tagged : ∀ side ∈ sides, ∀ item ∈ part side, tag item = key side)
    (nodup : ∀ side ∈ sides, (part side).Nodup) : (sides.flatMap part).Nodup := by
  rw [nodup_flatMap]
  refine ⟨nodup, ?_⟩
  refine Pairwise.imp_of_mem ?_ ascending
  intro first second firstMem secondMem less item inFirst inSecond
  apply ne_of_lt less
  rw [← tagged first firstMem item inFirst, tagged second secondMem item inSecond]

end

end Grab.Lib.Merge
