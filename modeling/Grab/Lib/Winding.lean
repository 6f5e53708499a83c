import Mathlib.Tactic.FieldSimp
import Mathlib.Tactic.Linarith
import Mathlib.Tactic.LinearCombination
import Mathlib.Tactic.Positivity
import Mathlib.Tactic.Ring

/-!
# Closed outlines in the plane

The winding of edges about a point is counted along a ray to the right.  Around a closed outline it
does not change along an upright or a level path that no edge meets, and it vanishes outside a box
around the outline.

The last part is about distances: two points that are close to each other are nearly as far from
an edge.
-/

namespace Grab.Lib.Winding

open List Option

variable {K : Type} [Field K] [LinearOrder K] [IsStrictOrderedRing K] {edge : (K × K) × (K × K)}
  {point : K × K}

/-- A point of the line through an edge. -/
def along (edge : (K × K) × (K × K)) (part : K) : K × K :=
  (edge.1.1 + part * (edge.2.1 - edge.1.1), edge.1.2 + part * (edge.2.2 - edge.1.2))

omit [LinearOrder K] [IsStrictOrderedRing K] in
@[simp]
theorem along_zero (edge : (K × K) × (K × K)) : along edge 0 = edge.1 := by
  simp [along]

omit [LinearOrder K] [IsStrictOrderedRing K] in
@[simp]
theorem along_one (edge : (K × K) × (K × K)) : along edge 1 = edge.2 := by
  simp [along]

/-- What an edge adds to the winding about a point. -/
def crossing (point : K × K) (edge : (K × K) × (K × K)) : ℤ :=
  if edge.1.2 ≤ point.2 ∧ point.2 < edge.2.2 then
    if point.1 < edge.1.1 +
        (point.2 - edge.1.2) * (edge.2.1 - edge.1.1) / (edge.2.2 - edge.1.2) then 1
    else 0
  else if edge.2.2 ≤ point.2 ∧ point.2 < edge.1.2 then
    if point.1 < edge.1.1 +
        (point.2 - edge.1.2) * (edge.2.1 - edge.1.1) / (edge.2.2 - edge.1.2) then -1
    else 0
  else 0

def wound (edges : List ((K × K) × (K × K))) (point : K × K) : ℤ := (edges.map (crossing point)).sum

/-- Whether a point is not above a level. -/
def upTo (level : K) (point : K × K) : ℤ := if point.2 ≤ level then 1 else 0

/-! ## One edge -/

section

variable {x low high : K}

/-- An edge whose points on a level are all on one side. -/
theorem crossing_of_side (edge : (K × K) × (K × K)) (x level : K) (side : Prop) [Decidable side]
    (sided : ∀ part, 0 ≤ part → part ≤ 1 → (along edge part).2 = level →
      (x < (along edge part).1 ↔ side)) :
    crossing (x, level) edge = (upTo level edge.1 - upTo level edge.2) * if side then 1 else 0 := by
  rcases edge with ⟨⟨startX, startY⟩, ⟨stopX, stopY⟩⟩
  have meets : stopY - startY ≠ 0 → 0 ≤ (level - startY) / (stopY - startY) →
      (level - startY) / (stopY - startY) ≤ 1 →
      (x < startX + (level - startY) * (stopX - startX) / (stopY - startY) ↔ side) := by
    intro upright least most
    have height : (along ((startX, startY), (stopX, stopY))
        ((level - startY) / (stopY - startY))).2 = level := by
      unfold along
      rw [div_mul_cancel₀ _ upright, add_sub_cancel]
    have here := sided _ least most height
    have same : (along ((startX, startY), (stopX, stopY))
        ((level - startY) / (stopY - startY))).1 =
          startX + (level - startY) * (stopX - startX) / (stopY - startY) := by
      unfold along
      rw [div_mul_eq_mul_div]
    rw [same] at here
    exact here
  unfold crossing upTo
  by_cases rises : startY ≤ level ∧ level < stopY
  · have positive : 0 < stopY - startY := sub_pos.mpr (lt_of_le_of_lt rises.1 rises.2)
    have sided := meets (ne_of_gt positive)
      (div_nonneg (sub_nonneg.mpr rises.1) (le_of_lt positive))
      ((div_le_one positive).mpr (sub_le_sub_right (le_of_lt rises.2) _))
    rw [if_pos rises, if_pos rises.1, if_neg (not_le.mpr rises.2), if_congr sided rfl rfl]
    simp
  by_cases falls : stopY ≤ level ∧ level < startY
  · have negative : stopY - startY < 0 := sub_neg.mpr (lt_of_le_of_lt falls.1 falls.2)
    have sided := meets (ne_of_lt negative)
      (div_nonneg_of_nonpos (sub_nonpos.mpr (le_of_lt falls.2)) (le_of_lt negative))
      ((div_le_one_of_neg negative).mpr (sub_le_sub_right falls.1 _))
    rw [if_neg rises, if_pos falls, if_neg (not_le.mpr falls.2), if_pos falls.1,
      if_congr sided rfl rfl]
    split <;> simp
  · rw [if_neg rises, if_neg falls]
    by_cases started : startY ≤ level
    · have stopped : stopY ≤ level := not_lt.mp fun later => rises ⟨started, later⟩
      rw [if_pos started, if_pos stopped, sub_self, zero_mul]
    · have stopped : ¬stopY ≤ level := fun earlier => falls ⟨earlier, not_le.mp started⟩
      rw [if_neg started, if_neg stopped, sub_self, zero_mul]

/-- The points of an edge between two levels are on one side of a path that it does not meet. -/
theorem one_side (avoids : ∀ part, 0 ≤ part → part ≤ 1 → low ≤ (along edge part).2 →
      (along edge part).2 ≤ high → (along edge part).1 ≠ x) :
    ∃ side : Prop, ∀ part, 0 ≤ part → part ≤ 1 → low ≤ (along edge part).2 →
      (along edge part).2 ≤ high → (x < (along edge part).1 ↔ side) := by
  refine ⟨∃ part, 0 ≤ part ∧ part ≤ 1 ∧ low ≤ (along edge part).2 ∧
    (along edge part).2 ≤ high ∧ x < (along edge part).1, ?_⟩
  intro part least most above under
  constructor
  · intro right
    exact ⟨part, least, most, above, under, right⟩
  rintro ⟨other, otherLeast, otherMost, otherAbove, otherUnder, right⟩
  by_contra wrong
  have left : (along edge part).1 < x :=
    lt_of_le_of_ne (not_lt.mp wrong) (avoids part least most above under)
  -- the point between the two whose distance from the path is shared out
  let near := (along edge other).1 - x
  let far := x - (along edge part).1
  have nearPositive : 0 < near := sub_pos.mpr right
  have farPositive : 0 < far := sub_pos.mpr left
  let share := near / (near + far)
  have shareLeast : 0 ≤ share := by positivity
  have shareMost : share ≤ 1 :=
    (div_le_one (add_pos nearPositive farPositive)).mpr (le_add_of_nonneg_right farPositive.le)
  let between := other + share * (part - other)
  have rest : 0 ≤ 1 - share := sub_nonneg.mpr shareMost
  have blendX : (along edge between).1 =
      (1 - share) * (along edge other).1 + share * (along edge part).1 := by
    unfold along
    dsimp only [between]
    ring
  have blendY : (along edge between).2 =
      (1 - share) * (along edge other).2 + share * (along edge part).2 := by
    unfold along
    dsimp only [between]
    ring
  have inside : ∀ {first second lower upper : K}, lower ≤ first → first ≤ upper →
      lower ≤ second → second ≤ upper →
        lower ≤ (1 - share) * first + share * second ∧
          (1 - share) * first + share * second ≤ upper := by
    intro first second lower upper a b c d
    constructor
    · linarith [mul_le_mul_of_nonneg_left a rest, mul_le_mul_of_nonneg_left c shareLeast]
    · linarith [mul_le_mul_of_nonneg_left b rest, mul_le_mul_of_nonneg_left d shareLeast]
  have isPart : between = (1 - share) * other + share * part := by
    dsimp only [between]
    ring
  have betweenBounds := inside otherLeast otherMost least most
  have levels := inside otherAbove otherUnder above under
  rw [← isPart] at betweenBounds
  rw [← blendY] at levels
  apply avoids between betweenBounds.1 betweenBounds.2 levels.1 levels.2
  rw [blendX]
  have whole : near + far ≠ 0 := ne_of_gt (add_pos nearPositive farPositive)
  have shared : share * (near + far) = near := div_mul_cancel₀ near whole
  dsimp only [near, far] at shared
  linear_combination -shared

/-- The step of an edge's crossing along an upright path is that of its start less that of its
stop. -/
theorem crossing_step (upright : low ≤ high)
    (avoids : ∀ part, 0 ≤ part → part ≤ 1 → low ≤ (along edge part).2 →
      (along edge part).2 ≤ high → (along edge part).1 ≠ x) :
    crossing (x, high) edge - crossing (x, low) edge =
      (upTo high edge.1 - upTo low edge.1) * (if x < edge.1.1 then 1 else 0) -
        (upTo high edge.2 - upTo low edge.2) * if x < edge.2.1 then 1 else 0 := by
  classical
  rcases one_side avoids with ⟨side, sided⟩
  have atHigh := crossing_of_side edge x high side fun part least most level =>
    sided part least most (upright.trans level.ge) level.le
  have atLow := crossing_of_side edge x low side fun part least most level =>
    sided part least most level.ge (level.le.trans upright)
  have ends : ∀ part, 0 ≤ part → part ≤ 1 →
      (upTo high (along edge part) - upTo low (along edge part)) *
          (if x < (along edge part).1 then 1 else 0) =
        (upTo high (along edge part) - upTo low (along edge part)) * if side then 1 else 0 := by
    intro part least most
    by_cases above : low ≤ (along edge part).2
    · by_cases under : (along edge part).2 ≤ high
      · rw [if_congr (sided part least most above under) rfl rfl]
      · have higher : ¬(along edge part).2 ≤ low := fun lower => under (lower.trans upright)
        unfold upTo
        rw [if_neg under, if_neg higher, sub_self, zero_mul, zero_mul]
    · have lower : (along edge part).2 ≤ low := le_of_not_ge above
      unfold upTo
      rw [if_pos lower, if_pos (lower.trans upright), sub_self, zero_mul, zero_mul]
  have atStart := ends 0 le_rfl zero_le_one
  have atStop := ends 1 zero_le_one le_rfl
  rw [along_zero] at atStart
  rw [along_one] at atStop
  rw [atHigh, atLow, atStart, atStop]
  ring

/-- The crossing of an edge does not change along a level path that the edge does not meet. -/
theorem crossing_level {left right level : K} (ordered : left ≤ right)
    (avoids : ∀ part, 0 ≤ part → part ≤ 1 → (along edge part).2 = level →
      left ≤ (along edge part).1 → ¬(along edge part).1 ≤ right) :
    crossing (left, level) edge = crossing (right, level) edge := by
  classical
  have misses : ∀ part, 0 ≤ part → part ≤ 1 → level ≤ (along edge part).2 →
      (along edge part).2 ≤ level → (along edge part).1 ≠ left := by
    intro part least most above under same
    exact avoids part least most (le_antisymm under above) same.ge (same.le.trans ordered)
  rcases one_side misses with ⟨side, sided⟩
  have fromLeft : ∀ part, 0 ≤ part → part ≤ 1 → (along edge part).2 = level →
      (left < (along edge part).1 ↔ side) :=
    fun part least most height => sided part least most height.ge height.le
  have fromRight : ∀ part, 0 ≤ part → part ≤ 1 → (along edge part).2 = level →
      (right < (along edge part).1 ↔ side) := by
    intro part least most height
    rw [← fromLeft part least most height]
    constructor
    · exact lt_of_le_of_lt ordered
    · exact fun beyond => not_le.mp (avoids part least most height beyond.le)
  rw [crossing_of_side edge left level side fromLeft,
    crossing_of_side edge right level side fromRight]

end

/-! ## Closed outlines -/

/-- What the edges add up to vanishes when they add a difference along each. -/
def Closed (edges : List ((K × K) × (K × K))) : Prop :=
  ∀ value : K × K → ℤ, (edges.map fun edge => value edge.1 - value edge.2).sum = 0

/-- The edges around a list of points. -/
def around {α : Type} (points : List α) : List (α × α) :=
  points.zip points.tail ++ points.getLast?.toList.zip points.head?.toList

omit [Field K] [LinearOrder K] [IsStrictOrderedRing K] in
theorem closed_around (points : List (K × K)) : Closed (around points) := by
  intro value
  have chain : ∀ (first : K × K) (rest : List (K × K)),
      (((first :: rest).zip rest).map fun edge => value edge.1 - value edge.2).sum =
        value first - value (rest.getLastD first) := by
    intro first rest
    induction rest generalizing first with
    | nil => simp
    | cons second rest ih =>
      rw [zip_cons_cons, map_cons, sum_cons, ih second, sub_add_sub_cancel]
      cases rest <;> rfl
  cases points with
  | nil => rfl
  | cons first rest =>
    unfold around
    rw [tail_cons, map_append, sum_append, chain first rest]
    rw [getLast?_cons, ← getLastD_eq_getLast?]
    simp

omit [Field K] [LinearOrder K] [IsStrictOrderedRing K] in
theorem closed_flatMap {α : Type} {contours : List α} {edges : α → List ((K × K) × (K × K))}
    (closed : ∀ contour ∈ contours, Closed (edges contour)) : Closed (contours.flatMap edges) := by
  intro value
  induction contours with
  | nil => rfl
  | cons contour rest ih =>
    rw [flatMap_cons, map_append, sum_append,
      closed contour mem_cons_self value,
      ih fun other mem => closed other (mem_cons_of_mem _ mem), add_zero]

section

variable {edges : List ((K × K) × (K × K))}

theorem wound_upright {x low high : K} (closed : Closed edges) (upright : low ≤ high)
    (avoids : ∀ edge ∈ edges, ∀ part, 0 ≤ part → part ≤ 1 → low ≤ (along edge part).2 →
      (along edge part).2 ≤ high → (along edge part).1 ≠ x) :
    wound edges (x, high) = wound edges (x, low) := by
  have telescoped := closed fun point =>
    (upTo high point - upTo low point) * if x < point.1 then 1 else 0
  unfold wound
  rw [← add_zero (edges.map (crossing (x, low))).sum, ← telescoped, ← sum_map_add]
  congr 1
  apply map_congr_left
  intro edge mem
  rw [← crossing_step upright (avoids edge mem), add_sub_cancel]

theorem wound_level {left right level : K} (ordered : left ≤ right)
    (avoids : ∀ edge ∈ edges, ∀ part, 0 ≤ part → part ≤ 1 → (along edge part).2 = level →
      left ≤ (along edge part).1 → ¬(along edge part).1 ≤ right) :
    wound edges (left, level) = wound edges (right, level) := by
  unfold wound
  congr 1
  apply map_congr_left
  intro edge mem
  exact crossing_level ordered (avoids edge mem)

/-- Every point of an edge is in a box in which its ends are. -/
theorem between_of_ends {lower upper start stop part : K} (startLower : lower ≤ start)
    (startUpper : start ≤ upper) (stopLower : lower ≤ stop) (stopUpper : stop ≤ upper)
    (least : 0 ≤ part) (most : part ≤ 1) :
    lower ≤ start + part * (stop - start) ∧ start + part * (stop - start) ≤ upper := by
  have rest : 0 ≤ 1 - part := sub_nonneg.mpr most
  have blend : start + part * (stop - start) = (1 - part) * start + part * stop := by ring
  rw [blend]
  constructor
  · linarith [mul_le_mul_of_nonneg_left startLower rest, mul_le_mul_of_nonneg_left stopLower least]
  · linarith [mul_le_mul_of_nonneg_left startUpper rest, mul_le_mul_of_nonneg_left stopUpper least]

/-- A point about which an outline winds is in every box around the outline. -/
theorem inside_of_wound {left top right bottom : K} (closed : Closed edges)
    (boxed : ∀ edge ∈ edges, ∀ point, point = edge.1 ∨ point = edge.2 →
      (left ≤ point.1 ∧ point.1 ≤ right) ∧ top ≤ point.2 ∧ point.2 ≤ bottom)
    {point : K × K} (winds : wound edges point ≠ 0) :
    (left ≤ point.1 ∧ point.1 < right) ∧ top ≤ point.2 ∧ point.2 < bottom := by
  rcases point with ⟨x, level⟩
  have spread : ∀ edge ∈ edges, ∀ part, 0 ≤ part → part ≤ 1 →
      left ≤ (along edge part).1 ∧ (along edge part).1 ≤ right := by
    intro edge mem part least most
    have start := (boxed edge mem edge.1 (.inl rfl)).1
    have stop := (boxed edge mem edge.2 (.inr rfl)).1
    exact between_of_ends start.1 start.2 stop.1 stop.2 least most
  have level_of_crossing : ∀ edge ∈ edges, crossing (x, level) edge ≠ 0 →
      top ≤ level ∧ level < bottom := by
    intro edge mem crosses
    have start := (boxed edge mem edge.1 (.inl rfl)).2
    have stop := (boxed edge mem edge.2 (.inr rfl)).2
    unfold crossing at crosses
    dsimp only at crosses
    split at crosses
    case isTrue rises =>
      exact ⟨start.1.trans rises.1, lt_of_lt_of_le rises.2 stop.2⟩
    case isFalse =>
      split at crosses
      case isTrue falls => exact ⟨stop.1.trans falls.1, lt_of_lt_of_le falls.2 start.2⟩
      case isFalse => exact absurd rfl crosses
  have crosses : ∃ edge ∈ edges, crossing (x, level) edge ≠ 0 := by
    by_contra none
    push Not at none
    apply winds
    unfold wound
    rw [map_congr_left none]
    simp
  rcases crosses with ⟨edge, mem, crosses⟩
  refine ⟨⟨?_, ?_⟩, level_of_crossing edge mem crosses⟩
  · by_contra outside
    apply winds
    have telescoped := closed (upTo level)
    rw [← telescoped]
    unfold wound
    congr 1
    apply map_congr_left
    intro edge mem
    have right := crossing_of_side edge x level True
      fun part least most _ =>
        iff_true_intro (lt_of_lt_of_le (not_le.mp outside) (spread edge mem part least most).1)
    rw [right, if_pos trivial, mul_one]
  · by_contra outside
    apply crosses
    have left := crossing_of_side edge x level False
      fun part least most _ =>
        iff_false_intro (not_lt.mpr ((spread edge mem part least most).2.trans (not_lt.mp outside)))
    rw [left, if_neg not_false, mul_zero]

end

section

variable {α : Type} {points : List α} {edge : α × α}

theorem around_map {β : Type} (change : α → β) (points : List α) :
    (around points).map (Prod.map change change) = around (points.map change) := by
  unfold around
  rw [map_append, ← zip_map, ← zip_map, map_tail, getLast?_map,
    head?_map, toList_map, toList_map]

theorem ends_mem_of_around (mem : edge ∈ around points) : edge.1 ∈ points ∧ edge.2 ∈ points := by
  unfold around at mem
  rcases mem_append.mp mem with inner | closing
  · have pair := of_mem_zip (a := edge.1) (b := edge.2) inner
    exact ⟨pair.1, mem_of_mem_tail pair.2⟩
  · have pair := of_mem_zip (a := edge.1) (b := edge.2) closing
    exact ⟨mem_of_getLast? (mem_toList.mp pair.1),
      mem_of_head? (mem_toList.mp pair.2)⟩

theorem starts_edge {point : α} (mem : point ∈ points) : ∃ stop, (point, stop) ∈ around points := by
  rcases append_of_mem mem with ⟨before, after, rfl⟩
  cases after with
  | cons next rest =>
    refine ⟨next, mem_append_left _ ?_⟩
    cases before with
    | nil => exact mem_cons_self
    | cons first front =>
      rw [cons_append, tail_cons]
      induction front generalizing first with
      | nil => exact mem_cons_of_mem _ mem_cons_self
      | cons second front ih =>
        exact mem_cons_of_mem _ (ih second (mem_append_right _ mem_cons_self))
  | nil =>
    have last : (before ++ [point]).getLast? = some point := getLast?_concat
    cases first : (before ++ [point]).head? with
    | none => simp at first
    | some start =>
      refine ⟨start, mem_append_right _ ?_⟩
      rw [last, first]
      exact mem_cons_self

/-- Around a list of points every edge is followed by one. -/
theorem followed_of_around (mem : edge ∈ around points) :
    ∃ next ∈ around points, next.1 = edge.2 := by
  rcases starts_edge (ends_mem_of_around mem).2 with ⟨stop, isEdge⟩
  exact ⟨_, isEdge, rfl⟩

end

/-! ## Distances -/

/-- The square of the distance of two points. -/
def apart (first second : K × K) : K :=
  (second.1 - first.1) * (second.1 - first.1) + (second.2 - first.2) * (second.2 - first.2)

theorem apart_nonneg (first second : K × K) : 0 ≤ apart first second :=
  add_nonneg (mul_self_nonneg _) (mul_self_nonneg _)

/-- The triangle inequality. -/
theorem apart_le {first second third : K × K} {reach step : K} (reachLeast : 0 ≤ reach)
    (stepLeast : 0 ≤ step) (near : apart first second ≤ reach * reach)
    (next : apart second third ≤ step * step) :
    apart first third ≤ (reach + step) * (reach + step) := by
  unfold apart at near next ⊢
  have product : ((second.1 - first.1) * (third.1 - second.1) +
      (second.2 - first.2) * (third.2 - second.2)) ≤ reach * step := by
    apply abs_le_of_sq_le_sq' _ (mul_nonneg reachLeast stepLeast) |>.2
    have lagrange : 0 ≤ ((second.1 - first.1) * (third.2 - second.2) -
        (second.2 - first.2) * (third.1 - second.1)) ^ 2 := sq_nonneg _
    have bound := mul_le_mul near next (apart_nonneg second third) (mul_self_nonneg reach)
    linarith
  linarith

omit [LinearOrder K] [IsStrictOrderedRing K] in
theorem apart_along (edge : (K × K) × (K × K)) (part : K) (point : K × K) :
    apart (along edge part) point =
      (1 - part) * apart edge.1 point + part * apart edge.2 point -
        part * (1 - part) * apart edge.1 edge.2 := by
  unfold apart along
  ring

/-- The part of an edge at which it is closest to a point. -/
def nearestPart (point : K × K) (edge : (K × K) × (K × K)) : K :=
  let part := ((point.1 - edge.1.1) * (edge.2.1 - edge.1.1) +
    (point.2 - edge.1.2) * (edge.2.2 - edge.1.2)) / apart edge.1 edge.2
  if part < 0 then 0 else if 1 < part then 1 else part

theorem nearestPart_bounds (point : K × K) (edge : (K × K) × (K × K)) :
    0 ≤ nearestPart point edge ∧ nearestPart point edge ≤ 1 := by
  unfold nearestPart
  dsimp only
  split
  case isTrue => exact ⟨le_rfl, zero_le_one⟩
  case isFalse least =>
    split
    case isTrue => exact ⟨zero_le_one, le_rfl⟩
    case isFalse most => exact ⟨not_lt.mp least, not_lt.mp most⟩

theorem apart_nearestPart_le {part : K} (long : 0 < apart edge.1 edge.2) (least : 0 ≤ part)
    (most : part ≤ 1) :
    apart (along edge (nearestPart point edge)) point ≤ apart (along edge part) point := by
  let product := (point.1 - edge.1.1) * (edge.2.1 - edge.1.1) +
    (point.2 - edge.1.2) * (edge.2.2 - edge.1.2)
  have difference : ∀ nearest : K,
      apart (along edge part) point - apart (along edge nearest) point =
        (part - nearest) * (apart edge.1 edge.2 * (part + nearest) - 2 * product) := by
    intro nearest
    dsimp only [product]
    unfold apart along
    ring
  rw [← sub_nonneg, difference]
  have scaled : product / apart edge.1 edge.2 * apart edge.1 edge.2 = product :=
    div_mul_cancel₀ _ (ne_of_gt long)
  unfold nearestPart
  dsimp only
  split
  case isTrue before =>
    have negative : product < 0 := by
      rw [← scaled]
      exact mul_neg_of_neg_of_pos before long
    apply mul_nonneg (sub_nonneg.mpr least)
    have grown := mul_nonneg long.le (add_nonneg least (le_refl (0 : K)))
    linarith
  case isFalse =>
    split
    case isTrue behind =>
      have large : apart edge.1 edge.2 < product := by
        rw [← scaled]
        exact lt_mul_of_one_lt_left long behind
      apply mul_nonneg_of_nonpos_of_nonpos (sub_nonpos.mpr most)
      have shrunk := mul_le_mul_of_nonneg_left (add_le_add_left most 1) long.le
      linarith
    case isFalse =>
      have square : apart edge.1 edge.2 * (part + product / apart edge.1 edge.2) - 2 * product =
          apart edge.1 edge.2 * (part - product / apart edge.1 edge.2) := by
        linear_combination 2 * scaled
      have shared : 0 ≤ (part - product / apart edge.1 edge.2) *
          (apart edge.1 edge.2 * (part - product / apart edge.1 edge.2)) := by
        rw [mul_left_comm]
        exact mul_nonneg long.le (mul_self_nonneg _)
      rw [← square] at shared
      exact shared

/-- A short edge is hardly closer to a point than its ends. -/
theorem apart_along_gt {part bound slack : K} (least : 0 ≤ part) (most : part ≤ 1)
    (start : bound + slack < apart edge.1 point) (stop : bound + slack < apart edge.2 point)
    (short : apart edge.1 edge.2 ≤ 4 * slack) : bound < apart (along edge part) point := by
  rw [apart_along]
  have rest : 0 ≤ 1 - part := sub_nonneg.mpr most
  have quarter : part * (1 - part) ≤ 1 / 4 := by
    linarith [sq_nonneg (part - 1 / 2)]
  have bulge : part * (1 - part) * apart edge.1 edge.2 ≤ slack := by
    have least := apart_nonneg edge.1 edge.2
    have product := mul_le_mul quarter short least (by norm_num)
    linarith
  have ends : bound + slack < (1 - part) * apart edge.1 point + part * apart edge.2 point := by
    rcases lt_or_eq_of_le least with positive | zero
    · have first := mul_le_mul_of_nonneg_left start.le rest
      have second := mul_lt_mul_of_pos_left stop positive
      linarith
    · rw [← zero]
      linarith
  linarith

end Grab.Lib.Winding
