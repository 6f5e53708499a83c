import Grab.Lib.Winding
import Grab.Overlay.Resize

/-!
# What a pixel's middle hits

A body that is hit at a whole point is hit at the middle of the pixel there, when the tolerance is
larger by half the diagonal of a pixel, and what hits a body is in its painted bounds.
-/

set_option linter.unusedSectionVars false

namespace Grab.Overlay.Raster.Edit

open Grab.Lib.Winding List

variable {R : Type} [Field R] [LinearOrder R] [IsStrictOrderedRing R]

/-! ## Edges -/

def plane (point : PointF R) : R × R := (point.x, point.y)

def planeEdge (edge : PointF R × PointF R) : (R × R) × (R × R) := Prod.map plane plane edge

/-- The edges about which a fill winds. -/
def outlineEdges (geometry : FlatContours R) : List ((R × R) × (R × R)) :=
  (geometry.flatMap fillEdges).map planeEdge

section

variable {geometry : FlatContours R} {edge : PointF R × PointF R}

theorem winding_eq (geometry : FlatContours R) (point : PointF R) :
    winding geometry point = wound (outlineEdges geometry) (plane point) := by
  unfold winding wound outlineEdges
  rw [map_map]
  rfl

theorem fillEdges_eq (contour : Contour R) :
    fillEdges contour = if contour.points.length < 2 then [] else around contour.points :=
  rfl

theorem closed_outlineEdges (geometry : FlatContours R) : Closed (outlineEdges geometry) := by
  unfold outlineEdges
  rw [map_flatMap]
  apply closed_flatMap
  intro contour _
  rw [fillEdges_eq]
  split
  · exact fun _ => rfl
  have outline : (around contour.points).map planeEdge = around (contour.points.map plane) :=
    around_map plane contour.points
  rw [outline]
  exact closed_around _

theorem followed_of_fillEdges (mem : edge ∈ geometry.flatMap fillEdges) :
    ∃ next ∈ geometry.flatMap fillEdges, next.1 = edge.2 := by
  rcases mem_flatMap.mp mem with ⟨contour, known, isEdge⟩
  rw [fillEdges_eq] at isEdge
  split at isEdge
  case isTrue => cases isEdge
  case isFalse long =>
    rcases followed_of_around isEdge with ⟨next, isNext, joined⟩
    refine ⟨next, mem_flatMap.mpr ⟨contour, known, ?_⟩, joined⟩
    rw [fillEdges_eq, if_neg long]
    exact isNext

end

/-! ## Distances -/

variable {edges : List (PointF R × PointF R)} {bounds : BoundsF R} {point : PointF R}

section

variable {edge : PointF R × PointF R} {center : PointF R} {radius step : R}

theorem distanceSquaredToSegment_short
    (short : lengthSquared edge.1 edge.2 ≤ minimumLengthSquared) :
    distanceSquaredToSegment point edge.1 edge.2 = apart (plane edge.1) (plane point) :=
  if_pos short

theorem distanceSquaredToSegment_long (long : ¬lengthSquared edge.1 edge.2 ≤ minimumLengthSquared) :
    distanceSquaredToSegment point edge.1 edge.2 =
      apart (along (planeEdge edge) (nearestPart (plane point) (planeEdge edge)))
        (plane point) := by
  have nearest : clamp (((point.x - edge.1.x) * (edge.2.x - edge.1.x) +
      (point.y - edge.1.y) * (edge.2.y - edge.1.y)) / lengthSquared edge.1 edge.2) 0 1 =
        nearestPart (plane point) (planeEdge edge) :=
    rfl
  unfold distanceSquaredToSegment
  rw [if_neg long, nearest]
  unfold along
  rw [mul_comm (nearestPart _ _), mul_comm (nearestPart _ _)]
  rfl

/-- The distance is that of a point of the edge. -/
theorem exists_distanceSquaredToSegment (edge : PointF R × PointF R) (point : PointF R) :
    ∃ part, 0 ≤ part ∧ part ≤ 1 ∧
      distanceSquaredToSegment point edge.1 edge.2 =
        apart (along (planeEdge edge) part) (plane point) := by
  by_cases short : lengthSquared edge.1 edge.2 ≤ minimumLengthSquared
  · refine ⟨0, le_rfl, zero_le_one, ?_⟩
    rw [distanceSquaredToSegment_short short, along_zero]
    rfl
  · have bounds := nearestPart_bounds (plane point) (planeEdge edge)
    exact ⟨_, bounds.1, bounds.2, distanceSquaredToSegment_long short⟩

theorem distanceSquaredToSegment_le (point : PointF R) {part : R}
    (long : ¬lengthSquared edge.1 edge.2 ≤ minimumLengthSquared) (least : 0 ≤ part)
    (most : part ≤ 1) :
    distanceSquaredToSegment point edge.1 edge.2 ≤
      apart (along (planeEdge edge) part) (plane point) := by
  rw [distanceSquaredToSegment_long long]
  exact apart_nearestPart_le (lt_trans minimumLengthSquared_pos (not_le.mp long)) least most

theorem distanceSquaredToSegment_le_start (edge : PointF R × PointF R) (point : PointF R) :
    distanceSquaredToSegment point edge.1 edge.2 ≤ apart (plane edge.1) (plane point) := by
  by_cases short : lengthSquared edge.1 edge.2 ≤ minimumLengthSquared
  · exact le_of_eq (distanceSquaredToSegment_short short)
  · have start := distanceSquaredToSegment_le point short le_rfl zero_le_one
    rw [along_zero] at start
    exact start

theorem distanceSquaredToSegment_near (radiusLeast : 0 ≤ radius) (stepLeast : 0 ≤ step)
    (near : distanceSquaredToSegment point edge.1 edge.2 ≤ radius * radius)
    (next : apart (plane point) (plane center) ≤ step * step) :
    distanceSquaredToSegment center edge.1 edge.2 ≤ (radius + step) * (radius + step) := by
  by_cases short : lengthSquared edge.1 edge.2 ≤ minimumLengthSquared
  · rw [distanceSquaredToSegment_short short] at near ⊢
    exact apart_le radiusLeast stepLeast near next
  have bounds := nearestPart_bounds (plane point) (planeEdge edge)
  rw [distanceSquaredToSegment_long short] at near
  exact (distanceSquaredToSegment_le center short bounds.1 bounds.2).trans
    (apart_le radiusLeast stepLeast near next)

theorem pointNear_near (radiusLeast : 0 ≤ radius) (stepLeast : 0 ≤ step)
    (near : pointNear edges point radius)
    (next : apart (plane point) (plane center) ≤ step * step) :
    pointNear edges center (radius + step) := by
  unfold pointNear at near ⊢
  rw [any_eq_true] at near ⊢
  rcases near with ⟨edge, mem, close⟩
  rw [decide_eq_true_iff] at close
  exact ⟨edge, mem, decide_eq_true (distanceSquaredToSegment_near radiusLeast stepLeast close next)⟩

end

/-! ## The middle of a pixel -/

theorem pixelHalfDiagonal_nonneg : (0 : R) ≤ pixelHalfDiagonal := by
  unfold pixelHalfDiagonal
  positivity

/-- The double is larger than the root of a half. -/
theorem half_lt_square :
    (1 / 2 : R) + minimumLengthSquared / 4 ≤ pixelHalfDiagonal * pixelHalfDiagonal := by
  unfold pixelHalfDiagonal minimumLengthSquared
  norm_num

section

variable [FloorRing R] {geometry : FlatContours R} {x y : ℤ}

/-- A whole point. -/
def wholePoint (x y : ℤ) : PointF R := { x, y }

theorem apart_pixelCenter (x y : ℤ) :
    apart (plane (wholePoint x y : PointF R)) (plane (pixelCenter x y)) = 1 / 2 := by
  unfold apart plane wholePoint pixelCenter
  rw [add_sub_cancel_left, add_sub_cancel_left]
  norm_num

/-- Edges that follow each other keep their points away from what they are far from. -/
theorem far_of_not_pointNear {center : PointF R} {radius : R}
    (followed : ∀ edge ∈ edges, ∃ next ∈ edges, next.1 = edge.2)
    (far : ¬pointNear edges center radius) (large : pixelHalfDiagonal ≤ radius) :
    ∀ edge ∈ edges, ∀ part, 0 ≤ part → part ≤ 1 →
      1 / 2 < apart (along (planeEdge edge) part) (plane center) := by
  have square : (pixelHalfDiagonal : R) * pixelHalfDiagonal ≤ radius * radius :=
    mul_le_mul large large pixelHalfDiagonal_nonneg (pixelHalfDiagonal_nonneg.trans large)
  have enough : 1 / 2 + minimumLengthSquared / 4 ≤ radius * radius := half_lt_square.trans square
  have away : ∀ edge ∈ edges,
      1 / 2 + minimumLengthSquared / 4 < distanceSquaredToSegment center edge.1 edge.2 := by
    intro edge mem
    apply lt_of_le_of_lt enough
    by_contra close
    apply far
    unfold pointNear
    rw [any_eq_true]
    exact ⟨edge, mem, decide_eq_true (not_lt.mp close)⟩
  intro edge mem part least most
  by_cases short : lengthSquared edge.1 edge.2 ≤ minimumLengthSquared
  · rcases followed edge mem with ⟨next, isNext, joined⟩
    have start := lt_of_lt_of_le (away edge mem) (distanceSquaredToSegment_le_start edge center)
    have stop := lt_of_lt_of_le (away next isNext) (distanceSquaredToSegment_le_start next center)
    rw [joined] at stop
    apply apart_along_gt least most start stop
    rw [mul_div_cancel₀ _ (by norm_num : (4 : R) ≠ 0)]
    exact short
  · have slack : (1 / 2 : R) < 1 / 2 + minimumLengthSquared / 4 :=
      lt_add_of_pos_right _ (div_pos minimumLengthSquared_pos (by norm_num))
    exact slack.trans
      (lt_of_lt_of_le (away edge mem) (distanceSquaredToSegment_le center short least most))

/-- From the corner of a pixel to its middle, first to the right and then down. -/
theorem winding_pixelCenter
    (far : ∀ edge ∈ geometry.flatMap fillEdges, ∀ part, 0 ≤ part → part ≤ 1 →
      1 / 2 < apart (along (planeEdge edge) part) (plane (pixelCenter x y : PointF R))) :
    winding geometry (pixelCenter x y) = winding geometry (wholePoint x y) := by
  have outside : ∀ edge ∈ outlineEdges geometry, ∀ part, 0 ≤ part → part ≤ 1 →
      1 / 2 < apart (along edge part) (plane (pixelCenter x y : PointF R)) := by
    intro edge mem
    rcases mem_map.mp mem with ⟨whole, known, rfl⟩
    exact far whole known
  have near : ∀ offset : R, 0 ≤ offset → offset ≤ 1 / 2 → offset * offset ≤ 1 / 4 := by
    intro offset least most
    have product := mul_le_mul most most least (by norm_num)
    linarith
  have right : wound (outlineEdges geometry) ((x : R), (y : R)) =
      wound (outlineEdges geometry) ((x : R) + 1 / 2, (y : R)) := by
    apply wound_level (le_add_of_nonneg_right (by norm_num))
    intro edge mem part least most height beyond before
    have away := outside edge mem part least most
    unfold apart at away
    dsimp only [plane, pixelCenter] at away
    have across := near ((x : R) + 1 / 2 - (along edge part).1) (by linarith) (by linarith)
    rw [height] at away
    linarith
  have down : wound (outlineEdges geometry) ((x : R) + 1 / 2, (y : R) + 1 / 2) =
      wound (outlineEdges geometry) ((x : R) + 1 / 2, (y : R)) := by
    apply wound_upright (closed_outlineEdges geometry) (le_add_of_nonneg_right (by norm_num))
    intro edge mem part least most above under here
    have away := outside edge mem part least most
    unfold apart at away
    dsimp only [plane, pixelCenter] at away
    have across := near ((y : R) + 1 / 2 - (along edge part).2) (by linarith) (by linarith)
    rw [here] at away
    linarith
  rw [winding_eq, winding_eq]
  exact down.trans right.symm

/-- A body that is hit at the corner of a pixel is hit in its middle, too. -/
theorem bodyHit_pixelCenter {fillVisible : Bool} {strokeWidth tolerance : R} (least : 0 ≤ tolerance)
    (hit : bodyHit geometry fillVisible strokeWidth (wholePoint x y) tolerance) :
    bodyHit geometry fillVisible strokeWidth (pixelCenter x y) (tolerance + pixelHalfDiagonal) := by
  have next : apart (plane (wholePoint x y : PointF R)) (plane (pixelCenter x y)) ≤
      pixelHalfDiagonal * pixelHalfDiagonal := by
    rw [apart_pixelCenter]
    exact le_trans (le_add_of_nonneg_right (div_nonneg minimumLengthSquared_pos.le (by norm_num)))
      half_lt_square
  unfold bodyHit at hit ⊢
  rw [Bool.or_eq_true, Bool.and_eq_true, Bool.or_eq_true, Bool.and_eq_true] at hit ⊢
  rcases hit with ⟨visible, inside⟩ | ⟨wide, near⟩
  · refine .inl ⟨visible, ?_⟩
    rcases inside with inFill | near
    · by_cases close :
          pointNear (geometry.flatMap fillEdges) (pixelCenter x y) (tolerance + pixelHalfDiagonal)
      · exact .inr close
      · have far := far_of_not_pointNear (fun edge => followed_of_fillEdges) close
          (le_add_of_nonneg_left least)
        unfold pointInFill at inFill ⊢
        rw [winding_pixelCenter far]
        exact .inl inFill
    · exact .inr (pointNear_near least pixelHalfDiagonal_nonneg near next)
  · refine .inr ⟨wide, ?_⟩
    rw [decide_eq_true_iff] at wide
    rw [← add_assoc]
    apply pointNear_near _ pixelHalfDiagonal_nonneg near next
    exact add_nonneg (mul_nonneg wide.le (by norm_num)) least

end

/-! ## Bounds -/

def Within (bounds : BoundsF R) (point : PointF R) : Prop :=
  (bounds.left ≤ point.x ∧ point.x ≤ bounds.right) ∧ bounds.top ≤ point.y ∧ point.y ≤ bounds.bottom

/-- All points of the contours are within the bounds. -/
def Boxed (geometry : FlatContours R) (bounds : BoundsF R) : Prop :=
  ∀ contour ∈ geometry, ∀ point ∈ contour.points, Within bounds point

theorem Within.extend (inside : Within bounds point) (other : PointF R) :
    Within (bounds.extend other) point := by
  constructor
  · exact ⟨(min_le_left _ _).trans inside.1.1, inside.1.2.trans (le_max_left _ _)⟩
  · exact ⟨(min_le_left _ _).trans inside.2.1, inside.2.2.trans (le_max_left _ _)⟩

theorem within_extend (bounds : BoundsF R) (point : PointF R) :
    Within (bounds.extend point) point := by
  constructor
  · exact ⟨min_le_right _ _, le_max_right _ _⟩
  · exact ⟨min_le_right _ _, le_max_right _ _⟩

theorem within_foldl_extend (points : List (PointF R)) (bounds : BoundsF R)
    (inside : Within bounds point ∨ point ∈ points) :
    Within (points.foldl BoundsF.extend bounds) point := by
  induction points generalizing bounds with
  | nil =>
    rcases inside with inside | impossible
    · exact inside
    · cases impossible
  | cons first rest ih =>
    apply ih
    rcases inside with inside | mem
    · exact .inl (inside.extend first)
    · rcases mem_cons.mp mem with rfl | later
      · exact .inl (within_extend bounds point)
      · exact .inr later

theorem boxed_pointBounds {geometry : FlatContours R}
    (bounded : pointBounds geometry = some bounds) : Boxed geometry bounds := by
  intro contour known point mem
  have listed : point ∈ allPoints geometry := mem_flatMap.mpr ⟨contour, known, mem⟩
  unfold pointBounds at bounded
  split at bounded
  case h_1 => cases bounded
  case h_2 first rest points =>
    cases bounded
    rw [points] at listed
    exact within_foldl_extend _ _ (.inr listed)

theorem boxed_geometryBounds {functions : Trigonometry R} {geometry : Geometry R}
    (bounded : geometryBounds functions geometry = some bounds) :
    Boxed (flattenGeometry functions geometry) bounds := by
  cases geometry with
  | path commands closed | polygon points => exact boxed_pointBounds bounded
  | rect box =>
    cases bounded
    intro contour known point mem
    have inside : ∀ {first second value : R}, value = first ∨ value = second →
        min first second ≤ value ∧ value ≤ max first second := by
      rintro first second value (rfl | rfl)
      · exact ⟨min_le_left _ _, le_max_left _ _⟩
      · exact ⟨min_le_right _ _, le_max_right _ _⟩
    rw [mem_singleton.mp known] at mem
    simp only [mem_cons, not_mem_nil, or_false] at mem
    rcases mem with rfl | rfl | rfl | rfl
    · exact ⟨inside (.inl rfl), inside (.inl rfl)⟩
    · exact ⟨inside (.inr rfl), inside (.inl rfl)⟩
    · exact ⟨inside (.inr rfl), inside (.inr rfl)⟩
    · exact ⟨inside (.inl rfl), inside (.inr rfl)⟩
  | ellipse center radiusX radiusY =>
    cases bounded
    intro contour known point mem
    unfold flattenGeometry flattenEllipse at known
    dsimp only at known
    split at known
    case isTrue => cases known
    case isFalse wide =>
      push Not at wide
      have inside : ∀ {middle radius share : R}, 0 < radius → |share| ≤ 1 →
          middle - radius ≤ middle + radius * share ∧
            middle + radius * share ≤ middle + radius := by
        intro middle radius share positive small
        have bounds := abs_le.mp small
        have least := mul_le_mul_of_nonneg_left bounds.1 positive.le
        have most := mul_le_mul_of_nonneg_left bounds.2 positive.le
        constructor <;> linarith
      rw [mem_singleton.mp known] at mem
      rcases mem_map.mp mem with ⟨sample, _, rfl⟩
      exact ⟨inside wide.1 (functions.abs_cos_le _), inside wide.2 (functions.abs_sin_le _)⟩

section

variable {geometry : FlatContours R} {edge : PointF R × PointF R}

theorem ends_of_fillEdges (mem : edge ∈ geometry.flatMap fillEdges) (boxed : Boxed geometry bounds)
    : Within bounds edge.1 ∧ Within bounds edge.2 := by
  rcases mem_flatMap.mp mem with ⟨contour, known, isEdge⟩
  rw [fillEdges_eq] at isEdge
  split at isEdge
  case isTrue => cases isEdge
  case isFalse =>
    have ends := ends_mem_of_around isEdge
    exact ⟨boxed contour known _ ends.1, boxed contour known _ ends.2⟩

/-- A stroke follows edges of the closed contour. -/
theorem fillEdges_of_strokeEdges (mem : edge ∈ geometry.flatMap strokeEdges) :
    edge ∈ geometry.flatMap fillEdges := by
  rcases mem_flatMap.mp mem with ⟨contour, known, isEdge⟩
  refine mem_flatMap.mpr ⟨contour, known, ?_⟩
  unfold strokeEdges at isEdge
  unfold fillEdges
  split at isEdge
  case isTrue => cases isEdge
  case isFalse long =>
    rw [if_neg long]
    rcases contour with ⟨points, _ | _⟩
    · unfold segments at isEdge ⊢
      rcases mem_append.mp isEdge with inner | impossible
      · exact mem_append_left _ inner
      · cases impossible
    · exact isEdge

theorem expanded_of_pointNear {radius : R} (least : 0 ≤ radius)
    (ends : ∀ edge ∈ edges, Within bounds edge.1 ∧ Within bounds edge.2)
    (near : pointNear edges point radius) : Within (expanded bounds radius) point := by
  unfold pointNear at near
  rw [any_eq_true] at near
  rcases near with ⟨edge, mem, close⟩
  rw [decide_eq_true_iff] at close
  rcases exists_distanceSquaredToSegment edge point with ⟨part, partLeast, partMost, same⟩
  rw [same] at close
  have box := ends edge mem
  have acrossX := between_of_ends box.1.1.1 box.1.1.2 box.2.1.1 box.2.1.2 partLeast partMost
  have acrossY := between_of_ends box.1.2.1 box.1.2.2 box.2.2.1 box.2.2.2 partLeast partMost
  have reach : ∀ {first second : R}, first * first + second * second ≤ radius * radius →
      -radius ≤ first ∧ first ≤ radius := by
    intro first second sum
    apply abs_le_of_sq_le_sq' _ least
    rw [sq, sq]
    exact (le_add_of_nonneg_right (mul_self_nonneg second)).trans sum
  have sides := reach close
  have levels := reach ((add_comm _ _).trans_le close)
  unfold along planeEdge plane at sides levels
  dsimp only [Prod.map] at sides levels
  unfold expanded
  constructor <;> constructor <;> dsimp only <;> linarith

theorem Within.expand {amount larger : R} (inside : Within (expanded bounds amount) point)
    (le : amount ≤ larger) : Within (expanded bounds larger) point := by
  constructor
  · exact ⟨(sub_le_sub_left le _).trans inside.1.1, inside.1.2.trans (add_le_add_right le _)⟩
  · exact ⟨(sub_le_sub_left le _).trans inside.2.1, inside.2.2.trans (add_le_add_right le _)⟩

theorem within_of_pointInFill (boxed : Boxed geometry bounds)
    (inside : pointInFill geometry point) : Within bounds point := by
  unfold pointInFill at inside
  rw [decide_eq_true_iff, winding_eq] at inside
  have corners : ∀ edge ∈ outlineEdges geometry, ∀ corner, corner = edge.1 ∨ corner = edge.2 →
      (bounds.left ≤ corner.1 ∧ corner.1 ≤ bounds.right) ∧
        bounds.top ≤ corner.2 ∧ corner.2 ≤ bounds.bottom := by
    intro edge mem corner isEnd
    rcases mem_map.mp mem with ⟨whole, known, rfl⟩
    have ends := ends_of_fillEdges known boxed
    rcases isEnd with rfl | rfl
    · exact ends.1
    · exact ends.2
  have strict := inside_of_wound (closed_outlineEdges geometry) corners inside
  exact ⟨⟨strict.1.1, strict.1.2.le⟩, strict.2.1, strict.2.2.le⟩

theorem expanded_of_within (inside : Within bounds point) {amount : R} (least : 0 ≤ amount) :
    Within (expanded bounds amount) point := by
  constructor
  · exact ⟨(sub_le_self _ least).trans inside.1.1, inside.1.2.trans (le_add_of_nonneg_right least)⟩
  · exact ⟨(sub_le_self _ least).trans inside.2.1, inside.2.2.trans (le_add_of_nonneg_right least)⟩

/-- What hits a body is in its painted bounds. -/
theorem within_paintedHitBounds {fillVisible : Bool} {strokeWidth tolerance : R}
    (boxed : Boxed geometry bounds) (least : 0 ≤ tolerance)
    (hit : bodyHit geometry fillVisible strokeWidth point tolerance) :
    ∃ painted, paintedHitBounds bounds fillVisible strokeWidth tolerance = some painted ∧
      Within painted point := by
  have filled : fillVisible = true →
      (pointInFill geometry point ||
        pointNear (geometry.flatMap fillEdges) point tolerance) = true →
      Within (expanded bounds tolerance) point := by
    intro _ inside
    rcases (Bool.or_eq_true _ _).mp inside with inFill | near
    · exact expanded_of_within (within_of_pointInFill boxed inFill) least
    · exact expanded_of_pointNear least (fun edge mem => ends_of_fillEdges mem boxed) near
  unfold bodyHit at hit
  rw [Bool.or_eq_true, Bool.and_eq_true, Bool.and_eq_true, decide_eq_true_iff] at hit
  unfold paintedHitBounds
  by_cases wide : 0 < strokeWidth
  · rw [if_pos wide]
    refine ⟨_, rfl, ?_⟩
    rcases hit with ⟨visible, inside⟩ | ⟨_, near⟩
    · rw [if_pos visible]
      exact (filled visible inside).expand (le_max_left _ _)
    have reach : 0 ≤ strokeWidth * (1 / 2) + tolerance :=
      add_nonneg (mul_nonneg wide.le (by norm_num)) least
    have stroked := expanded_of_pointNear reach
      (fun edge mem => ends_of_fillEdges (fillEdges_of_strokeEdges mem) boxed) near
    exact stroked.expand (le_max_right _ _)
  · rw [if_neg wide]
    rcases hit with ⟨visible, inside⟩ | ⟨other, _⟩
    · rw [if_pos visible, if_pos visible]
      exact ⟨_, rfl, filled visible inside⟩
    · exact absurd other wide

end

end Grab.Overlay.Raster.Edit
