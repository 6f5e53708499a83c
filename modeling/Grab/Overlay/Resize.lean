import Mathlib.Tactic.Positivity
import Grab.Overlay.EditGeometry

/-!
# Dragging a body and dragging a handle

Moves and resizes change a point along both axes by a map that keeps the points between two points
between their images.  Flattening goes along with such a map, so what happens to the points that a
geometry is given by happens to its outline and to its bounds.
-/

set_option linter.unusedSectionVars false

namespace Grab.Overlay.Raster.Edit

open List

variable {R : Type} [Field R] [LinearOrder R] [IsStrictOrderedRing R]

/-! ## Flattening and maps of the plane -/

/-- A change of the points that a geometry is given by, and what it does to the plane. -/
structure Straight (change : SpacePoint R → SpacePoint R) (move : PointF R → PointF R) : Prop where
  point : ∀ point, toPoint (change point) = move (toPoint point)
  lerp : ∀ left right parameter,
    move (lerp left right parameter) = lerp (move left) (move right) parameter

section

variable {change : SpacePoint R → SpacePoint R} {move : PointF R → PointF R}
  (straight : Straight change move)

include straight

theorem Straight.map_toPoint (points : List (SpacePoint R)) :
    (points.map change).map toPoint = (points.map toPoint).map move := by
  rw [map_map, map_map]
  exact map_congr_left fun point _ => straight.point point

theorem Straight.bezierPass (parameter : R) (points : List (PointF R)) :
    bezierPass parameter (points.map move) = (bezierPass parameter points).map move := by
  induction points with
  | nil => rfl
  | cons left rest ih =>
    cases rest with
    | nil => rfl
    | cons right rest =>
      rw [map_cons, map_cons, Edit.bezierPass, ← map_cons, ih, Edit.bezierPass,
        map_cons, straight.lerp]

theorem Straight.iterate_bezierPass (parameter : R) (steps : ℕ) (points : List (PointF R)) :
    (Edit.bezierPass parameter)^[steps] (points.map move) =
      ((Edit.bezierPass parameter)^[steps] points).map move := by
  induction steps generalizing points with
  | zero => rfl
  | succ steps ih =>
    rw [Function.iterate_succ_apply, Function.iterate_succ_apply, straight.bezierPass, ih]

omit straight in
theorem headD_map (points : List (PointF R)) (fallback : PointF R) :
    (points.map move).headD (move fallback) = move (points.headD fallback) := by
  cases points <;> rfl

theorem Straight.evaluateBezier (start : PointF R) (controls : List (SpacePoint R))
    (parameter : R) :
    evaluateBezier (move start) (controls.map change) parameter =
      move (evaluateBezier start controls parameter) := by
  unfold Edit.evaluateBezier
  rw [length_map, straight.map_toPoint, ← map_cons, straight.iterate_bezierPass, headD_map]

theorem Straight.bezierPoints (start : PointF R) (controls : List (SpacePoint R)) :
    bezierPoints (move start) (controls.map change) = (bezierPoints start controls).map move := by
  unfold Edit.bezierPoints
  rw [map_map]
  exact map_congr_left fun step _ => straight.evaluateBezier start controls _

/-- A flattening whose points were moved. -/
def Flattening.map (move : PointF R → PointF R) (state : Flattening R) : Flattening R where
  contours := mapPoints move state.contours
  active := state.active.map fun points => points.map move
  current := state.current.map move

omit straight in
theorem settle_map (state : Flattening R) (closed : Bool) :
    (state.map move).settle closed = mapPoints move (state.settle closed) := by
  rcases state with ⟨contours, _ | points, current⟩
  · rfl
  · simp [Flattening.settle, Flattening.map, mapPoints]

theorem Straight.flattenCommand (state : Flattening R) (command : PathCommand R) :
    flattenCommand (state.map move) (transformCommand change command) =
      (flattenCommand state command).map move := by
  cases command with
  | moveTo point =>
    unfold Edit.flattenCommand transformCommand
    dsimp only
    rw [settle_map, straight.point]
    rfl
  | lineTo point =>
    rcases state with ⟨contours, active, current⟩
    unfold Edit.flattenCommand transformCommand Flattening.map
    dsimp only
    rw [straight.point]
    cases active with
    | some points => simp
    | none => cases current <;> simp
  | bezierTo controls =>
    rcases state with ⟨contours, active, current⟩
    unfold Edit.flattenCommand transformCommand Flattening.map
    dsimp only
    have start : (current.map move).or ((controls.map change).head?.map toPoint) =
        (current.or (controls.head?.map toPoint)).map move := by
      cases current with
      | some point => rfl
      | none =>
        cases controls with
        | nil => rfl
        | cons first rest => exact congrArg some (straight.point first)
    rw [start]
    cases current.or (controls.head?.map toPoint) with
    | none => rfl
    | some start =>
      have points : (active.map fun points => points.map move).getD [move start] ++
          Edit.bezierPoints (move start) (controls.map change) =
            (active.getD [start] ++ Edit.bezierPoints start controls).map move := by
        rw [straight.bezierPoints, map_append]
        cases active <;> rfl
      dsimp only [Option.map_some]
      rw [points, getLast?_map]
  | closePath =>
    rcases state with ⟨contours, _ | points, current⟩
    · rfl
    · unfold Edit.flattenCommand transformCommand Flattening.map mapPoints
      simp

theorem Straight.flattenPath (commands : List (PathCommand R)) (closed : Bool) :
    flattenPath (commands.map (transformCommand change)) closed =
      mapPoints move (flattenPath commands closed) := by
  have folded : ∀ (commands : List (PathCommand R)) (state : Flattening R),
      (commands.map (transformCommand change)).foldl Edit.flattenCommand (state.map move) =
        (commands.foldl Edit.flattenCommand state).map move := by
    intro commands
    induction commands with
    | nil => exact fun _ => rfl
    | cons command rest ih =>
      intro state
      rw [map_cons, foldl_cons, foldl_cons, straight.flattenCommand]
      exact ih _
  unfold Edit.flattenPath
  rw [← settle_map]
  exact congrArg (Flattening.settle · closed) (folded commands {})

theorem Straight.flattenPolygon (points : List (SpacePoint R)) :
    flattenPolygon (points.map change) = mapPoints move (flattenPolygon points) := by
  cases points with
  | nil => rfl
  | cons first rest =>
    have some : (first :: rest).map change ≠ [] := cons_ne_nil _ _
    unfold Edit.flattenPolygon
    rw [if_neg some, if_neg (cons_ne_nil first rest), straight.map_toPoint]
    rfl

/-! ## Bounds -/

omit straight

/-- A map of the plane that keeps the order along both axes. -/
structure Upright (move : PointF R → PointF R) (alongX alongY : R → R) : Prop where
  apply : ∀ point, move point = { x := alongX point.x, y := alongY point.y }
  monotoneX : Monotone alongX
  monotoneY : Monotone alongY

/-- The images of bounds. -/
def mapBounds (alongX alongY : R → R) (bounds : BoundsF R) : BoundsF R where
  left := alongX bounds.left
  top := alongY bounds.top
  right := alongX bounds.right
  bottom := alongY bounds.bottom

variable {alongX alongY : R → R} (upright : Upright move alongX alongY)

include upright

theorem Upright.extend (bounds : BoundsF R) (point : PointF R) :
    (mapBounds alongX alongY bounds).extend (move point) =
      mapBounds alongX alongY (bounds.extend point) := by
  unfold BoundsF.extend mapBounds
  rw [upright.apply]
  rw [upright.monotoneX.map_min, upright.monotoneX.map_max, upright.monotoneY.map_min,
    upright.monotoneY.map_max]

theorem Upright.foldl_extend (points : List (PointF R)) (bounds : BoundsF R) :
    (points.map move).foldl BoundsF.extend (mapBounds alongX alongY bounds) =
      mapBounds alongX alongY (points.foldl BoundsF.extend bounds) := by
  induction points generalizing bounds with
  | nil => rfl
  | cons point rest ih => rw [map_cons, foldl_cons, foldl_cons, upright.extend, ih]

omit upright

theorem allPoints_mapPoints (contours : FlatContours R) :
    allPoints (mapPoints move contours) = (allPoints contours).map move := by
  unfold allPoints mapPoints
  rw [flatMap_map, map_flatMap]

theorem Upright.pointBounds (upright : Upright move alongX alongY) (contours : FlatContours R) :
    pointBounds (mapPoints move contours) =
      (pointBounds contours).map (mapBounds alongX alongY) := by
  unfold Raster.pointBounds
  rw [allPoints_mapPoints]
  cases allPoints contours with
  | nil => rfl
  | cons first rest =>
    have start : BoundsF.mk (move first).x (move first).y (move first).x (move first).y =
        mapBounds alongX alongY (BoundsF.mk first.x first.y first.x first.y) := by
      rw [upright.apply]
      rfl
    have whole := upright.foldl_extend (first :: rest) (BoundsF.mk first.x first.y first.x first.y)
    rw [← start] at whole
    exact congrArg some whole

end

/-! ## The maps of a move and of a resize -/

theorem straight_translatePoint (deltaX deltaY : R) :
    Straight (translatePoint deltaX deltaY)
      fun point => { x := point.x + deltaX, y := point.y + deltaY } where
  point _ := rfl
  lerp left right parameter := by
    unfold lerp
    congr 1 <;> ring

theorem remap_affine (oldMinimum oldMaximum newMinimum newMaximum : R) :
    ∃ slope offset : R,
      ∀ value,
        remap value oldMinimum oldMaximum newMinimum newMaximum = slope * value + offset := by
  by_cases thin : oldMaximum - oldMinimum ≤ minimumLengthSquared
  · refine ⟨0, (newMinimum + newMaximum) * (1 / 2), ?_⟩
    intro value
    rw [remap, if_pos thin, zero_mul, zero_add]
  refine ⟨(newMaximum - newMinimum) / (oldMaximum - oldMinimum),
    newMinimum - oldMinimum / (oldMaximum - oldMinimum) * (newMaximum - newMinimum), ?_⟩
  intro value
  rw [remap, if_neg thin]
  ring

theorem straight_scalePoint (original resized : BoundsF R) :
    Straight (scalePoint original resized) fun point =>
      { x := remap point.x original.left original.right resized.left resized.right
        y := remap point.y original.top original.bottom resized.top resized.bottom } where
  point _ := rfl
  lerp left right parameter := by
    rcases remap_affine original.left original.right resized.left resized.right with
      ⟨slopeX, offsetX, affineX⟩
    rcases remap_affine original.top original.bottom resized.top resized.bottom with
      ⟨slopeY, offsetY, affineY⟩
    unfold lerp
    rw [affineX, affineX, affineX, affineY, affineY, affineY]
    congr 1 <;> ring

theorem minimumLengthSquared_pos : (0 : R) < minimumLengthSquared := by
  unfold minimumLengthSquared
  positivity

section

variable {oldMinimum oldMaximum newMinimum newMaximum : R}

theorem monotone_remap (upright : newMinimum ≤ newMaximum) :
    Monotone fun value => remap value oldMinimum oldMaximum newMinimum newMaximum := by
  intro first second le
  unfold remap
  dsimp only
  split
  case isTrue thin => exact le_refl _
  case isFalse wide =>
    have extent : 0 ≤ oldMaximum - oldMinimum :=
      le_trans (le_of_lt minimumLengthSquared_pos) (le_of_lt (not_le.mp wide))
    have size : 0 ≤ newMaximum - newMinimum := sub_nonneg.mpr upright
    gcongr

variable (wide : minimumLengthSquared < oldMaximum - oldMinimum)

include wide

theorem remap_minimum :
    remap oldMinimum oldMinimum oldMaximum newMinimum newMaximum = newMinimum := by
  rw [remap, if_neg (not_le.mpr wide), sub_self, zero_div, zero_mul, add_zero]

theorem remap_maximum :
    remap oldMaximum oldMinimum oldMaximum newMinimum newMaximum = newMaximum := by
  have extent : oldMaximum - oldMinimum ≠ 0 := ne_of_gt (lt_trans minimumLengthSquared_pos wide)
  rw [remap, if_neg (not_le.mpr wide), div_self extent, one_mul, add_sub_cancel]

omit wide

theorem remap_thin (thin : oldMaximum - oldMinimum ≤ minimumLengthSquared) (value : R) :
    remap value oldMinimum oldMaximum newMinimum newMaximum = (newMinimum + newMaximum) * (1 / 2) :=
  if_pos thin

end

/-! ## Resizing an axis -/

/-- What a handle makes of the edges of an axis: the edge it does not control stays, and the one it
controls is displaced as far as the least size allows. -/
structure AxisResized (direction : AxisDirection) (oldMinimum oldMaximum delta least : R)
    (newMinimum newMaximum : R) : Prop where
  minimumStays : direction ≠ .minimum → newMinimum = oldMinimum
  maximumStays : direction ≠ .maximum → newMaximum = oldMaximum
  minimumMoves : direction = .minimum → newMinimum = min (oldMinimum + delta) (oldMaximum - least)
  maximumMoves : direction = .maximum → newMaximum = max (oldMaximum + delta) (oldMinimum + least)
  large : direction ≠ .fixed → least ≤ newMaximum - newMinimum
  upright : newMinimum ≤ newMaximum

theorem axisResized_resizedAxis (direction : AxisDirection) {oldMinimum oldMaximum least : R}
    (delta : R) (ordered : oldMinimum ≤ oldMaximum) (nonnegative : 0 ≤ least) :
    AxisResized direction oldMinimum oldMaximum delta least
      (resizedAxis oldMinimum oldMaximum delta direction least).1
      (resizedAxis oldMinimum oldMaximum delta direction least).2 := by
  cases direction with
  | fixed =>
    exact
      { minimumStays := fun _ => rfl
        maximumStays := fun _ => rfl
        minimumMoves := fun other => by cases other
        maximumMoves := fun other => by cases other
        large := fun other => absurd rfl other
        upright := ordered }
  | minimum =>
    have moved : min (oldMinimum + delta) (oldMaximum - least) ≤ oldMaximum - least :=
      min_le_right _ _
    exact
      { minimumStays := fun other => absurd rfl other
        maximumStays := fun _ => rfl
        minimumMoves := fun _ => rfl
        maximumMoves := fun other => by cases other
        large := fun _ => le_sub_comm.mp moved
        upright := le_trans moved (sub_le_self _ nonnegative) }
  | maximum =>
    have moved : oldMinimum + least ≤ max (oldMaximum + delta) (oldMinimum + least) :=
      le_max_right _ _
    exact
      { minimumStays := fun _ => rfl
        maximumStays := fun other => absurd rfl other
        minimumMoves := fun other => by cases other
        maximumMoves := fun _ => rfl
        large := fun _ => le_sub_iff_add_le'.mpr moved
        upright := le_trans (le_add_of_nonneg_right nonnegative) moved }

/-! ## Resizing a geometry -/

/-- A geometry that is scaled point by point. -/
def byPoints : Geometry R → Bool
  | .path _ _ | .polygon _ => true
  | _ => false

section

variable {functions : Trigonometry R} {geometry : Geometry R} {bounds resized : BoundsF R}

/-- The edges of a rectangle or an ellipse are the resized ones. -/
theorem geometryBounds_scaleGeometry (byEdges : byPoints geometry = false)
    (uprightX : resized.left ≤ resized.right) (uprightY : resized.top ≤ resized.bottom) :
    geometryBounds functions (scaleGeometry bounds resized geometry) = some resized := by
  cases geometry with
  | path commands closed | polygon points => cases byEdges
  | rect original =>
    unfold geometryBounds scaleGeometry
    dsimp only
    rw [add_sub_cancel, add_sub_cancel, min_eq_left uprightX, max_eq_right uprightX,
      min_eq_left uprightY, max_eq_right uprightY]
  | ellipse center radiusX radiusY =>
    unfold geometryBounds scaleGeometry
    dsimp only
    congr 2 <;> ring

/-- The edges of a path or a polygon are remapped like its points. -/
theorem geometryBounds_scalePoints (points : byPoints geometry)
    (bounded : geometryBounds functions geometry = some bounds)
    (uprightX : resized.left ≤ resized.right) (uprightY : resized.top ≤ resized.bottom) :
    geometryBounds functions (scaleGeometry bounds resized geometry) =
      some (mapBounds
        (fun value => remap value bounds.left bounds.right resized.left resized.right)
        (fun value => remap value bounds.top bounds.bottom resized.top resized.bottom) bounds) := by
  have straight := straight_scalePoint bounds resized
  have upright : Upright
      (fun point : PointF R => PointF.mk
        (remap point.x bounds.left bounds.right resized.left resized.right)
        (remap point.y bounds.top bounds.bottom resized.top resized.bottom))
      (fun value => remap value bounds.left bounds.right resized.left resized.right)
      fun value => remap value bounds.top bounds.bottom resized.top resized.bottom :=
    { apply := fun _ => rfl
      monotoneX := monotone_remap uprightX
      monotoneY := monotone_remap uprightY }
  cases geometry with
  | rect original | ellipse center radiusX radiusY => cases points
  | path commands closed =>
    have outline := upright.pointBounds (flattenPath commands closed)
    rw [← straight.flattenPath] at outline
    have before : pointBounds (flattenPath commands closed) = some bounds := bounded
    rw [before] at outline
    exact outline
  | polygon corners =>
    have outline := upright.pointBounds (flattenPolygon corners)
    rw [← straight.flattenPolygon] at outline
    have before : pointBounds (flattenPolygon corners) = some bounds := bounded
    rw [before] at outline
    exact outline

/-- What a handle makes of an axis of a geometry.  Points without an extent along the axis all come
to lie in the middle of the resized edges. -/
def AxisOutcome (geometry : Geometry R) (direction : AxisDirection)
    (oldMinimum oldMaximum delta least newMinimum newMaximum : R) : Prop :=
  if byPoints geometry ∧ oldMaximum - oldMinimum ≤ minimumLengthSquared then
    ∃ minimum maximum, AxisResized direction oldMinimum oldMaximum delta least minimum maximum ∧
      newMinimum = (minimum + maximum) / 2 ∧ newMaximum = (minimum + maximum) / 2
  else AxisResized direction oldMinimum oldMaximum delta least newMinimum newMaximum

variable {oldMinimum oldMaximum delta least newMinimum newMaximum : R} {direction : AxisDirection}

theorem axisOutcome_edges (byEdges : byPoints geometry = false)
    (axis : AxisResized direction oldMinimum oldMaximum delta least newMinimum newMaximum) :
    AxisOutcome geometry direction oldMinimum oldMaximum delta least newMinimum newMaximum := by
  rw [AxisOutcome, if_neg]
  · exact axis
  · rintro ⟨points, _⟩
    rw [byEdges] at points
    cases points

theorem axisOutcome_remap (points : byPoints geometry)
    (axis : AxisResized direction oldMinimum oldMaximum delta least newMinimum newMaximum) :
    AxisOutcome geometry direction oldMinimum oldMaximum delta least
      (remap oldMinimum oldMinimum oldMaximum newMinimum newMaximum)
      (remap oldMaximum oldMinimum oldMaximum newMinimum newMaximum) := by
  unfold AxisOutcome
  split
  case isTrue thin =>
    rw [remap_thin thin.2, remap_thin thin.2, mul_one_div]
    exact ⟨newMinimum, newMaximum, axis, rfl, rfl⟩
  case isFalse wide =>
    have extent : minimumLengthSquared < oldMaximum - oldMinimum :=
      not_le.mp fun thin => wide ⟨points, thin⟩
    rw [remap_minimum extent, remap_maximum extent]
    exact axis

end

/-! ## Moving a geometry -/

inductive CommandKind where
  | moveTo | lineTo
  | bezierTo (controls : ℕ)
  | closePath
  deriving DecidableEq, Repr

/-- What a geometry is apart from where its points are. -/
inductive Form (R : Type) where
  | path (commands : List CommandKind) (closed : Bool)
  | rect (w h : R)
  | ellipse (radiusX radiusY : R)
  | polygon (points : ℕ)

def kindOf : PathCommand R → CommandKind
  | .moveTo _ => .moveTo
  | .lineTo _ => .lineTo
  | .bezierTo controls => .bezierTo controls.length
  | .closePath => .closePath

def formOf : Geometry R → Form R
  | .path commands closed => .path (commands.map kindOf) closed
  | .rect bounds => .rect bounds.w bounds.h
  | .ellipse _ radiusX radiusY => .ellipse radiusX radiusY
  | .polygon points => .polygon points.length

def commandPoints : PathCommand R → List (SpacePoint R)
  | .moveTo point | .lineTo point => [point]
  | .bezierTo controls => controls
  | .closePath => []

/-- The points that a geometry is given by. -/
def pointsOf : Geometry R → List (SpacePoint R)
  | .path commands _ => commands.flatMap commandPoints
  | .rect bounds => [{ x := bounds.x, y := bounds.y, space := bounds.space }]
  | .ellipse center _ _ => [center]
  | .polygon points => points

/-- A geometry all of whose points, and with them its outline, are displaced, and nothing else. -/
structure Displaced (functions : Trigonometry R) (deltaX deltaY : R) (before after : Geometry R) :
    Prop where
  form : formOf after = formOf before
  points : pointsOf after = (pointsOf before).map (translatePoint deltaX deltaY)
  outline : flattenGeometry functions after =
    mapPoints (fun point => { x := point.x + deltaX, y := point.y + deltaY })
      (flattenGeometry functions before)

theorem displaced_translateGeometry (functions : Trigonometry R) (deltaX deltaY : R)
    (geometry : Geometry R) :
    Displaced functions deltaX deltaY geometry (translateGeometry deltaX deltaY geometry) := by
  have straight := straight_translatePoint deltaX deltaY
  cases geometry with
  | path commands closed =>
    constructor
    case form =>
      unfold formOf translateGeometry
      dsimp only
      rw [map_map]
      congr 1
      apply map_congr_left
      intro command _
      cases command with
      | bezierTo controls => exact congrArg CommandKind.bezierTo (length_map _)
      | moveTo _ | lineTo _ | closePath => rfl
    case points =>
      unfold pointsOf translateGeometry
      dsimp only
      rw [flatMap_map, map_flatMap]
      congr 1
      funext command
      cases command <;> rfl
    case outline => exact straight.flattenPath commands closed
  | rect bounds =>
    constructor
    case form => rfl
    case points => rfl
    case outline =>
      unfold flattenGeometry translateGeometry flattenRect mapPoints
      simp only [map_cons, map_nil, add_right_comm]
  | ellipse center radiusX radiusY =>
    constructor
    case form => rfl
    case points => rfl
    case outline =>
      unfold flattenGeometry translateGeometry flattenEllipse mapPoints translatePoint
      dsimp only
      split
      · rfl
      simp only [map_cons, map_nil, map_map]
      congr 2
      apply map_congr_left
      intro sample _
      exact congrArg₂ PointF.mk (add_right_comm _ _ _) (add_right_comm _ _ _)
  | polygon points =>
    constructor
    case form => exact congrArg Form.polygon (length_map _)
    case points => rfl
    case outline => exact straight.flattenPolygon points

/-! ## What an interaction makes of a shape -/

/-- What a handle makes of the bounds of a geometry. -/
structure BoundsOutcome (geometry : Geometry R) (handle : Handle) (deltaX deltaY least : R)
    (before after : BoundsF R) : Prop where
  horizontal : AxisOutcome geometry (handleDirections handle).1 before.left before.right deltaX
    least after.left after.right
  vertical : AxisOutcome geometry (handleDirections handle).2 before.top before.bottom deltaY
    least after.top after.bottom

theorem boundsOutcome_scaleGeometry (functions : Trigonometry R) {geometry : Geometry R}
    (handle : Handle) (deltaX deltaY : R) {least : R} {bounds : BoundsF R}
    (bounded : geometryBounds functions geometry = some bounds)
    (finite : boundsAreFinite bounds) (nonnegative : 0 ≤ least) :
    ∃ after,
      geometryBounds functions (scaleGeometry bounds
        (resizedBounds bounds deltaX deltaY (handleDirections handle) least) geometry) =
          some after ∧
        BoundsOutcome geometry handle deltaX deltaY least bounds after := by
  unfold boundsAreFinite at finite
  rw [Bool.and_eq_true, decide_eq_true_iff, decide_eq_true_iff] at finite
  have horizontal := axisResized_resizedAxis (handleDirections handle).1 deltaX finite.1 nonnegative
  have vertical := axisResized_resizedAxis (handleDirections handle).2 deltaY finite.2 nonnegative
  cases points : byPoints geometry with
  | false =>
    refine ⟨_, geometryBounds_scaleGeometry points horizontal.upright vertical.upright, ?_⟩
    constructor
    case horizontal => exact axisOutcome_edges points horizontal
    case vertical => exact axisOutcome_edges points vertical
  | true =>
    refine ⟨_, geometryBounds_scalePoints points bounded horizontal.upright vertical.upright, ?_⟩
    constructor
    case horizontal => exact axisOutcome_remap points horizontal
    case vertical => exact axisOutcome_remap points vertical

theorem minSizePx_normalizedOptions (options : EditGeometryOptions R) :
    0 ≤ (normalizedOptions options).minSizePx := by
  unfold normalizedOptions validNonnegative
  dsimp only
  split
  case isTrue nonnegative => exact nonnegative
  case isFalse => exact Nat.ofNat_nonneg 8

/-- The point hits a handle of the candidate, or its body. -/
def Selects (candidate : Candidate R) (point : PointF R) (options : EditGeometryOptions R) :
    Option Handle → Prop
  | some handle => handleHit candidate.bounds point options.handlePx = some handle
  | none =>
    bodyHit candidate.geometry candidate.fillVisible candidate.strokeWidth point
      options.hitTolerancePx = true

/-- Dragging a body displaces every point; dragging a handle moves the edges it controls as far as
the least size allows and keeps the others.  The points of a path or a polygon without an extent
along an axis gather in the middle of the resized edges instead. -/
theorem update_keeps_opposite_edges (functions : Trigonometry R)
    {interaction : EditInteraction R} {options : EditGeometryOptions R} {point : SpacePoint R}
    {bounds : BoundsF R} (normal : interaction.options = normalizedOptions options)
    (bounded : geometryBounds functions interaction.original.geometry = some bounds)
    (finite : boundsAreFinite bounds) (here : point.space = interaction.beganAt.space) :
    ∃ geometry,
      interaction.update functions point = some { interaction.original with geometry } ∧
        (interaction.handle = none →
          Displaced functions (point.x - interaction.beganAt.x) (point.y - interaction.beganAt.y)
            interaction.original.geometry geometry) ∧
        ∀ handle, interaction.handle = some handle →
          ∃ after, geometryBounds functions geometry = some after ∧
            BoundsOutcome interaction.original.geometry handle
              (point.x - interaction.beganAt.x) (point.y - interaction.beganAt.y)
              interaction.options.minSizePx bounds after := by
  have least : 0 ≤ interaction.options.minSizePx := by
    rw [normal]
    exact minSizePx_normalizedOptions options
  rcases interaction with ⟨original, target, beganAt, normalized, dragged⟩
  dsimp only at bounded here least ⊢
  unfold EditInteraction.update
  rw [if_neg (not_not.mpr here)]
  dsimp only
  cases dragged with
  | none =>
    refine ⟨_, rfl, fun _ => displaced_translateGeometry functions _ _ _, ?_⟩
    intro handle other
    cases other
  | some handle =>
    dsimp only
    rw [bounded]
    refine ⟨_, rfl, fun other => absurd other (Option.some_ne_none handle), ?_⟩
    intro same equal
    cases equal
    exact boundsOutcome_scaleGeometry functions handle _ _ bounded finite least

/-! ## An upright polygon -/

def defaultOptions : EditGeometryOptions ℚ := { handlePx := 8, hitTolerancePx := 3, minSizePx := 8 }

def pointAt (x y : ℚ) : SpacePoint ℚ := { x, y }

/-- A polygon whose points are all on one upright line. -/
def uprightPolygon : ShapeRecord ℚ where
  id := { epoch := 1, slot := 0 }
  shape :=
    { geometry := .polygon [pointAt 0 0, pointAt 0 10, pointAt 0 5]
      stroke := some { color := { r := 255 }, widthPx := 2 } }

/-- A drag of the right handle of a square. -/
def squareDrag : EditInteraction ℚ where
  original := { geometry := .rect { x := 0, y := 0, w := 10, h := 10 } }
  target := { epoch := 1, slot := 0 }
  beganAt := pointAt 10 5
  options := normalizedOptions defaultOptions
  handle := some .right

theorem update_keeps_opposite_edges_square :
    ∃ geometry,
      squareDrag.update Trigonometry.unused (pointAt 0 5) =
          some { squareDrag.original with geometry } ∧
        (squareDrag.handle = none →
          Displaced Trigonometry.unused ((pointAt 0 5).x - squareDrag.beganAt.x)
            ((pointAt 0 5).y - squareDrag.beganAt.y) squareDrag.original.geometry geometry) ∧
        ∀ handle, squareDrag.handle = some handle →
          ∃ after, geometryBounds Trigonometry.unused geometry = some after ∧
            BoundsOutcome squareDrag.original.geometry handle
              ((pointAt 0 5).x - squareDrag.beganAt.x) ((pointAt 0 5).y - squareDrag.beganAt.y)
              squareDrag.options.minSizePx { left := 0, top := 0, right := 10, bottom := 10 }
              after := by
  have normal : squareDrag.options = normalizedOptions defaultOptions := rfl
  apply update_keeps_opposite_edges Trigonometry.unused normal
  · decide +kernel
  · decide +kernel
  · rfl

/-- The left edge follows when the right handle is dragged. -/
theorem uprightPolygon_loses_left_edge :
    geometryBounds Trigonometry.unused uprightPolygon.shape.geometry =
        some { left := 0, top := 0, right := 0, bottom := 10 } ∧
      ((EditInteraction.begin Trigonometry.unused [uprightPolygon] [uprightPolygon.id]
          (pointAt 0 5) defaultOptions).bind fun interaction =>
        (interaction.update Trigonometry.unused (pointAt 20 5)).bind fun shape =>
          (geometryBounds Trigonometry.unused shape.geometry).map (interaction.handle, ·)) =
        some (some .right, { left := 10, top := 0, right := 10, bottom := 10 }) := by
  constructor
  · decide +kernel
  · decide +kernel

end Grab.Overlay.Raster.Edit
