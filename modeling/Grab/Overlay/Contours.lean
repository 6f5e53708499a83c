import Mathlib.Algebra.Order.Floor.Ring
import Grab.Overlay.Service

/-!
# Shapes as the raster sees them

The part of `kernel/presentation/overlay_raster.cpp` that is about outlines: shapes with numbers of
an ordered field, their comparison, contours and their bounds, animation and reveal masks, and the
outline of a stroke.

Flattening and the evaluated animation are given.  Every contour keeps its own points; the source
keeps those of all contours in one vector.
-/

namespace Grab.Overlay.Raster

/-! The literals that occur in every field. -/

instance atLeastTwo_two : Nat.AtLeastTwo 2 := ⟨Nat.le_refl 2⟩

instance atLeastTwo_eight : Nat.AtLeastTwo 8 := ⟨by decide⟩

structure PointF (R : Type) where
  x : R
  y : R
  deriving DecidableEq

structure SpacePoint (R : Type) where
  x : R
  y : R
  space : CoordinateSpaceId := ⟨0⟩
  deriving DecidableEq

structure SpaceRect (R : Type) where
  x : R
  y : R
  w : R
  h : R
  space : CoordinateSpaceId := ⟨0⟩
  deriving DecidableEq

inductive PathCommand (R : Type) where
  | moveTo (point : SpacePoint R)
  | lineTo (point : SpacePoint R)
  | bezierTo (control : List (SpacePoint R))
  | closePath

inductive Geometry (R : Type) where
  | path (commands : List (PathCommand R)) (closed : Bool)
  | rect (bounds : SpaceRect R)
  | ellipse (center : SpacePoint R) (radiusX radiusY : R)
  | polygon (points : List (SpacePoint R))

structure StrokeStyle (R : Type) where
  color : Color
  widthPx : R

structure Shape (R : Type) where
  geometry : Geometry R
  stroke : Option (StrokeStyle R) := none
  fill : Option FillStyle := none
  lifetime : LifetimePolicy := .persistent
  band : Band := .annotationBand
  z : Int := 0
  animation : Option AnimationSpec := none

structure ShapeRecord (R : Type) where
  id : ShapeId
  shape : Shape R
  startedAt : Milliseconds := 0

structure Contour (R : Type) where
  points : List (PointF R)
  closed : Bool

abbrev FlatContours (R : Type) := List (Contour R)

structure BoundsF (R : Type) where
  left : R
  top : R
  right : R
  bottom : R

/-! ## Comparison of appearances -/

section Comparison

variable {R : Type} [DecidableEq R]

end Comparison

/-! ## Contours -/

section Contours

variable {R : Type} [Field R] [LinearOrder R]

/-- `std::clamp`. -/
def clamp (value lower upper : R) : R :=
  if value < lower then lower else if upper < value then upper else value

def allPoints (contours : FlatContours R) : List (PointF R) := contours.flatMap Contour.points

def BoundsF.extend (bounds : BoundsF R) (point : PointF R) : BoundsF R where
  left := min bounds.left point.x
  top := min bounds.top point.y
  right := max bounds.right point.x
  bottom := max bounds.bottom point.y

def pointBounds (contours : FlatContours R) : Option (BoundsF R) :=
  match allPoints contours with
  | [] => none
  | first :: rest =>
    some ((first :: rest).foldl BoundsF.extend
      { left := first.x, top := first.y, right := first.x, bottom := first.y })

def mapPoints (change : PointF R → PointF R) (contours : FlatContours R) : FlatContours R :=
  contours.map fun contour => { contour with points := contour.points.map change }

/-! ## Strokes -/

/-- The functions of `<cmath>` a stroke needs, and what the bounds of a stroke rest on. -/
structure Trigonometry (R : Type) [Field R] [LinearOrder R] where
  pi : R
  cos : R → R
  sin : R → R
  acos : R → R
  sqrt : R → R
  abs_cos_le : ∀ angle, |cos angle| ≤ 1
  abs_sin_le : ∀ angle, |sin angle| ≤ 1
  sqrt_nonneg : ∀ value, 0 ≤ sqrt value
  le_sqrt : ∀ value, 0 ≤ value → value ≤ sqrt value * sqrt value

/-- Stands in over the rationals, where no stroke is painted. -/
def Trigonometry.unused : Trigonometry ℚ where
  pi := 3
  cos := fun _ => 0
  sin := fun _ => 0
  acos := fun _ => 0
  sqrt := fun value => |value| + 1
  abs_cos_le := fun _ => by rw [abs_zero]; exact zero_le_one
  abs_sin_le := fun _ => by rw [abs_zero]; exact zero_le_one
  sqrt_nonneg := fun value => add_nonneg (abs_nonneg value) zero_le_one
  le_sqrt := fun value nonneg => by
    rw [abs_of_nonneg nonneg]
    nlinarith

def lengthSquared (start stop : PointF R) : R :=
  (stop.x - start.x) * (stop.x - start.x) + (stop.y - start.y) * (stop.y - start.y)

/-- The segments between the points, and the closing one. -/
def segments (contour : Contour R) : List (PointF R × PointF R) :=
  contour.points.zip contour.points.tail ++
    if contour.closed then
      contour.points.getLast?.toList.zip contour.points.head?.toList
    else []

end Contours

end Grab.Overlay.Raster
