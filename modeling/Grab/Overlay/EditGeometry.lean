import Mathlib.Data.List.Sort
import Mathlib.Data.Prod.Lex
import Grab.Overlay.Contours

/-!
# Hits, regions and resizes of shapes that are edited

`kernel/presentation/overlay_edit.cpp` with exact numbers of an ordered field: the flattened
outlines, the handles, what a point hits, the region in which the overlay takes input, and the
interaction that moves or resizes one shape.

Every contour keeps its own points; the source keeps those of all contours in one vector.
-/

namespace Grab.Overlay.Raster.Edit

deriving instance DecidableEq for BoundsF

section

variable {R : Type} [Field R] [LinearOrder R]

/-! ## Constants and options -/

def bezierSubdivisionSteps : ℕ := 32

def ellipseSamples : ℕ := 128

/-- Half the diagonal of a pixel, as the double it is in the source. -/
def pixelHalfDiagonal : R := ((6369051672525773 : ℕ) : R) / ((2 ^ 53 : ℕ) : R)

/-- The epsilon of a double. -/
def minimumLengthSquared : R := 1 / ((2 ^ 52 : ℕ) : R)

def maxRegionRects : ℕ := 100

structure EditGeometryOptions (R : Type) where
  handlePx : R
  hitTolerancePx : R
  minSizePx : R

def validNonnegative (value fallback : R) : R := if 0 ≤ value then value else fallback

def normalizedOptions (options : EditGeometryOptions R) : EditGeometryOptions R where
  handlePx := validNonnegative options.handlePx 8
  hitTolerancePx := validNonnegative options.hitTolerancePx ((3 : ℕ) : R)
  minSizePx := validNonnegative options.minSizePx 8

/-! ## Flattening -/

def toPoint (point : SpacePoint R) : PointF R := { x := point.x, y := point.y }

def lerp (left right : PointF R) (parameter : R) : PointF R where
  x := left.x + (right.x - left.x) * parameter
  y := left.y + (right.y - left.y) * parameter

/-- Every point is drawn towards the next one. -/
def bezierPass (parameter : R) : List (PointF R) → List (PointF R)
  | left :: right :: rest => lerp left right parameter :: bezierPass parameter (right :: rest)
  | _ => []

def evaluateBezier (start : PointF R) (controls : List (SpacePoint R)) (parameter : R) : PointF R :=
  ((bezierPass parameter)^[controls.length] (start :: controls.map toPoint)).headD start

/-- The points that `append_bezier` appends. -/
def bezierPoints (start : PointF R) (controls : List (SpacePoint R)) : List (PointF R) :=
  (List.range bezierSubdivisionSteps).map fun step =>
    evaluateBezier start controls (((step + 1 : ℕ) : R) / ((bezierSubdivisionSteps : ℕ) : R))

/-- A path that is flattened up to some command: the contours that are done, the points of the
active one, and the current point. -/
structure Flattening (R : Type) where
  contours : FlatContours R := []
  active : Option (List (PointF R)) := none
  current : Option (PointF R) := none

def Flattening.settle (state : Flattening R) (closed : Bool) : FlatContours R :=
  match state.active with
  | none => state.contours
  | some points => state.contours ++ [{ points, closed }]

def flattenCommand (state : Flattening R) : PathCommand R → Flattening R
  | .moveTo point =>
    { contours := state.settle false
      active := some [toPoint point]
      current := some (toPoint point) }
  | .lineTo point =>
    let points := state.active.getD [state.current.getD (toPoint point)]
    { state with
      active := some (points ++ [toPoint point])
      current := some (toPoint point) }
  | .bezierTo controls =>
    match state.current.or (controls.head?.map toPoint) with
    | none => state
    | some start =>
      let points := state.active.getD [start] ++ bezierPoints start controls
      { state with active := some points, current := points.getLast? }
  | .closePath =>
    match state.active with
    | none => state
    | some points =>
      { contours := state.contours ++ [{ points, closed := true }]
        active := none
        current := points.head? }

/-- A contour that is not active at the end is closed already. -/
def flattenPath (commands : List (PathCommand R)) (closed : Bool) : FlatContours R :=
  (commands.foldl flattenCommand {}).settle closed

def flattenRect (bounds : SpaceRect R) : FlatContours R :=
  let left := bounds.x
  let top := bounds.y
  let right := left + bounds.w
  let bottom := top + bounds.h
  [{ points := [⟨left, top⟩, ⟨right, top⟩, ⟨right, bottom⟩, ⟨left, bottom⟩], closed := true }]

def flattenEllipse (functions : Trigonometry R) (center : SpacePoint R) (radiusX radiusY : R) :
    FlatContours R :=
  if radiusX ≤ 0 ∨ radiusY ≤ 0 then []
  else
    [{ points := (List.range ellipseSamples).map fun sample =>
        let angle := 2 * functions.pi * (sample : R) / ((ellipseSamples : ℕ) : R)
        { x := center.x + radiusX * functions.cos angle
          y := center.y + radiusY * functions.sin angle }
       closed := true }]

def flattenPolygon (points : List (SpacePoint R)) : FlatContours R :=
  if points = [] then [] else [{ points := points.map toPoint, closed := true }]

def flattenGeometry (functions : Trigonometry R) : Geometry R → FlatContours R
  | .path commands closed => flattenPath commands closed
  | .rect bounds => flattenRect bounds
  | .ellipse center radiusX radiusY => flattenEllipse functions center radiusX radiusY
  | .polygon points => flattenPolygon points

/-! ## Bounds and handles -/

def boundsAreFinite (bounds : BoundsF R) : Bool :=
  bounds.left ≤ bounds.right && bounds.top ≤ bounds.bottom

def geometryBounds (functions : Trigonometry R) : Geometry R → Option (BoundsF R)
  | .rect bounds =>
    let otherX := bounds.x + bounds.w
    let otherY := bounds.y + bounds.h
    some
      { left := min bounds.x otherX
        top := min bounds.y otherY
        right := max bounds.x otherX
        bottom := max bounds.y otherY }
  | .ellipse center radiusX radiusY =>
    some
      { left := center.x - radiusX
        top := center.y - radiusY
        right := center.x + radiusX
        bottom := center.y + radiusY }
  | geometry => pointBounds (flattenGeometry functions geometry)

inductive Handle where
  | topLeft | top | topRight | right | bottomRight | bottom | bottomLeft | left
  deriving DecidableEq, Repr

def handleLocations (bounds : BoundsF R) : List (Handle × PointF R) :=
  let centerX := (bounds.left + bounds.right) * (1 / 2)
  let centerY := (bounds.top + bounds.bottom) * (1 / 2)
  [(.topLeft, ⟨bounds.left, bounds.top⟩),
    (.top, ⟨centerX, bounds.top⟩),
    (.topRight, ⟨bounds.right, bounds.top⟩),
    (.right, ⟨bounds.right, centerY⟩),
    (.bottomRight, ⟨bounds.right, bounds.bottom⟩),
    (.bottom, ⟨centerX, bounds.bottom⟩),
    (.bottomLeft, ⟨bounds.left, bounds.bottom⟩),
    (.left, ⟨bounds.left, centerY⟩)]

/-- The point is in the closed square about a center. -/
def nearCenter (center point : PointF R) (radius : R) : Prop :=
  |point.x - center.x| ≤ radius ∧ |point.y - center.y| ≤ radius

instance (center point : PointF R) (radius : R) : Decidable (nearCenter center point radius) :=
  inferInstanceAs (Decidable (_ ∧ _))

def handleHit (bounds : BoundsF R) (point : PointF R) (side : R) : Option Handle :=
  if side ≤ 0 then none
  else
    ((handleLocations bounds).foldl (fun nearest location =>
      if nearCenter location.2 point (side * (1 / 2)) then
        let distance := lengthSquared location.2 point
        match nearest with
        | none => some (location.1, distance)
        | some (handle, least) =>
          if distance < least then some (location.1, distance) else some (handle, least)
      else nearest) none).map Prod.fst

/-! ## What a point hits -/

def distanceSquaredToSegment (point start stop : PointF R) : R :=
  let segmentX := stop.x - start.x
  let segmentY := stop.y - start.y
  let squared := lengthSquared start stop
  if squared ≤ minimumLengthSquared then lengthSquared start point
  else
    let parameter :=
      clamp (((point.x - start.x) * segmentX + (point.y - start.y) * segmentY) / squared) 0 1
    lengthSquared { x := start.x + segmentX * parameter, y := start.y + segmentY * parameter } point

/-- The edges of a contour that a stroke follows. -/
def strokeEdges (contour : Contour R) : List (PointF R × PointF R) :=
  if contour.points.length < 2 then [] else segments contour

/-- The edges around a contour. -/
def fillEdges (contour : Contour R) : List (PointF R × PointF R) :=
  if contour.points.length < 2 then [] else segments { contour with closed := true }

def hasStrokeLength (geometry : FlatContours R) : Bool :=
  geometry.any fun contour => (strokeEdges contour).any fun edge =>
    decide (minimumLengthSquared < lengthSquared edge.1 edge.2)

/-- The triangles that a contour spans with its first point. -/
def hasFillArea (geometry : FlatContours R) : Bool :=
  geometry.any fun contour =>
    match contour.points with
    | [] => false
    | origin :: rest =>
      (rest.zip rest.tail).any fun pair =>
        decide (minimumLengthSquared <
          |(pair.1.x - origin.x) * (pair.2.y - origin.y) -
            (pair.1.y - origin.y) * (pair.2.x - origin.x)|)

/-- What an edge adds to the winding about a point. -/
def edgeWinding (point : PointF R) (edge : PointF R × PointF R) : ℤ :=
  let start := edge.1
  let stop := edge.2
  if start.y ≤ point.y ∧ point.y < stop.y then
    if point.x < start.x + (point.y - start.y) * (stop.x - start.x) / (stop.y - start.y) then 1
    else 0
  else if stop.y ≤ point.y ∧ point.y < start.y then
    if point.x < start.x + (point.y - start.y) * (stop.x - start.x) / (stop.y - start.y) then -1
    else 0
  else 0

def winding (geometry : FlatContours R) (point : PointF R) : ℤ :=
  ((geometry.flatMap fillEdges).map (edgeWinding point)).sum

def pointInFill (geometry : FlatContours R) (point : PointF R) : Bool := winding geometry point ≠ 0

def pointNear (edges : List (PointF R × PointF R)) (point : PointF R) (radius : R) : Bool :=
  edges.any fun edge => decide (distanceSquaredToSegment point edge.1 edge.2 ≤ radius * radius)

def fillIsVisible (shape : Shape R) (geometry : FlatContours R) : Bool :=
  match shape.fill with
  | none => false
  | some fill => fill.color.a ≠ 0 && hasFillArea geometry

def visibleStrokeWidth (shape : Shape R) (geometry : FlatContours R) : R :=
  match shape.stroke with
  | none => 0
  | some stroke =>
    if stroke.color.a = 0 ∨ stroke.widthPx ≤ 0 ∨ ¬hasStrokeLength geometry then 0
    else stroke.widthPx

def bodyHit (geometry : FlatContours R) (fillVisible : Bool) (strokeWidth : R)
    (point : PointF R) (tolerance : R) : Bool :=
  (fillVisible && (pointInFill geometry point ||
      pointNear (geometry.flatMap fillEdges) point tolerance)) ||
    decide (0 < strokeWidth) &&
      pointNear (geometry.flatMap strokeEdges) point (strokeWidth * (1 / 2) + tolerance)

structure Candidate (R : Type) where
  record : ShapeRecord R
  geometry : FlatContours R
  bounds : BoundsF R
  fillVisible : Bool
  strokeWidth : R

def commandIsInSpace (space : CoordinateSpaceId) : PathCommand R → Bool
  | .moveTo point | .lineTo point => point.space = space
  | .bezierTo controls => controls.all (·.space = space)
  | .closePath => true

def geometryIsInSpace (space : CoordinateSpaceId) : Geometry R → Bool
  | .path commands _ => commands.all (commandIsInSpace space)
  | .rect bounds => bounds.space = space
  | .ellipse center _ _ => center.space = space
  | .polygon points => points.all (·.space = space)

/-- A record with finite bounds, as a candidate. -/
def candidateOf (functions : Trigonometry R) (record : ShapeRecord R) : Option (Candidate R) :=
  match geometryBounds functions record.shape.geometry with
  | none => none
  | some bounds =>
    if ¬boundsAreFinite bounds then none
    else
      let geometry := flattenGeometry functions record.shape.geometry
      some
        { record
          geometry
          bounds
          fillVisible := fillIsVisible record.shape geometry
          strokeWidth := visibleStrokeWidth record.shape geometry }

def bandIndex : Band → ℕ
  | .annotationBand => 0
  | .trailBand => 1

/-- The order in which shapes are painted. -/
def NotAbove (lower upper : Candidate R) : Prop :=
  toLex (bandIndex lower.record.shape.band, toLex (lower.record.shape.z, lower.record.id.slot)) ≤
    toLex (bandIndex upper.record.shape.band, toLex (upper.record.shape.z, upper.record.id.slot))

instance : DecidableRel (NotAbove : Candidate R → Candidate R → Prop) := fun _ _ =>
  inferInstanceAs (Decidable (toLex (_, toLex (_, _)) ≤ toLex (_, toLex (_, _))))

def candidatesForPoint (functions : Trigonometry R) (shapes : List (ShapeRecord R))
    (editable : List ShapeId) (space : CoordinateSpaceId) : List (Candidate R) :=
  ((shapes.filter fun record =>
      editable.contains record.id && geometryIsInSpace space record.shape.geometry).filterMap
    (candidateOf functions)).insertionSort NotAbove

structure Selection (R : Type) where
  record : ShapeRecord R
  handle : Option Handle

/-- The handles of all shapes come before the bodies; in both the topmost shape comes first. -/
def detailedHitTest (functions : Trigonometry R) (shapes : List (ShapeRecord R))
    (editable : List ShapeId) (at_ : SpacePoint R) (rawOptions : EditGeometryOptions R) :
    Option (Selection R) :=
  let options := normalizedOptions rawOptions
  let candidates := (candidatesForPoint functions shapes editable at_.space).reverse
  let point := toPoint at_
  (candidates.findSome? fun candidate =>
      (handleHit candidate.bounds point options.handlePx).map fun handle =>
        { record := candidate.record, handle := some handle }).or
    ((candidates.find? fun candidate =>
        bodyHit candidate.geometry candidate.fillVisible candidate.strokeWidth point
          options.hitTolerancePx).map fun candidate =>
      { record := candidate.record, handle := none })

def hitTest (functions : Trigonometry R) (shapes : List (ShapeRecord R))
    (editable : List ShapeId) (at_ : SpacePoint R) (options : EditGeometryOptions R) :
    Option ShapeId :=
  (detailedHitTest functions shapes editable at_ options).map (·.record.id)

/-! ## The region -/

def expanded (bounds : BoundsF R) (amount : R) : BoundsF R where
  left := bounds.left - amount
  top := bounds.top - amount
  right := bounds.right + amount
  bottom := bounds.bottom + amount

def paintedHitBounds (bounds : BoundsF R) (fillVisible : Bool) (strokeWidth tolerance : R) :
    Option (BoundsF R) :=
  let filled := if fillVisible then tolerance else 0
  if 0 < strokeWidth then
    some (expanded bounds (max filled (strokeWidth * (1 / 2) + tolerance)))
  else if fillVisible then some (expanded bounds filled)
  else none

def minimumCoordinate : ℤ := -2147483648

def maximumCoordinate : ℤ := 2147483647

/-- A whole number, as the edge of a rectangle. -/
def clampedEdge (value : ℤ) : ℤ := max minimumCoordinate (min value maximumCoordinate)

def rectangleFromEdges (left top right bottom : ℤ) : Option Rectangle :=
  if right ≤ left ∨ bottom ≤ top then none
  else
    some
      { x := left
        y := top
        width := (right - left).toNat
        height := (bottom - top).toNat }

def unite (left right : Rectangle) : Rectangle :=
  (rectangleFromEdges (min left.x right.x) (min left.y right.y)
    (max (left.x + left.width) (right.x + right.width))
    (max (left.y + left.height) (right.y + right.height))).getD
      { x := 0, y := 0, width := 0, height := 0 }

structure RegionAccumulator where
  rectangles : List Rectangle := []
  overflow : Option Rectangle := none
  deriving DecidableEq, Repr

namespace RegionAccumulator

def add (region : RegionAccumulator) (rectangle : Option Rectangle) : RegionAccumulator :=
  match rectangle with
  | none => region
  | some rectangle =>
    match region.overflow with
    | some overflow => { region with overflow := some (unite overflow rectangle) }
    | none =>
      if region.rectangles.length < maxRegionRects then
        { region with rectangles := region.rectangles ++ [rectangle] }
      else
        { rectangles := region.rectangles.dropLast
          overflow := (region.rectangles.getLast?.map fun last => unite last rectangle) }

def overflowed (region : RegionAccumulator) : Bool := region.overflow.isSome

def take (region : RegionAccumulator) : List Rectangle :=
  region.rectangles ++ region.overflow.toList

end RegionAccumulator

/-- The runs of pixels of a row that are hit, from a column on. -/
def scanRow (hit : ℤ → Bool) (y : ℤ) : ℕ → ℤ → Option ℤ → RegionAccumulator → RegionAccumulator
  | 0, x, runStart, region =>
    match runStart with
    | none => region
    | some start => region.add (rectangleFromEdges start y x (y + 1))
  | columns + 1, x, runStart, region =>
    match runStart with
    | none => scanRow hit y columns (x + 1) (if hit x then some x else none) region
    | some start =>
      if hit x then scanRow hit y columns (x + 1) (some start) region
      else
        scanRow hit y columns (x + 1) none (region.add (rectangleFromEdges start y x (y + 1)))

/-- The rows from both ends to the middle; once there are too many rectangles the rows that are
left become one. -/
def scanRows (hit : ℤ → ℤ → Bool) (left top right bottom : ℤ) :
    ℕ → ℕ → RegionAccumulator → RegionAccumulator
  | 0, _, region => region
  | rows + 1, index, region =>
    let offset : ℤ := index / 2
    let y := if index % 2 = 0 then top + offset else bottom - offset - 1
    let scanned := scanRow (fun x => hit x y) y (right - left).toNat left none region
    if scanned.overflowed then
      let processed : ℤ := index + 1
      scanned.add (rectangleFromEdges left (top + (processed + 1) / 2) right
        (bottom - processed / 2))
    else scanRows hit left top right bottom rows (index + 1) scanned

section

variable [FloorRing R]

def pixelCenter (x y : ℤ) : PointF R := { x := (x : R) + 1 / 2, y := (y : R) + 1 / 2 }

def addBodyRegion (region : RegionAccumulator) (geometry : FlatContours R)
    (geometryBound : BoundsF R) (fillVisible : Bool) (strokeWidth tolerance : R) :
    RegionAccumulator :=
  let samplingTolerance := tolerance + pixelHalfDiagonal
  match paintedHitBounds geometryBound fillVisible strokeWidth samplingTolerance with
  | none => region
  | some bounds =>
    let left := clampedEdge ⌊bounds.left⌋
    let top := clampedEdge ⌊bounds.top⌋
    let right := clampedEdge ⌈bounds.right⌉
    let bottom := clampedEdge ⌈bounds.bottom⌉
    if region.overflowed then region.add (rectangleFromEdges left top right bottom)
    else
      scanRows
        (fun x y =>
          bodyHit geometry fillVisible strokeWidth (pixelCenter x y) samplingTolerance)
        left top right bottom (bottom - top).toNat 0 region

def handleRectangle (center : PointF R) (side : R) : Option Rectangle :=
  if side ≤ 0 then none
  else
    let radius := side * (1 / 2)
    rectangleFromEdges (clampedEdge ⌊center.x - radius⌋) (clampedEdge ⌊center.y - radius⌋)
      (clampedEdge ⌈center.x + radius⌉) (clampedEdge ⌈center.y + radius⌉)

/-- The part of the region that is about one shape. -/
def addRecord (functions : Trigonometry R) (editable : List ShapeId)
    (options : EditGeometryOptions R) (region : RegionAccumulator) (record : ShapeRecord R) :
    RegionAccumulator :=
  if ¬editable.contains record.id then region
  else
    match candidateOf functions record with
    | none => region
    | some candidate =>
      let handled := (handleLocations candidate.bounds).foldl
        (fun region location => region.add (handleRectangle location.2 options.handlePx)) region
      addBodyRegion handled candidate.geometry candidate.bounds candidate.fillVisible
        candidate.strokeWidth options.hitTolerancePx

def editInputRegion (functions : Trigonometry R) (shapes : List (ShapeRecord R))
    (editable : List ShapeId) (rawOptions : EditGeometryOptions R) : List Rectangle :=
  (shapes.foldl (addRecord functions editable (normalizedOptions rawOptions)) {}).take

end

/-! ## Moves and resizes -/

inductive AxisDirection where
  | minimum | fixed | maximum
  deriving DecidableEq, Repr

def handleDirections : Handle → AxisDirection × AxisDirection
  | .topLeft => (.minimum, .minimum)
  | .top => (.fixed, .minimum)
  | .topRight => (.maximum, .minimum)
  | .right => (.maximum, .fixed)
  | .bottomRight => (.maximum, .maximum)
  | .bottom => (.fixed, .maximum)
  | .bottomLeft => (.minimum, .maximum)
  | .left => (.minimum, .fixed)

def resizedAxis (minimum maximum delta : R) (direction : AxisDirection) (minimumSize : R) : R × R :=
  match direction with
  | .fixed => (minimum, maximum)
  | .minimum => (min (minimum + delta) (maximum - minimumSize), maximum)
  | .maximum => (minimum, max (maximum + delta) (minimum + minimumSize))

def resizedBounds (original : BoundsF R) (deltaX deltaY : R)
    (directions : AxisDirection × AxisDirection) (minimumSize : R) : BoundsF R :=
  let horizontal :=
    resizedAxis original.left original.right deltaX directions.1 minimumSize
  let vertical := resizedAxis original.top original.bottom deltaY directions.2 minimumSize
  { left := horizontal.1
    top := vertical.1
    right := horizontal.2
    bottom := vertical.2 }

def transformCommand (change : SpacePoint R → SpacePoint R) : PathCommand R → PathCommand R
  | .moveTo point => .moveTo (change point)
  | .lineTo point => .lineTo (change point)
  | .bezierTo controls => .bezierTo (controls.map change)
  | .closePath => .closePath

def translatePoint (deltaX deltaY : R) (point : SpacePoint R) : SpacePoint R :=
  { point with x := point.x + deltaX, y := point.y + deltaY }

def translateGeometry (deltaX deltaY : R) : Geometry R → Geometry R
  | .path commands closed =>
    .path (commands.map (transformCommand (translatePoint deltaX deltaY))) closed
  | .rect bounds => .rect { bounds with x := bounds.x + deltaX, y := bounds.y + deltaY }
  | .ellipse center radiusX radiusY =>
    .ellipse (translatePoint deltaX deltaY center) radiusX radiusY
  | .polygon points => .polygon (points.map (translatePoint deltaX deltaY))

def remap (value oldMinimum oldMaximum newMinimum newMaximum : R) : R :=
  let oldExtent := oldMaximum - oldMinimum
  if oldExtent ≤ minimumLengthSquared then (newMinimum + newMaximum) * (1 / 2)
  else newMinimum + (value - oldMinimum) / oldExtent * (newMaximum - newMinimum)

def scalePoint (original resized : BoundsF R) (point : SpacePoint R) : SpacePoint R :=
  { point with
    x := remap point.x original.left original.right resized.left resized.right
    y := remap point.y original.top original.bottom resized.top resized.bottom }

def scaleGeometry (original resized : BoundsF R) : Geometry R → Geometry R
  | .rect bounds =>
    .rect
      { bounds with
        x := resized.left
        y := resized.top
        w := resized.right - resized.left
        h := resized.bottom - resized.top }
  | .ellipse center _ _ =>
    .ellipse
      { center with
        x := (resized.left + resized.right) * (1 / 2)
        y := (resized.top + resized.bottom) * (1 / 2) }
      ((resized.right - resized.left) * (1 / 2)) ((resized.bottom - resized.top) * (1 / 2))
  | .path commands closed =>
    .path (commands.map (transformCommand (scalePoint original resized))) closed
  | .polygon points => .polygon (points.map (scalePoint original resized))

/-! ## The interaction -/

/-- An interaction that began; a handle is absent when the body is dragged. -/
structure EditInteraction (R : Type) where
  original : Shape R
  target : ShapeId
  beganAt : SpacePoint R
  options : EditGeometryOptions R
  handle : Option Handle

/-- `EditInteraction::begin`, when no interaction is active. -/
def EditInteraction.begin (functions : Trigonometry R) (shapes : List (ShapeRecord R))
    (editable : List ShapeId) (at_ : SpacePoint R) (options : EditGeometryOptions R) :
    Option (EditInteraction R) :=
  match detailedHitTest functions shapes editable at_ options with
  | none => none
  | some selection =>
    if ¬editable.contains selection.record.id ∨ selection.record.shape.animation.isSome then
      none
    else
      some
        { original := selection.record.shape
          target := selection.record.id
          beganAt := at_
          options := normalizedOptions options
          handle := selection.handle }

/-- `EditInteraction::update`, while the interaction is active. -/
def EditInteraction.update (functions : Trigonometry R) (interaction : EditInteraction R)
    (at_ : SpacePoint R) : Option (Shape R) :=
  if at_.space ≠ interaction.beganAt.space then none
  else
    let deltaX := at_.x - interaction.beganAt.x
    let deltaY := at_.y - interaction.beganAt.y
    let original := interaction.original
    match interaction.handle with
    | none => some { original with geometry := translateGeometry deltaX deltaY original.geometry }
    | some handle =>
      match geometryBounds functions original.geometry with
      | none => none
      | some bounds =>
        let resized := resizedBounds bounds deltaX deltaY (handleDirections handle)
          interaction.options.minSizePx
        some { original with geometry := scaleGeometry bounds resized original.geometry }

/-- `EditInteraction::commit`: the shape, and the interaction that goes on without one. -/
def EditInteraction.commit (functions : Trigonometry R) (interaction : EditInteraction R)
    (at_ : SpacePoint R) : Option (Shape R) × Option (EditInteraction R) :=
  match interaction.update functions at_ with
  | none => (none, some interaction)
  | some shape => (some shape, none)

end

end Grab.Overlay.Raster.Edit
