import Mathlib.Data.Rat.Floor
import Grab.Overlay.HitBounds

/-!
# The region in which an overlay takes input

Every part of `edit_input_region` adds rectangles to an accumulator.  `Adds` says what pixels a
part contributes; while there is room it is exactly these, and once there is not the rectangles
that are left out are covered by a larger one.
-/

set_option linter.unusedSectionVars false

namespace Grab.Overlay.Raster.Edit

open List Option

/-! ## Rectangles -/

def Covers (rectangle : Rectangle) (x y : ℤ) : Prop :=
  (rectangle.x ≤ x ∧ x < rectangle.x + rectangle.width) ∧
    rectangle.y ≤ y ∧ y < rectangle.y + rectangle.height

def Contains (rectangle : Option Rectangle) (x y : ℤ) : Prop :=
  ∃ whole, rectangle = some whole ∧ Covers whole x y

theorem contains_rectangleFromEdges (left top right bottom x y : ℤ) :
    Contains (rectangleFromEdges left top right bottom) x y ↔
      (left ≤ x ∧ x < right) ∧ top ≤ y ∧ y < bottom := by
  unfold Contains rectangleFromEdges Covers
  split
  case isTrue empty =>
    constructor
    · rintro ⟨whole, impossible, _⟩
      cases impossible
    · intro inside
      omega
  case isFalse wide =>
    push Not at wide
    constructor
    · rintro ⟨whole, same, inside⟩
      cases same
      dsimp only at inside
      omega
    intro inside
    refine ⟨_, rfl, ?_⟩
    dsimp only
    omega

theorem covers_unite {first second : Rectangle} {x y : ℤ}
    (inside : Covers first x y ∨ Covers second x y) : Covers (unite first second) x y := by
  have united : Contains (rectangleFromEdges (min first.x second.x) (min first.y second.y)
      (max (first.x + first.width) (second.x + second.width))
      (max (first.y + first.height) (second.y + second.height))) x y := by
    rw [contains_rectangleFromEdges]
    unfold Covers at inside
    omega
  rcases united with ⟨whole, same, covers⟩
  unfold unite
  rw [same]
  exact covers

/-! ## The accumulator -/

namespace RegionAccumulator

def Holds (region : RegionAccumulator) (x y : ℤ) : Prop :=
  ∃ rectangle ∈ region.take, Covers rectangle x y

structure Capped (region : RegionAccumulator) : Prop where
  few : region.rectangles.length ≤ maxRegionRects
  full : region.overflow ≠ none → region.rectangles.length + 1 = maxRegionRects

variable {region : RegionAccumulator}

theorem Capped.length_take (capped : Capped region) :
    region.take.length ≤ maxRegionRects ∧
      (region.take.length < maxRegionRects → region.overflow = none) := by
  unfold take
  rw [length_append]
  cases overflowed : region.overflow with
  | none => exact ⟨capped.few, fun _ => rfl⟩
  | some overflow =>
    have full := capped.full (by rw [overflowed]; exact some_ne_none overflow)
    constructor
    · exact full.le
    · intro few
      exact absurd full (ne_of_lt few)

/-- What some part of the region contributes. -/
structure Adds (wanted : ℤ → ℤ → Prop) (before after : RegionAccumulator) : Prop where
  holds : ∀ x y, before.Holds x y ∨ wanted x y → after.Holds x y
  room : after.overflow = none → before.overflow = none
  only : after.overflow = none → ∀ x y, after.Holds x y → before.Holds x y ∨ wanted x y
  capped : before.Capped → after.Capped

namespace Adds

variable {wanted more : ℤ → ℤ → Prop} {first second third : RegionAccumulator}

theorem nothing (empty : ∀ x y, ¬wanted x y) (region : RegionAccumulator) :
    Adds wanted region region where
  holds x y := by
    rintro (held | impossible)
    · exact held
    · exact absurd impossible (empty x y)
  room := id
  only _ _ _ held := .inl held
  capped := id

theorem trans (earlier : Adds wanted first second) (later : Adds more second third) :
    Adds (fun x y => wanted x y ∨ more x y) first third where
  holds x y := by
    rintro (held | here | there)
    · exact later.holds x y (.inl (earlier.holds x y (.inl held)))
    · exact later.holds x y (.inl (earlier.holds x y (.inr here)))
    · exact later.holds x y (.inr there)
  room free := earlier.room (later.room free)
  only free x y held := by
    rcases later.only free x y held with before | there
    · rcases earlier.only (later.room free) x y before with held | here
      · exact .inl held
      · exact .inr (.inl here)
    · exact .inr (.inr there)
  capped capped := later.capped (earlier.capped capped)

theorem congr (adds : Adds wanted first second) (same : ∀ x y, wanted x y ↔ more x y) :
    Adds more first second where
  holds x y held := adds.holds x y (held.imp_right (same x y).mpr)
  room := adds.room
  only free x y held := (adds.only free x y held).imp_right (same x y).mp
  capped := adds.capped

/-- Once there is no room it does not matter what else is covered. -/
theorem overflowing (adds : Adds wanted first second) (full : second.overflow ≠ none)
    (fewer : ∀ x y, more x y → wanted x y) : Adds more first second where
  holds x y held := adds.holds x y (held.imp_right (fewer x y))
  room := adds.room
  only free := absurd free full
  capped := adds.capped

theorem foldl {α : Type} {part : RegionAccumulator → α → RegionAccumulator}
    {pixels : α → ℤ → ℤ → Prop} (adds : ∀ region item, Adds (pixels item) region (part region item))
    (items : List α) (region : RegionAccumulator) :
    Adds (fun x y => ∃ item ∈ items, pixels item x y) region (items.foldl part region) := by
  induction items generalizing region with
  | nil =>
    apply nothing
    rintro x y ⟨item, impossible, _⟩
    cases impossible
  | cons item rest ih =>
    apply ((adds region item).trans (ih (part region item))).congr
    intro x y
    simp only [mem_cons, exists_eq_or_imp]

end Adds

/-- A rectangle is appended while there is room. -/
theorem adds_append (rectangle : Rectangle) (free : region.overflow = none)
    (few : region.rectangles.length < maxRegionRects) :
    Adds (Covers rectangle) region
      { region with rectangles := region.rectangles ++ [rectangle] } := by
  have held : ∀ x y,
      Holds { region with rectangles := region.rectangles ++ [rectangle] } x y ↔
        region.Holds x y ∨ Covers rectangle x y := by
    intro x y
    unfold Holds take
    rw [free]
    simp only [toList_none, append_nil, mem_append, mem_singleton,
      or_and_right, exists_or, exists_eq_left]
  constructor
  case holds => exact fun x y => (held x y).mpr
  case room => exact id
  case only => exact fun _ x y => (held x y).mp
  case capped =>
    intro _
    constructor
    case few =>
      rw [length_append]
      exact few
    case full => exact fun other => absurd free other

/-- A larger rectangle takes the place of some. -/
theorem adds_unite (rectangle last : Rectangle) (kept : List Rectangle)
    (full : region.Capped → kept.length + 1 = maxRegionRects)
    (known : ∀ held ∈ region.take, held ∈ kept ∨ held = last) :
    Adds (Covers rectangle) region
      { rectangles := kept, overflow := some (unite last rectangle) } := by
  constructor
  case holds =>
    rintro x y (⟨held, mem, covers⟩ | covers)
    · rcases known held mem with isKept | rfl
      · exact ⟨held, mem_append_left _ isKept, covers⟩
      · exact ⟨_, mem_append_right _ mem_cons_self, covers_unite (.inl covers)⟩
    · exact ⟨_, mem_append_right _ mem_cons_self, covers_unite (.inr covers)⟩
  case room => exact fun free => absurd free (some_ne_none _)
  case only => exact fun free => absurd free (some_ne_none _)
  case capped =>
    intro capped
    constructor
    case few => exact (Nat.le_succ _).trans (full capped).le
    case full => exact fun _ => full capped

theorem adds_add (region : RegionAccumulator) (rectangle : Option Rectangle) :
    Adds (Contains rectangle) region (region.add rectangle) := by
  cases rectangle with
  | none =>
    apply Adds.nothing
    rintro x y ⟨whole, impossible, _⟩
    cases impossible
  | some rectangle =>
    have whole : ∀ x y, Covers rectangle x y ↔ Contains (some rectangle) x y := by
      intro x y
      constructor
      · exact fun covers => ⟨rectangle, rfl, covers⟩
      · rintro ⟨same, equal, covers⟩
        cases equal
        exact covers
    apply Adds.congr _ whole
    rcases region with ⟨rectangles, overflow⟩
    unfold add
    dsimp only
    cases overflow with
    | some overflow =>
      apply adds_unite rectangle overflow rectangles
      · exact fun capped => capped.full (some_ne_none _)
      intro held mem
      rcases mem_append.mp mem with isKept | isLast
      · exact .inl isKept
      · exact .inr (mem_singleton.mp isLast)
    | none =>
      dsimp only
      split
      case isTrue few => exact adds_append rectangle rfl few
      case isFalse crowded =>
        rcases eq_nil_or_concat rectangles with rfl | ⟨kept, last, rfl⟩
        · exact absurd (by decide) crowded
        rw [concat_eq_append] at crowded ⊢
        rw [getLast?_concat, dropLast_concat]
        apply adds_unite rectangle last kept
        · intro capped
          have few := capped.few
          rw [length_append] at few crowded
          exact le_antisymm few (not_lt.mp crowded)
        intro held mem
        unfold take at mem
        rw [toList_none, append_nil] at mem
        rcases mem_append.mp mem with isKept | isLast
        · exact .inl isKept
        · exact .inr (mem_singleton.mp isLast)

end RegionAccumulator

/-! ## Rows -/

open RegionAccumulator

/-- The pixels of a row from a column on, and those of the run that is open there. -/
def RowPixels (hit : ℤ → Bool) (row : ℤ) (columns : ℕ) (column : ℤ) (runStart : Option ℤ)
    (x y : ℤ) : Prop :=
  y = row ∧ ((∃ start, runStart = some start ∧ start ≤ x ∧ x < column) ∨
    column ≤ x ∧ x < column + columns ∧ hit x = true)

theorem adds_scanRow (hit : ℤ → Bool) (row : ℤ) (columns : ℕ) (column : ℤ) (runStart : Option ℤ)
    (ordered : ∀ start, runStart = some start → start ≤ column) (region : RegionAccumulator) :
    Adds (RowPixels hit row columns column runStart) region
      (scanRow hit row columns column runStart region) := by
  induction columns generalizing column runStart region with
  | zero =>
    cases runStart with
    | none =>
      apply Adds.nothing
      rintro x y ⟨_, ⟨start, impossible, _⟩ | ⟨after, before, _⟩⟩
      · cases impossible
      · omega
    | some start =>
      apply (adds_add region _).congr
      intro x y
      rw [contains_rectangleFromEdges]
      constructor
      · intro inside
        exact ⟨by omega, .inl ⟨start, rfl, inside.1⟩⟩
      rintro ⟨rfl, ⟨same, equal, inside⟩ | ⟨after, before, _⟩⟩
      · cases equal
        exact ⟨inside, le_rfl, lt_add_one y⟩
      · omega
  | succ columns ih =>
    cases runStart with
    | none =>
      unfold scanRow
      dsimp only
      apply (ih (column + 1) (if hit column then some column else none) _ region).congr
      · intro x y
        apply and_congr_right
        intro _
        cases here : hit column with
        | true =>
          rw [if_pos rfl]
          constructor
          · rintro (⟨start, equal, inside⟩ | ⟨after, before, isHit⟩)
            · cases equal
              have same : x = column := by omega
              rw [same]
              exact .inr ⟨le_rfl, by omega, here⟩
            · exact .inr ⟨by omega, by omega, isHit⟩
          rintro (⟨start, impossible, _⟩ | ⟨after, before, isHit⟩)
          · cases impossible
          · rcases eq_or_lt_of_le after with rfl | later
            · exact .inl ⟨column, rfl, le_rfl, lt_add_one column⟩
            · exact .inr ⟨later, by omega, isHit⟩
        | false =>
          rw [if_neg Bool.false_ne_true]
          constructor
          · rintro (⟨start, impossible, _⟩ | ⟨after, before, isHit⟩)
            · cases impossible
            · exact .inr ⟨by omega, by omega, isHit⟩
          rintro (⟨start, impossible, _⟩ | ⟨after, before, isHit⟩)
          · cases impossible
          rcases eq_or_lt_of_le after with rfl | later
          · rw [here] at isHit
            cases isHit
          · exact .inr ⟨later, by omega, isHit⟩
      · intro start equal
        split at equal
        · cases equal
          omega
        · cases equal
    | some start =>
      have started := ordered start rfl
      unfold scanRow
      dsimp only
      split
      case isTrue here =>
        apply (ih (column + 1) (some start) _ region).congr
        · intro x y
          apply and_congr_right
          intro _
          constructor
          · rintro (⟨same, equal, inside⟩ | ⟨after, before, isHit⟩)
            · cases equal
              rcases eq_or_lt_of_le (Int.le_of_lt_add_one inside.2) with rfl | earlier
              · exact .inr ⟨le_rfl, by omega, here⟩
              · exact .inl ⟨start, rfl, inside.1, earlier⟩
            · exact .inr ⟨by omega, by omega, isHit⟩
          rintro (⟨same, equal, inside⟩ | ⟨after, before, isHit⟩)
          · cases equal
            exact .inl ⟨start, rfl, inside.1, by omega⟩
          · rcases eq_or_lt_of_le after with rfl | later
            · exact .inl ⟨start, rfl, started, lt_add_one column⟩
            · exact .inr ⟨later, by omega, isHit⟩
        · intro same equal
          cases equal
          omega
      case isFalse here =>
        have closed := adds_add region (rectangleFromEdges start row column (row + 1))
        apply (closed.trans (ih (column + 1) none _ _)).congr
        · intro x y
          rw [contains_rectangleFromEdges]
          constructor
          · rintro (inside | ⟨rfl, ⟨same, impossible, _⟩ | ⟨after, before, isHit⟩⟩)
            · exact ⟨by omega, .inl ⟨start, rfl, inside.1⟩⟩
            · cases impossible
            · exact ⟨rfl, .inr ⟨by omega, by omega, isHit⟩⟩
          rintro ⟨rfl, ⟨same, equal, inside⟩ | ⟨after, before, isHit⟩⟩
          · cases equal
            exact .inl ⟨inside, le_rfl, lt_add_one y⟩
          · rcases eq_or_lt_of_le after with rfl | later
            · exact absurd isHit here
            · exact .inr ⟨rfl, .inr ⟨later, by omega, isHit⟩⟩
        · intro same impossible
          cases impossible

/-- The pixels of the rows that are not scanned yet. -/
def WindowPixels (hit : ℤ → ℤ → Bool) (left top right bottom : ℤ) (index : ℕ) (x y : ℤ) : Prop :=
  ((left ≤ x ∧ x < right) ∧ top + (index + 1) / 2 ≤ y ∧ y < bottom - index / 2) ∧ hit x y = true

theorem overflow_scanRow {hit : ℤ → Bool} {row : ℤ} {columns : ℕ} {column : ℤ}
    {region : RegionAccumulator}
    (overflowed : (scanRow hit row columns column none region).overflowed)
    (rectangle : Option Rectangle) :
    ((scanRow hit row columns column none region).add rectangle).overflow ≠ none := by
  intro free
  have room := (adds_add _ rectangle).room free
  unfold RegionAccumulator.overflowed at overflowed
  rw [room] at overflowed
  cases overflowed

theorem adds_scanRows (hit : ℤ → ℤ → Bool) (left top right bottom : ℤ) (rows index : ℕ)
    (count : index + rows = (bottom - top).toNat) (region : RegionAccumulator) :
    Adds (WindowPixels hit left top right bottom index) region
      (scanRows hit left top right bottom rows index region) := by
  induction rows generalizing index region with
  | zero =>
    apply Adds.nothing
    rintro x y ⟨inside, _⟩
    omega
  | succ rows ih =>
    unfold scanRows
    dsimp only
    generalize isRow : (if index % 2 = 0 then top + (index : ℤ) / 2
      else bottom - (index : ℤ) / 2 - 1) = row
    have scanned := adds_scanRow (fun x => hit x row) row (right - left).toNat left none
      (fun _ impossible => by cases impossible) region
    -- the row is the first or the last of those that are left
    have isEnd : (index % 2 = 0 ∧ row = top + (index : ℤ) / 2) ∨
        index % 2 = 1 ∧ row = bottom - (index : ℤ) / 2 - 1 := by
      split at isRow
      case isTrue even => exact .inl ⟨even, isRow.symm⟩
      case isFalse odd => exact .inr ⟨by omega, isRow.symm⟩
    split
    case isTrue overflowed =>
      apply (scanned.trans (adds_add _ _)).overflowing (overflow_scanRow overflowed _)
      rintro x y ⟨inside, isHit⟩
      rw [contains_rectangleFromEdges]
      by_cases here : y = row
      · rw [here] at isHit
        exact .inl ⟨here, .inr ⟨inside.1.1, by omega, isHit⟩⟩
      · exact .inr ⟨inside.1, by omega⟩
    case isFalse =>
      apply (scanned.trans (ih (index + 1) (by omega) _)).congr
      intro x y
      unfold RowPixels WindowPixels
      constructor
      · rintro (⟨rfl, ⟨start, impossible, _⟩ | ⟨after, before, isHit⟩⟩ | ⟨inside, isHit⟩)
        · cases impossible
        · exact ⟨by omega, isHit⟩
        · exact ⟨by omega, isHit⟩
      rintro ⟨inside, isHit⟩
      by_cases here : y = row
      · rw [here] at isHit
        exact .inl ⟨here, .inr ⟨inside.1.1, by omega, isHit⟩⟩
      · exact .inr ⟨by omega, isHit⟩

/-! ## One shape -/

section

variable {R : Type} [Field R] [LinearOrder R] [IsStrictOrderedRing R] [FloorRing R]

/-- A point whose coordinates have 32 bits. -/
structure Pixel where
  x : ℤ
  y : ℤ
  minimumX : minimumCoordinate ≤ x
  maximumX : x ≤ maximumCoordinate
  minimumY : minimumCoordinate ≤ y
  maximumY : y ≤ maximumCoordinate

/-- A pixel that is in neither the last column nor the last row. -/
def Pixel.Inner (pixel : Pixel) : Prop := pixel.x < maximumCoordinate ∧ pixel.y < maximumCoordinate

theorem clampedEdge_between {value first last : ℤ} (least : minimumCoordinate ≤ value) :
    clampedEdge first ≤ value ∧ value < clampedEdge last ↔
      value < maximumCoordinate ∧ first ≤ value ∧ value < last := by
  unfold clampedEdge
  have ordered : minimumCoordinate < maximumCoordinate := by decide
  omega

theorem floor_le_between (first last : R) (value : ℤ) :
    ⌊first⌋ ≤ value ∧ value < ⌈last⌉ ↔ first < (value : R) + 1 ∧ (value : R) < last := by
  rw [← Int.lt_add_one_iff, Int.floor_lt, Int.cast_add, Int.cast_one, Int.lt_ceil]

/-- The square about a handle, without its right and its lower edge. -/
def HandleSquare (center : PointF R) (side : R) (pixel : Pixel) : Prop :=
  0 < side ∧
    (center.x - side * (1 / 2) < pixel.x + 1 ∧ (pixel.x : R) < center.x + side * (1 / 2)) ∧
    center.y - side * (1 / 2) < pixel.y + 1 ∧ (pixel.y : R) < center.y + side * (1 / 2)

theorem contains_handleRectangle (center : PointF R) (side : R) (pixel : Pixel) :
    Contains (handleRectangle center side) pixel.x pixel.y ↔
      pixel.Inner ∧ HandleSquare center side pixel := by
  unfold handleRectangle HandleSquare
  split
  case isTrue empty =>
    constructor
    · rintro ⟨whole, impossible, _⟩
      cases impossible
    · rintro ⟨_, positive, _⟩
      exact absurd empty (not_le.mpr positive)
  case isFalse positive =>
    rw [contains_rectangleFromEdges, clampedEdge_between pixel.minimumX,
      clampedEdge_between pixel.minimumY, floor_le_between, floor_le_between]
    constructor
    · rintro ⟨⟨innerX, inX⟩, innerY, inY⟩
      exact ⟨⟨innerX, innerY⟩, not_le.mp positive, inX, inY⟩
    · rintro ⟨⟨innerX, innerY⟩, _, inX, inY⟩
      exact ⟨⟨innerX, inX⟩, innerY, inY⟩

/-- The pixels of the painted bounds in whose middle a body is hit. -/
def BodyPixels (geometry : FlatContours R) (bounds : BoundsF R) (fillVisible : Bool)
    (strokeWidth tolerance : R) (x y : ℤ) : Prop :=
  ∃ painted, paintedHitBounds bounds fillVisible strokeWidth (tolerance + pixelHalfDiagonal) =
      some painted ∧
    ((clampedEdge ⌊painted.left⌋ ≤ x ∧ x < clampedEdge ⌈painted.right⌉) ∧
      clampedEdge ⌊painted.top⌋ ≤ y ∧ y < clampedEdge ⌈painted.bottom⌉) ∧
    bodyHit geometry fillVisible strokeWidth (pixelCenter x y) (tolerance + pixelHalfDiagonal)

theorem adds_addBodyRegion (region : RegionAccumulator) (geometry : FlatContours R)
    (bounds : BoundsF R) (fillVisible : Bool) (strokeWidth tolerance : R) :
    Adds (BodyPixels geometry bounds fillVisible strokeWidth tolerance) region
      (addBodyRegion region geometry bounds fillVisible strokeWidth tolerance) := by
  unfold addBodyRegion
  dsimp only
  split
  case h_1 unpainted =>
    apply Adds.nothing
    rintro x y ⟨painted, same, _⟩
    rw [unpainted] at same
    cases same
  case h_2 painted isPainted =>
    split
    case isTrue overflowed =>
      apply (adds_add region _).overflowing
      · intro free
        have room := (adds_add region _).room free
        unfold RegionAccumulator.overflowed at overflowed
        rw [room] at overflowed
        cases overflowed
      rintro x y ⟨same, equal, inside, _⟩
      rw [isPainted] at equal
      cases equal
      rw [contains_rectangleFromEdges]
      exact inside
    case isFalse =>
      apply (adds_scanRows _ _ _ _ _ _ 0 (Nat.zero_add _) region).congr
      intro x y
      unfold WindowPixels
      constructor
      · rintro ⟨inside, hit⟩
        exact ⟨painted, isPainted, by omega, hit⟩
      rintro ⟨same, equal, inside, hit⟩
      rw [isPainted] at equal
      cases equal
      exact ⟨by omega, hit⟩

theorem bodyPixels_iff {geometry : FlatContours R} {bounds : BoundsF R} {fillVisible : Bool}
    {strokeWidth tolerance : R} (boxed : Boxed geometry bounds) (least : 0 ≤ tolerance)
    (pixel : Pixel) :
    BodyPixels geometry bounds fillVisible strokeWidth tolerance pixel.x pixel.y ↔
      pixel.Inner ∧ bodyHit geometry fillVisible strokeWidth (pixelCenter pixel.x pixel.y)
        (tolerance + pixelHalfDiagonal) := by
  constructor
  · rintro ⟨painted, _, ⟨inX, inY⟩, hit⟩
    rw [clampedEdge_between pixel.minimumX] at inX
    rw [clampedEdge_between pixel.minimumY] at inY
    exact ⟨⟨inX.1, inY.1⟩, hit⟩
  rintro ⟨⟨innerX, innerY⟩, hit⟩
  rcases within_paintedHitBounds boxed (add_nonneg least pixelHalfDiagonal_nonneg) hit with
    ⟨painted, isPainted, inside⟩
  refine ⟨painted, isPainted, ?_, hit⟩
  rw [clampedEdge_between pixel.minimumX, clampedEdge_between pixel.minimumY, floor_le_between,
    floor_le_between]
  unfold Within pixelCenter at inside
  dsimp only at inside
  rcases inside with ⟨⟨left, right⟩, top, bottom⟩
  refine ⟨⟨innerX, ?_, ?_⟩, innerY, ?_, ?_⟩
  all_goals linarith

/-- The pixels that a shape needs. -/
def RecordPixels (functions : Trigonometry R) (editable : List ShapeId)
    (options : EditGeometryOptions R) (record : ShapeRecord R) (x y : ℤ) : Prop :=
  record.id ∈ editable ∧ ∃ candidate, candidateOf functions record = some candidate ∧
    ((∃ location ∈ handleLocations candidate.bounds,
        Contains (handleRectangle location.2 options.handlePx) x y) ∨
      BodyPixels candidate.geometry candidate.bounds candidate.fillVisible candidate.strokeWidth
        options.hitTolerancePx x y)

theorem adds_addRecord (functions : Trigonometry R) (editable : List ShapeId)
    (options : EditGeometryOptions R) (region : RegionAccumulator) (record : ShapeRecord R) :
    Adds (RecordPixels functions editable options record) region
      (addRecord functions editable options region record) := by
  unfold addRecord
  split
  case isTrue unlisted =>
    apply Adds.nothing
    rintro x y ⟨listed, _⟩
    exact unlisted (contains_iff_mem.mpr listed)
  case isFalse listed =>
    have isListed := contains_iff_mem.mp (not_not.mp listed)
    split
    case h_1 absent =>
      apply Adds.nothing
      rintro x y ⟨_, candidate, same, _⟩
      rw [absent] at same
      cases same
    case h_2 candidate found =>
      have handles := Adds.foldl
        (fun region (location : Handle × PointF R) =>
          adds_add region (handleRectangle location.2 options.handlePx))
        (handleLocations candidate.bounds) region
      apply (handles.trans (adds_addBodyRegion _ _ _ _ _ _)).congr
      intro x y
      constructor
      · intro wanted
        exact ⟨isListed, candidate, found, wanted⟩
      rintro ⟨_, same, equal, wanted⟩
      rw [found] at equal
      cases equal
      exact wanted

/-! ## The region -/

/-- A handle of a shape is touched elsewhere than at the right or the lower edge of its square, or
the body of a shape is, at the corner of the pixel or in its middle. -/
def Touched (functions : Trigonometry R) (shapes : List (ShapeRecord R))
    (editable : List ShapeId) (options : EditGeometryOptions R) (pixel : Pixel) : Prop :=
  ∃ record ∈ shapes, record.id ∈ editable ∧
    ∃ candidate, candidateOf functions record = some candidate ∧
      ((∃ location ∈ handleLocations candidate.bounds,
          HandleSquare location.2 options.handlePx pixel) ∨
        bodyHit candidate.geometry candidate.fillVisible candidate.strokeWidth
          (wholePoint pixel.x pixel.y) options.hitTolerancePx ∨
        bodyHit candidate.geometry candidate.fillVisible candidate.strokeWidth
          (pixelCenter pixel.x pixel.y) (options.hitTolerancePx + pixelHalfDiagonal))

theorem boxed_candidateOf {functions : Trigonometry R} {record : ShapeRecord R}
    {candidate : Candidate R} (found : candidateOf functions record = some candidate) :
    Boxed candidate.geometry candidate.bounds := by
  unfold candidateOf at found
  split at found
  case h_1 => cases found
  case h_2 bounds bounded =>
    split at found
    case isTrue => cases found
    case isFalse =>
      cases found
      exact boxed_geometryBounds bounded

theorem recordPixels_iff (functions : Trigonometry R) (shapes : List (ShapeRecord R))
    (editable : List ShapeId) {options : EditGeometryOptions R}
    (least : 0 ≤ options.hitTolerancePx) (pixel : Pixel) :
    (∃ record ∈ shapes, RecordPixels functions editable options record pixel.x pixel.y) ↔
      pixel.Inner ∧ Touched functions shapes editable options pixel := by
  constructor
  · rintro ⟨record, known, listed, candidate, found, wanted⟩
    rcases wanted with ⟨location, isLocation, covered⟩ | body
    · rw [contains_handleRectangle] at covered
      exact ⟨covered.1, record, known, listed, candidate, found,
        .inl ⟨location, isLocation, covered.2⟩⟩
    · rw [bodyPixels_iff (boxed_candidateOf found) least] at body
      exact ⟨body.1, record, known, listed, candidate, found, .inr (.inr body.2)⟩
  · rintro ⟨inner, record, known, listed, candidate, found, touched⟩
    refine ⟨record, known, listed, candidate, found, ?_⟩
    rcases touched with ⟨location, isLocation, square⟩ | corner | middle
    · refine .inl ⟨location, isLocation, ?_⟩
      rw [contains_handleRectangle]
      exact ⟨inner, square⟩
    · refine .inr ?_
      rw [bodyPixels_iff (boxed_candidateOf found) least]
      exact ⟨inner, bodyHit_pixelCenter least corner⟩
    · refine .inr ?_
      rw [bodyPixels_iff (boxed_candidateOf found) least]
      exact ⟨inner, middle⟩

theorem hitTolerancePx_normalizedOptions (options : EditGeometryOptions R) :
    0 ≤ (normalizedOptions options).hitTolerancePx := by
  unfold normalizedOptions validNonnegative
  dsimp only
  split
  case isTrue nonnegative => exact nonnegative
  case isFalse => exact Nat.cast_nonneg 3

def Hits (functions : Trigonometry R) (shapes : List (ShapeRecord R)) (editable : List ShapeId)
    (options : EditGeometryOptions R) (space : CoordinateSpaceId) (pixel : Pixel) : Prop :=
  hitTest functions shapes editable { x := pixel.x, y := pixel.y, space } options ≠ none

def InRegion (functions : Trigonometry R) (shapes : List (ShapeRecord R))
    (editable : List ShapeId) (options : EditGeometryOptions R) (pixel : Pixel) : Prop :=
  ∃ rectangle ∈ editInputRegion functions shapes editable options, Covers rectangle pixel.x pixel.y

/-- The region has few rectangles.  It covers a hit that is not in the last column or row and
touches more than the right or the lower edge of a handle; unless rectangles were joined it covers
no other one. -/
theorem editInputRegion_covers (functions : Trigonometry R) (shapes : List (ShapeRecord R))
    (editable : List ShapeId) (options : EditGeometryOptions R) :
    (editInputRegion functions shapes editable options).length ≤ maxRegionRects ∧
      ∀ (space : CoordinateSpaceId) (pixel : Pixel),
        ((Hits functions shapes editable options space pixel →
            pixel.Inner ∧ Touched functions shapes editable (normalizedOptions options) pixel) →
          Hits functions shapes editable options space pixel →
            InRegion functions shapes editable options pixel) ∧
        ((editInputRegion functions shapes editable options).length < maxRegionRects →
          (Hits functions shapes editable options space pixel →
            InRegion functions shapes editable options pixel) →
          Hits functions shapes editable options space pixel →
            pixel.Inner ∧ Touched functions shapes editable (normalizedOptions options) pixel) := by
  have adds := Adds.foldl (adds_addRecord functions editable (normalizedOptions options)) shapes {}
  have capped : Capped {} :=
    { few := Nat.zero_le _
      full := fun other => absurd rfl other }
  have length := (adds.capped capped).length_take
  have least := hitTolerancePx_normalizedOptions options
  refine ⟨length.1, fun space pixel => ⟨fun enough hit => ?_, fun few covered hit => ?_⟩⟩
  · have wanted := (recordPixels_iff functions shapes editable least pixel).mpr (enough hit)
    exact adds.holds pixel.x pixel.y (.inr wanted)
  rcases adds.only (length.2 few) pixel.x pixel.y (covered hit) with impossible | wanted
  · rcases impossible with ⟨rectangle, empty, _⟩
    cases empty
  · exact (recordPixels_iff functions shapes editable least pixel).mp wanted

end

/-! ## A corner -/

instance (rectangle : Rectangle) (x y : ℤ) : Decidable (Covers rectangle x y) :=
  inferInstanceAs (Decidable ((_ ∧ _) ∧ _ ∧ _))

/-- A filled square. -/
def filledSquare : ShapeRecord ℚ where
  id := { epoch := 1, slot := 0 }
  shape :=
    { geometry := .rect { x := 0, y := 0, w := 2, h := 2 }
      fill := some { color := { r := 255, g := 255, b := 255, a := 255 } } }

theorem editInputRegion_covers_square :
    (editInputRegion Trigonometry.unused [filledSquare] [filledSquare.id]
        defaultOptions).length ≤ maxRegionRects ∧
      ∀ (space : CoordinateSpaceId) (pixel : Pixel),
        ((Hits Trigonometry.unused [filledSquare] [filledSquare.id] defaultOptions space pixel →
            pixel.Inner ∧ Touched Trigonometry.unused [filledSquare] [filledSquare.id]
              (normalizedOptions defaultOptions) pixel) →
          Hits Trigonometry.unused [filledSquare] [filledSquare.id] defaultOptions space pixel →
            InRegion Trigonometry.unused [filledSquare] [filledSquare.id] defaultOptions pixel) ∧
        ((editInputRegion Trigonometry.unused [filledSquare] [filledSquare.id]
            defaultOptions).length < maxRegionRects →
          (Hits Trigonometry.unused [filledSquare] [filledSquare.id] defaultOptions space pixel →
            InRegion Trigonometry.unused [filledSquare] [filledSquare.id] defaultOptions pixel) →
          Hits Trigonometry.unused [filledSquare] [filledSquare.id] defaultOptions space pixel →
            pixel.Inner ∧ Touched Trigonometry.unused [filledSquare] [filledSquare.id]
              (normalizedOptions defaultOptions) pixel) :=
  editInputRegion_covers Trigonometry.unused [filledSquare] [filledSquare.id] defaultOptions

/-- The lower right corner of the square about the lower right handle. -/
def squareCorner : Pixel where
  x := 6
  y := 6
  minimumX := by decide
  maximumX := by decide
  minimumY := by decide
  maximumY := by decide

/-- The corner hits the handle, and the region does not cover it. -/
theorem squareCorner_falls_through :
    Hits Trigonometry.unused [filledSquare] [filledSquare.id] defaultOptions ⟨0⟩ squareCorner ∧
      ¬InRegion Trigonometry.unused [filledSquare] [filledSquare.id] defaultOptions
        squareCorner := by
  constructor
  · unfold Hits
    decide +kernel
  have outside : ∀ rectangle ∈ editInputRegion Trigonometry.unused [filledSquare]
      [filledSquare.id] defaultOptions, ¬Covers rectangle 6 6 := by
    decide +kernel
  rintro ⟨rectangle, known, covers⟩
  exact outside rectangle known covers

end Grab.Overlay.Raster.Edit
