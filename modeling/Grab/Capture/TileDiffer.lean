import Grab.Codec.Png
import Grab.Lib.Sweep

/-!
# The tile differ

`kernel/capture/tile_differ.cpp`: two images of one size are compared tile by tile.  A size of 32
or 64 bits is a natural number whose operations are at fault where the source would wrap, and
`subspan` is at fault outside the storage of an image.
-/

namespace Grab.Capture

open Grab.Lib Grab.Lib.Checked Grab.Codec

structure Size where
  width : UInt32 := 0
  height : UInt32 := 0
  deriving DecidableEq, Repr

structure Rectangle where
  x : Int := 0
  y : Int := 0
  width : Nat := 0
  height : Nat := 0
  deriving DecidableEq, Repr

def Rectangle.contains (rectangle : Rectangle) (x y : Int) : Prop :=
  rectangle.x ≤ x ∧ x < rectangle.x + rectangle.width ∧
    rectangle.y ≤ y ∧ y < rectangle.y + rectangle.height

inductive TileDiffKind where
  | noChange | dirtyTiles | fullInvalidation
  deriving DecidableEq, Repr

structure TileDiffResult where
  kind : TileDiffKind := .noChange
  dirtyTiles : List Rectangle := []
  reason : String := ""
  deriving DecidableEq, Repr

abbrev Computed := Checked Empty

def maxUint32 : Nat := 4294967295

def maximumCoordinate : Nat := 2147483647

def addUint32 (left right : Nat) : Computed Nat :=
  if left + right ≤ maxUint32 then .ok (left + right) else faulty .wrapped

/-- `static_cast< std::int32_t >` of an unsigned value. -/
def toInt32 (value : Nat) : Int :=
  if value ≤ maximumCoordinate then value else (value : Int) - 4294967296

def fullInvalidation (reason : String) : TileDiffResult where
  kind := .fullInvalidation
  reason := reason

def hasValidLayout (image : Image) : Computed Bool := do
  let rowBytes ← mulSize image.width.toNat (bytesPerPixel image.format)
  if image.stride.toNat < rowBytes then .ok false
  else if image.height.toNat = 0 then .ok true
  else
    let lastRow := image.height.toNat - 1
    let stride := image.stride.toNat
    let remaining ← subSize maxSize rowBytes
    if stride ≠ 0 ∧ remaining / stride < lastRow then .ok false
    else
      let skipped ← mulSize lastRow stride
      let needed ← addSize skipped rowBytes
      .ok (decide (needed ≤ image.pixels.length))

/-- The bytes of one row of a tile. -/
def rowSlice (image : Image) (row byteX byteWidth : Nat) : Computed (List UInt8) := do
  let skipped ← mulSize row image.stride.toNat
  let offset ← addSize skipped byteX
  subspan image.pixels offset byteWidth

def tileRow (previous current : Image) (y byteX byteWidth height row : Nat) :
    Computed (Nat ⊕ Bool) :=
  if height ≤ row then .ok (.inr false)
  else do
    let position ← addUint32 y row
    let previousRow ← rowSlice previous position byteX byteWidth
    let currentRow ← rowSlice current position byteX byteWidth
    if previousRow ≠ currentRow then .ok (.inr true)
    else .ok (.inl (row + 1))

def tileChanged (previous current : Image) (x y width height : Nat) : Computed Bool := do
  let byteX ← mulSize x (bytesPerPixel current.format)
  let byteWidth ← mulSize width (bytesPerPixel current.format)
  loop (tileRow previous current y byteX byteWidth height) (height + 1) 0

/-- One tile of a row of tiles. -/
def diffColumn (previous current : Image) (tileWidth y height : Nat)
    (state : Nat × List Rectangle) : Computed ((Nat × List Rectangle) ⊕ List Rectangle) :=
  let (x, dirtyTiles) := state
  if current.width.toNat ≤ x then .ok (.inr dirtyTiles)
  else do
    let left ← subSize current.width.toNat x
    let width := min tileWidth left
    let changed ← tileChanged previous current x y width height
    let next ← addUint32 x width
    if changed then
      .ok (.inl (next, dirtyTiles ++ [{ x := toInt32 x, y := toInt32 y, width, height }]))
    else .ok (.inl (next, dirtyTiles))

/-- One row of tiles. -/
def diffRow (previous current : Image) (tileSize : Size) (state : Nat × List Rectangle) :
    Computed ((Nat × List Rectangle) ⊕ List Rectangle) :=
  let (y, dirtyTiles) := state
  if current.height.toNat ≤ y then .ok (.inr dirtyTiles)
  else do
    let left ← subSize current.height.toNat y
    let height := min tileSize.height.toNat left
    let dirtyTiles ← loop (diffColumn previous current tileSize.width.toNat y height)
      (current.width.toNat + 1) (0, dirtyTiles)
    let next ← addUint32 y height
    .ok (.inl (next, dirtyTiles))

/-- The loops of `diff` and the kind of their result. -/
def diffTiles (previous current : Image) (tileSize : Size) : Computed TileDiffResult := do
  let dirtyTiles ← loop (diffRow previous current tileSize) (current.height.toNat + 1) (0, [])
  if dirtyTiles = [] then .ok { dirtyTiles }
  else .ok { kind := .dirtyTiles, dirtyTiles }

/-- `has_valid_layout` of one image and then of the other. -/
def haveValidLayouts (previous current : Image) : Computed Bool := do
  let previousValid ← hasValidLayout previous
  if previousValid then hasValidLayout current else .ok false

def diff (previous current : Image) (tileSize : Size) : Computed TileDiffResult :=
  if previous.width ≠ current.width ∨ previous.height ≠ current.height ∨
      previous.format ≠ current.format then
    .ok (fullInvalidation "image geometry or pixel format changed")
  else if tileSize.width = 0 ∨ tileSize.height = 0 then
    .ok (fullInvalidation "tile dimensions must be non-zero")
  else if maximumCoordinate < current.width.toNat ∨ maximumCoordinate < current.height.toNat then
    .ok (fullInvalidation "image dimensions exceed rectangle coordinates")
  else do
    let valid ← haveValidLayouts previous current
    if valid then diffTiles previous current tileSize
    else .ok (fullInvalidation "image storage does not contain its active pixels")

end Grab.Capture
