import Grab.Lib.Binary

/-!
# Coordinate spaces

Points and rectangles tagged with the space they are measured in.  The space id
zero is the default of a document, which never spells it.
-/

namespace Grab

open Grab.Lib

structure CoordinateSpaceId where
  value : UInt32
  deriving DecidableEq, Repr

structure SpacePoint where
  x : Double
  y : Double
  space : CoordinateSpaceId := ⟨0⟩
  deriving DecidableEq

structure SpaceRect where
  x : Double
  y : Double
  w : Double
  h : Double
  space : CoordinateSpaceId := ⟨0⟩
  deriving DecidableEq

end Grab
