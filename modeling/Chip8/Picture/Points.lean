import Chip8.Picture.Pixel

/-!
# Pictures as points

A picture as a set of points of the plane. Columns count to the right from zero
and rows downwards, so that the second coordinate is zero or negative.
-/

namespace Chip8

/-- A point: its column, and the negative of its row. -/
abbrev Point := Int × Int

/-- The measures of a picture, in pixels. -/
structure Extent where
  width : Nat
  height : Nat
deriving DecidableEq, Repr

namespace Extent

/-- The least and the greatest first coordinate. -/
def xBounds (extent : Extent) : Int × Int := (0, extent.width - 1)

/-- The least and the greatest second coordinate. -/
def yBounds (extent : Extent) : Int × Int := (1 - extent.height, 0)

/-- The point of the pixel with a number. -/
def point (extent : Extent) (index : Nat) : Point :=
  ((index % extent.width : Nat), -(index / extent.width : Nat))

/-- The numbers of all pixels. -/
def indices (extent : Extent) : List Nat := List.range (extent.width * extent.height)

/-- The points of the lit pixels, row by row. -/
def litPoints (extent : Extent) (frame : Frame) : List Point :=
  (extent.indices.filter frame.pixel).map extent.point

/-- The points of the dark pixels, row by row. -/
def unlitPoints (extent : Extent) (frame : Frame) : List Point :=
  (extent.indices.filter fun index => !frame.pixel index).map extent.point

end Extent

end Chip8
