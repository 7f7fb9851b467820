/-!
# Pixels

A picture is packed eight pixels to a byte, row by row, the leftmost pixel of a
byte in its highest bit. Its pixels are numbered in that order. A picture may be
shorter than the screen it is meant for: pixels past its end are dark.
-/

namespace Chip8

/-- A packed picture. -/
abbrev Frame := Array UInt8

namespace Frame

/-- The byte whose only set bit is that of the pixel in a column, counted from
the left and repeating after eight columns. -/
def mask (column : Nat) : UInt8 := .ofNat (128 >>> (column % 8))

/-- The pixel in a column of a byte is lit. -/
def lit (byte : UInt8) (column : Nat) : Bool := byte &&& mask column != 0

/-- The pixel with a number is lit. -/
def pixel (frame : Frame) (index : Nat) : Bool := lit (frame[index / 8]?.getD 0) index

end Frame

end Chip8
