import Chip8.Memory.Basic
import Chip8.Picture.Pixel

/-!
# Sprites

Drawing a sprite flips pixels of the screen. A sprite row is a byte, its
leftmost pixel in the highest bit, and lies in memory like anything else; it is
read when the row's turn comes, so a sprite that lies in the picture may change
under the drawing. Every pixel wraps around the edges of the screen by itself.
-/

namespace Chip8.Memory

/-- A memory and whether a lit pixel was turned off on the way to it. -/
structure Drawn where
  memory : Memory
  collision : Bool

/-- Flip the pixel with a number. A pixel that a short screen lacks is never lit
and stays that way. -/
def flip (drawn : Drawn) (index : Nat) : Drawn :=
  let byte := drawn.memory.readScreen (index / 8)
  { memory := drawn.memory.writeScreen (index / 8) (byte ^^^ Frame.mask index)
    collision := drawn.collision || Frame.lit byte index }

/-- The number of the pixel at a position, wrapped around the edges. -/
def pixelIndex (x y : Nat) : Nat :=
  y % screenHeight * screenWidth + x % screenWidth

/-- Flip the pixels of one sprite row. -/
def drawRow (drawn : Drawn) (row : UInt8) (x y : Nat) : Drawn :=
  (List.range 8).foldl
    (fun drawn column =>
      if Frame.lit row column then flip drawn (pixelIndex (x + column) y) else drawn)
    drawn

/-- Flip the pixels of a sprite with its first row at an address. -/
def drawSprite (memory : Memory) (address x y rows : Nat) : Drawn :=
  (List.range rows).foldl
    (fun drawn row => drawRow drawn (drawn.memory.read (address + row)) x (y + row))
    ⟨memory, false⟩

end Chip8.Memory
