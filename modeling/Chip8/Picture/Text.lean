import Chip8.Picture.Pixel

/-!
# Pictures as text

A picture in characters, a line for each row.
-/

namespace Chip8.Frame

/-- The character for a pixel. -/
def mark (lit : Bool) : Char := if lit then '#' else '.'

/-- One row of a picture with lines of the given width. -/
def textRow (frame : Frame) (width row : Nat) : List Char :=
  (List.range width).map (fun column => mark (frame.pixel (row * width + column))) ++ ['\n']

/-- The rows of a picture from the top, each ended by a line break. -/
def text (frame : Frame) (width height : Nat) : String :=
  .ofList ((List.range height).flatMap (frame.textRow width))

end Chip8.Frame
