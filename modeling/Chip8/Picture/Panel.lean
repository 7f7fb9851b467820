import Chip8.Picture.Points

/-!
# The panel

A picture on a character terminal: a titled box, and inside it a half block for
every pixel, green where it is lit and black where it is dark. Each drawing
starts from an empty terminal, so nothing of an earlier picture remains.

A picture of a single row or column has no extent to be scaled to the box and is
not painted at all.
-/

namespace Chip8

/-- The colours in use; `standard` is whatever the terminal has by itself. -/
inductive Color where
  | standard
  | black
  | green
deriving DecidableEq, Repr

/-- What a terminal shows at one position. -/
structure Cell where
  symbol : Char
  foreground : Color
  background : Color
deriving DecidableEq, Repr

namespace Cell

/-- A position nothing was drawn at. -/
def empty : Cell := ⟨' ', .standard, .standard⟩

/-- A position of the box or within it, on black. -/
def onBlack (symbol : Char) : Cell := ⟨symbol, .standard, .black⟩

/-- A pixel. -/
def dot (color : Color) : Cell := ⟨'▄', color, .standard⟩

end Cell

/-- The cells of a terminal, row by row. -/
structure Grid (columns rows : Nat) where
  cells : Vector Cell (columns * rows)
deriving DecidableEq

namespace Grid

variable {columns rows : Nat}

/-- The grid with the cells a function gives for column and row. -/
def ofFn (columns rows : Nat) (cell : Nat → Nat → Cell) : Grid columns rows :=
  ⟨.ofFn fun index => cell (index.val % columns) (index.val / columns)⟩

/-- The cell in a column and a row; an empty one outside. -/
def get (grid : Grid columns rows) (column row : Nat) : Cell :=
  if column < columns then grid.cells[row * columns + column]?.getD .empty else .empty

/-- Set the cell in a column and a row; nothing happens outside. -/
def set (grid : Grid columns rows) (column row : Nat) (cell : Cell) : Grid columns rows :=
  if column < columns then ⟨grid.cells.setIfInBounds (row * columns + column) cell⟩ else grid

end Grid

namespace Panel

/-- The title in the box's upper edge. -/
def title : List Char := "chip8vm".toList

/-- The box's symbol in a column and a row; a space within it. -/
def boxSymbol (extent : Extent) (column row : Nat) : Char :=
  let right := extent.width + 1
  let bottom := extent.height + 1
  if row = 0 then
    if column = 0 then '┌'
    else if column = right then '┐'
    else title[column - 1]?.getD '─'
  else if row = bottom then
    if column = 0 then '└' else if column = right then '┘' else '─'
  else if column = 0 ∨ column = right then '│'
  else ' '

/-- The box in the upper left corner of an empty terminal. -/
def box (extent : Extent) (columns rows : Nat) : Grid columns rows :=
  .ofFn columns rows fun column row =>
    if column < extent.width + 2 ∧ row < extent.height + 2 then
      .onBlack (boxSymbol extent column row)
    else .empty

/-- Paint points into the box. -/
def paint {columns rows : Nat} (color : Color) (points : List Point)
    (grid : Grid columns rows) : Grid columns rows :=
  points.foldl
    (fun grid point => grid.set (point.1.toNat + 1) ((-point.2).toNat + 1) (.dot color))
    grid

/-- The whole terminal with a picture on it. -/
def draw (extent : Extent) (columns rows : Nat) (frame : Frame) : Grid columns rows :=
  let empty := box extent columns rows
  if extent.width ≤ 1 ∨ extent.height ≤ 1 then empty
  else paint .green (extent.litPoints frame) (paint .black (extent.unlitPoints frame) empty)

end Panel

end Chip8
