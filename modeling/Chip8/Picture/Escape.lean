import Chip8.Picture.Panel

/-!
# Panels as terminal output

The control sequences that make a terminal show a grid of cells: the cursor goes
to the upper left corner, every cell names its colours and prints its symbol,
and the colours are given back at the end.
-/

namespace Chip8

/-- The digit that a colour adds to the codes for foreground and background. -/
def Color.digit : Color → String
  | standard => "9"
  | black => "0"
  | green => "2"

/-- A cell's colours and its symbol. -/
def Cell.output (cell : Cell) : String :=
  "\x1b[3" ++ cell.foreground.digit ++ ";4" ++ cell.background.digit ++ "m" ++
    .singleton cell.symbol

/-- All cells, row by row. -/
def Grid.output {columns rows : Nat} (grid : Grid columns rows) : String :=
  let line (row : Nat) :=
    String.join ((List.range columns).map fun column => (grid.get column row).output)
  "\x1b[H" ++ "\x1b[0m\r\n".intercalate ((List.range rows).map line) ++ "\x1b[0m\r\n"

end Chip8
