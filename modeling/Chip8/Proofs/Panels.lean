import Chip8.Picture.Panel
import Chip8.Proofs.Readings

/-!
# Pictures on a terminal

A picture is shown on a terminal by painting its points on a canvas within a box. How a
drawing library does this is not said here. `Widgets` are known by four laws: a rectangle that
fits the terminal is as it is asked for, a box leaves what is within its edges, it is drawn in
the cells of its rectangle, and the points of a picture are painted on their own cells of a
canvas that has as many cells as the picture has pixels and whose bounds are the least and
greatest coordinates. A `TerminalScreen` shows what was drawn on an empty grid. From no more
than that the cells of the box show the pixels of the picture drawn last, and all other cells
are the same with every picture.

The sizes of a terminal and of a rectangle are 16-bit numbers, and those of a picture are cut
down to them. A picture whose box fits the terminal is small enough to lose nothing by that.
-/

namespace Chip8

/-! ## Grids -/

namespace Grid

variable {columns rows : Nat}

/-- A terminal that nothing was drawn on. -/
def blank (columns rows : Nat) : Grid columns rows := .ofFn columns rows fun _ _ => .empty

/-- A cell of a row and a column has a number within the grid. -/
theorem cell_lt (column row : Nat) (across : column < columns) (down : row < rows) :
    row * columns + column < columns * rows :=
  List.mem_range.mp ((Extent.mk columns rows).mem_indices row column across down)

/-- A cell's number tells its column and its row. -/
theorem place_of_cell (column row : Nat) (across : column < columns) :
    (row * columns + column) % columns = column ∧ (row * columns + column) / columns = row := by
  have positive : 0 < columns := Nat.zero_lt_of_lt across
  constructor
  · rw [Nat.add_comm, Nat.add_mul_mod_self_right, Nat.mod_eq_of_lt across]
  · rw [Nat.add_comm, Nat.add_mul_div_right _ _ positive, Nat.div_eq_of_lt across, Nat.zero_add]

/-- The cell in a column is found by its number. -/
theorem get_of_lt (grid : Grid columns rows) (column row : Nat) (across : column < columns) :
    grid.get column row = grid.cells[row * columns + column]?.getD .empty :=
  if_pos across

/-- The cells of a grid are those it was made of. -/
theorem get_ofFn (cell : Nat → Nat → Cell) (column row : Nat) (across : column < columns)
    (down : row < rows) : (ofFn columns rows cell).get column row = cell column row := by
  obtain ⟨remainder, quotient⟩ := place_of_cell column row across
  rw [get_of_lt _ _ _ across, ofFn, Vector.getElem?_eq_getElem (cell_lt column row across down),
    Option.getD_some, Vector.getElem_ofFn, remainder, quotient]

/-- Outside of a grid all is empty. -/
theorem get_outside (grid : Grid columns rows) (column row : Nat)
    (outside : columns ≤ column ∨ rows ≤ row) : grid.get column row = .empty := by
  by_cases across : column < columns
  · have below : rows ≤ row := outside.resolve_left (Nat.not_le_of_lt across)
    have lines : rows * columns ≤ row * columns := Nat.mul_le_mul_right columns below
    rw [Nat.mul_comm rows] at lines
    rw [get_of_lt _ _ _ across, Vector.getElem?_eq_none (Nat.le_add_right_of_le lines),
      Option.getD_none]
  · exact if_neg across

/-- A cell that is set is what it was set to. -/
theorem get_set_same (grid : Grid columns rows) (column row : Nat) (cell : Cell)
    (across : column < columns) (down : row < rows) :
    (grid.set column row cell).get column row = cell := by
  rw [get_of_lt _ _ _ across, set, if_pos across,
    Vector.getElem?_setIfInBounds_self_of_lt (cell_lt column row across down), Option.getD_some]

/-- All other cells stay. -/
theorem get_set_other (grid : Grid columns rows) (column row other line : Nat) (cell : Cell)
    (apart : ¬ (other = column ∧ line = row)) :
    (grid.set column row cell).get other line = grid.get other line := by
  rw [set]
  by_cases across : column < columns
  · rw [if_pos across]
    by_cases beside : other < columns
    · have different : row * columns + column ≠ line * columns + other := by
        intro same
        obtain ⟨remainder, quotient⟩ := place_of_cell column row across
        obtain ⟨otherRemainder, otherQuotient⟩ := place_of_cell other line beside
        rw [same] at remainder quotient
        exact apart ⟨otherRemainder.symm.trans remainder, otherQuotient.symm.trans quotient⟩
      rw [get_of_lt _ _ _ beside, get_of_lt _ _ _ beside,
        Vector.getElem?_setIfInBounds_ne different]
    · rw [get, get, if_neg beside, if_neg beside]
  · rw [if_neg across]

/-- Grids with the same cells are the same. -/
theorem ext_get (grid other : Grid columns rows)
    (same : ∀ column < columns, ∀ row < rows, grid.get column row = other.get column row) :
    grid = other := by
  obtain ⟨cells⟩ := grid
  obtain ⟨otherCells⟩ := other
  congr 1
  apply Vector.ext
  intro index inside
  obtain ⟨across, down⟩ := (Extent.mk columns rows).place_of_mem_indices index
    (List.mem_range.mpr inside)
  have number := (Extent.mk columns rows).index_eq index
  have cellsSame := same _ across _ down
  rw [get_of_lt _ _ _ across, get_of_lt _ _ _ across, number, Vector.getElem?_eq_getElem inside,
    Vector.getElem?_eq_getElem inside] at cellsSame
  exact cellsSame

end Grid

/-! ## Drawing libraries -/

/-- A rectangle of cells: its upper left corner and its size. -/
structure Rect where
  x : UInt16
  y : UInt16
  width : UInt16
  height : UInt16

namespace Rect

/-- A rectangle has a cell in a column and a row. -/
def Has (area : Rect) (column row : Nat) : Prop :=
  (area.x.toNat ≤ column ∧ column < area.x.toNat + area.width.toNat) ∧
    area.y.toNat ≤ row ∧ row < area.y.toNat + area.height.toNat

instance (area : Rect) (column row : Nat) : Decidable (area.Has column row) :=
  inferInstanceAs (Decidable (_ ∧ _))

/-- A rectangle lies on a terminal of some size. -/
structure Fits (area : Rect) (columns rows : UInt16) : Prop where
  across : area.x.toNat + area.width.toNat ≤ columns.toNat
  down : area.y.toNat + area.height.toNat ≤ rows.toNat

end Rect

/-- What a drawing library does on a terminal of some size: how it makes a rectangle, what
the edges of a box leave of it, how the titled box is drawn on a grid, and how a point is painted
on a canvas with some bounds of the coordinates. The size of a terminal is a rectangle's size
too, so one that fits the terminal is not cut down. -/
structure Widgets (columns rows : UInt16) where
  rect (x y width height : UInt16) : Rect
  inner (area : Rect) : Rect
  enclose (area : Rect) (grid : Grid columns.toNat rows.toNat) : Grid columns.toNat rows.toNat
  paint (area : Rect) (xBounds yBounds : Int × Int) (color : Color) (point : Point)
    (grid : Grid columns.toNat rows.toNat) : Grid columns.toNat rows.toNat
  rect_eq (area : Rect) (fits : area.Fits columns rows) :
    rect area.x area.y area.width area.height = area
  inner_eq (area : Rect) (fits : area.Fits columns rows) (wide : 2 ≤ area.width.toNat)
    (high : 2 ≤ area.height.toNat) :
    inner area = ⟨area.x + 1, area.y + 1, area.width - 2, area.height - 2⟩
  get_enclose (area : Rect) (fits : area.Fits columns rows) (wide : 2 ≤ area.width.toNat)
    (high : 2 ≤ area.height.toNat) (column row : Nat) :
    (enclose area (.blank columns.toNat rows.toNat)).get column row =
      if area.Has column row then
        .onBlack (Panel.boxSymbol ⟨area.width.toNat - 2, area.height.toNat - 2⟩
          (column - area.x.toNat) (row - area.y.toNat))
      else .empty
  paint_eq (area : Rect) (fits : area.Fits columns rows) (wide : 2 ≤ area.width.toNat)
    (high : 2 ≤ area.height.toNat) (color : Color)
    (grid : Grid columns.toNat rows.toNat) (column row : Nat)
    (across : column < area.width.toNat) (down : row < area.height.toNat) :
    paint area (0, (area.width.toNat : Int) - 1) (-((area.height.toNat : Int) - 1), 0) color
      ((column : Int), -(row : Int)) grid =
      grid.set (area.x.toNat + column) (area.y.toNat + row) (.dot color)

/-- A terminal of some size in its states. A drawing starts from an empty grid, and the terminal
then shows what was drawn. -/
structure TerminalScreen (τ : Type) (columns rows : UInt16) where
  shown : τ → Grid columns.toNat rows.toNat
  draw : τ → (Grid columns.toNat rows.toNat → Grid columns.toNat rows.toNat) → τ
  shown_draw (state : τ) (drawing : Grid columns.toNat rows.toNat → Grid columns.toNat rows.toNat) :
    shown (draw state drawing) = drawing (.blank columns.toNat rows.toNat)

namespace Panel

section

variable {columns rows : UInt16}

/-- The rectangle of a panel: in the upper left corner, with a cell for each pixel and those of
the box. -/
def area (widgets : Widgets columns rows) (extent : Extent) : Rect :=
  widgets.rect 0 0 (.ofNat extent.width + 2) (.ofNat extent.height + 2)

/-- Paint points within the box one after the other. -/
def paintOn (widgets : Widgets columns rows) (extent : Extent) (color : Color)
    (points : List Point) (grid : Grid columns.toNat rows.toNat) :
    Grid columns.toNat rows.toNat :=
  points.foldl (fun grid point =>
    widgets.paint (widgets.inner (area widgets extent)) extent.xBounds extent.yBounds color point
      grid) grid

/-- Draw a picture in its box on a grid, the dark pixels first. -/
def drawOn (widgets : Widgets columns rows) (extent : Extent) (frame : Frame)
    (grid : Grid columns.toNat rows.toNat) : Grid columns.toNat rows.toNat :=
  paintOn widgets extent .green (extent.litPoints frame)
    (paintOn widgets extent .black (extent.unlitPoints frame)
      (widgets.enclose (area widgets extent) grid))

/-- Show pictures on a terminal one after the other. -/
def presentAll {τ : Type} (widgets : Widgets columns rows)
    (terminal : TerminalScreen τ columns rows) (extent : Extent) (state : τ)
    (frames : List Frame) : τ :=
  frames.foldl (fun state frame => terminal.draw state (drawOn widgets extent frame)) state

/-! ## One picture -/

/-- The rectangle that is asked for. -/
def outline (extent : Extent) : Rect :=
  ⟨0, 0, .ofNat extent.width + 2, .ofNat extent.height + 2⟩

/-- What the box leaves of it. -/
def canvas (extent : Extent) : Rect :=
  ⟨1, 1, .ofNat extent.width, .ofNat extent.height⟩

/-- A size that fits a terminal together with the box is a 16-bit number. -/
theorem size_lt (size : Nat) (limit : UInt16) (fits : size + 2 ≤ limit.toNat) :
    size + 2 < UInt16.size :=
  Nat.lt_of_le_of_lt fits limit.toNat_lt

/-- Then it is not cut down. -/
theorem toNat_inner (size : Nat) (limit : UInt16) (fits : size + 2 ≤ limit.toNat) :
    (UInt16.ofNat size).toNat = size :=
  UInt16.toNat_ofNat_of_lt' (Nat.lt_of_add_right_lt (size_lt size limit fits))

/-- Nor is it with the box. -/
theorem toNat_outer (size : Nat) (limit : UInt16) (fits : size + 2 ≤ limit.toNat) :
    (UInt16.ofNat size + 2).toNat = size + 2 := by
  rw [UInt16.toNat_add, toNat_inner size limit fits]
  exact Nat.mod_eq_of_lt (size_lt size limit fits)

section

variable (widgets : Widgets columns rows) (extent : Extent)
  (across : extent.width + 2 ≤ columns.toNat) (down : extent.height + 2 ≤ rows.toNat)

include across down

/-- The outline of a panel has the size of the picture and the box. -/
theorem outline_size : (outline extent).width.toNat = extent.width + 2 ∧
    (outline extent).height.toNat = extent.height + 2 :=
  ⟨toNat_outer _ _ across, toNat_outer _ _ down⟩

/-- The canvas within it has that of the picture. -/
theorem canvas_size : (canvas extent).width.toNat = extent.width ∧
    (canvas extent).height.toNat = extent.height :=
  ⟨toNat_inner _ _ across, toNat_inner _ _ down⟩

/-- The outline lies on a terminal that has room for it. -/
theorem outline_fits : (outline extent).Fits columns rows := by
  obtain ⟨width, height⟩ := outline_size extent across down
  constructor
  · rw [width, outline, UInt16.toNat_zero, Nat.zero_add]
    exact across
  · rw [height, outline, UInt16.toNat_zero, Nat.zero_add]
    exact down

/-- So does the canvas. -/
theorem canvas_fits : (canvas extent).Fits columns rows := by
  obtain ⟨width, height⟩ := canvas_size extent across down
  constructor
  · rw [width, canvas, UInt16.toNat_one, Nat.add_comm]
    exact Nat.le_of_succ_le across
  · rw [height, canvas, UInt16.toNat_one, Nat.add_comm]
    exact Nat.le_of_succ_le down

/-- The rectangle is as it is asked for. -/
theorem area_eq : area widgets extent = outline extent :=
  widgets.rect_eq (outline extent) (outline_fits extent across down)

/-- The box leaves the canvas. -/
theorem inner_area : widgets.inner (area widgets extent) = canvas extent := by
  obtain ⟨width, height⟩ := outline_size extent across down
  rw [area_eq widgets extent across down,
    widgets.inner_eq _ (outline_fits extent across down) (by omega) (by omega)]
  simp only [outline, canvas, UInt16.add_sub_cancel, UInt16.zero_add]

/-- The outline has the cells in the upper left corner. -/
theorem outline_has_iff (column row : Nat) : (outline extent).Has column row ↔
    column < extent.width + 2 ∧ row < extent.height + 2 := by
  obtain ⟨width, height⟩ := outline_size extent across down
  have corner : (outline extent).x.toNat = 0 ∧ (outline extent).y.toNat = 0 := ⟨rfl, rfl⟩
  rw [Rect.Has, width, height, corner.1, corner.2]
  omega

/-- The box on a blank grid has nothing around it. -/
theorem enclose_blank :
    widgets.enclose (area widgets extent) (.blank columns.toNat rows.toNat) =
      box extent columns.toNat rows.toNat := by
  obtain ⟨width, height⟩ := outline_size extent across down
  apply Grid.ext_get
  intro column left row above
  rw [area_eq widgets extent across down,
    widgets.get_enclose _ (outline_fits extent across down) (by omega) (by omega), box,
    Grid.get_ofFn _ _ _ left above, width, height]
  simp only [outline_has_iff extent across down]
  rfl

/-- A point of a picture is painted on its own cell. -/
theorem paint_point (wide : 2 ≤ extent.width) (high : 2 ≤ extent.height) (color : Color)
    (grid : Grid columns.toNat rows.toNat) (column row : Nat)
    (inRow : column < extent.width) (inPicture : row < extent.height) :
    widgets.paint (canvas extent) extent.xBounds extent.yBounds color
      ((column : Int), -(row : Int)) grid = grid.set (column + 1) (row + 1) (.dot color) := by
  obtain ⟨width, height⟩ := canvas_size extent across down
  have painted := widgets.paint_eq (canvas extent) (canvas_fits extent across down)
    (by omega) (by omega) color grid column row (by omega) (by omega)
  rw [width, height, Int.neg_sub] at painted
  rw [Extent.xBounds, Extent.yBounds, Nat.add_comm column, Nat.add_comm row]
  exact painted

/-- So are all its points. -/
theorem paintOn_eq (wide : 2 ≤ extent.width) (high : 2 ≤ extent.height) (color : Color)
    (points : List Point) (grid : Grid columns.toNat rows.toNat)
    (inPicture : ∀ point ∈ points, ∃ column < extent.width, ∃ row < extent.height,
      point = ((column : Int), -(row : Int))) :
    paintOn widgets extent color points grid = paint color points grid := by
  induction points generalizing grid with
  | nil => rfl
  | cons point rest inductionHypothesis =>
    obtain ⟨⟨column, inRow, row, inColumn, rfl⟩, later⟩ := List.forall_mem_cons.mp inPicture
    have first := paint_point widgets extent across down wide high color grid column row inRow
      inColumn
    rw [paintOn, List.foldl_cons, inner_area widgets extent across down, first, paint,
      List.foldl_cons, Int.neg_neg, ← inner_area widgets extent across down]
    exact inductionHypothesis _ later

/-- Drawing a picture on a blank grid gives the panel with the picture. -/
theorem drawOn_blank (wide : 2 ≤ extent.width) (high : 2 ≤ extent.height) (frame : Frame) :
    drawOn widgets extent frame (.blank columns.toNat rows.toNat) =
      draw extent columns.toNat rows.toNat frame := by
  have notSmall : ¬ (extent.width ≤ 1 ∨ extent.height ≤ 1) := by omega
  have inPicture (point : Point)
      (member : point ∈ extent.litPoints frame ++ extent.unlitPoints frame) :=
    (extent.mem_append_iff frame point).mp member
  rw [drawOn, enclose_blank widgets extent across down, draw, if_neg notSmall,
    paintOn_eq widgets extent across down wide high .black _ _
      (fun point member => inPicture point (List.mem_append_right _ member)),
    paintOn_eq widgets extent across down wide high .green _ _
      (fun point member => inPicture point (List.mem_append_left _ member))]

end

end

section

variable {columns rows : Nat}

/-! ## The cells of a panel -/

/-- A point is painted on the cell in a column and a row. -/
def FallsOn (point : Point) (column row : Nat) : Prop :=
  column = point.1.toNat + 1 ∧ row = (-point.2).toNat + 1

/-- The point of a pixel is painted on the pixel's cell, one further right and down than in
the picture because of the box. -/
theorem fallsOn_iff (column row other line : Nat) :
    FallsOn ((column : Int), -(row : Int)) other line ↔ other = column + 1 ∧ line = row + 1 := by
  rw [FallsOn, Int.neg_neg, Int.toNat_natCast, Int.toNat_natCast]

/-- A cell that no point is painted on stays as it is. -/
theorem get_paint_of_not_fallsOn (color : Color) (points : List Point)
    (grid : Grid columns rows) (column row : Nat)
    (apart : ∀ point ∈ points, ¬ FallsOn point column row) :
    (paint color points grid).get column row = grid.get column row := by
  induction points generalizing grid with
  | nil => rfl
  | cons point rest inductionHypothesis =>
    obtain ⟨here, later⟩ := List.forall_mem_cons.mp apart
    rw [paint, List.foldl_cons]
    exact (inductionHypothesis _ later).trans (grid.get_set_other _ _ _ _ _ here)

/-- A cell that points are painted on shows their colour, and keeps it while others are
painted in this colour. -/
theorem get_paint_of_fallsOn (color : Color) (points : List Point) (grid : Grid columns rows)
    (column row : Nat) (across : column < columns) (down : row < rows)
    (shows : grid.get column row = .dot color ∨ ∃ point ∈ points, FallsOn point column row) :
    (paint color points grid).get column row = .dot color := by
  -- A cell that has its colour is not painted in another one, so either of the two ways in
  -- which it shows the colour in the end is kept by each further point.
  induction points generalizing grid with
  | nil => exact shows.resolve_right (by simp)
  | cons point rest inductionHypothesis =>
    rw [paint, List.foldl_cons]
    apply inductionHypothesis
    by_cases here : FallsOn point column row
    · left
      obtain ⟨rfl, rfl⟩ := here
      exact grid.get_set_same _ _ _ across down
    · rw [grid.get_set_other _ _ _ _ _ here]
      refine shows.imp_right fun later => ?_
      obtain ⟨other, member, falls⟩ := later
      rcases List.mem_cons.mp member with rfl | among
      · exact absurd falls here
      · exact ⟨other, among, falls⟩

/-- A cell belongs to a pixel of the picture. -/
def Inside (extent : Extent) (column row : Nat) : Prop :=
  (1 ≤ column ∧ column ≤ extent.width) ∧ 1 ≤ row ∧ row ≤ extent.height

/-- The points of a picture are painted within the box. -/
theorem inside_of_fallsOn (extent : Extent) (frame : Frame) (point : Point) (column row : Nat)
    (member : point ∈ extent.litPoints frame ++ extent.unlitPoints frame)
    (falls : FallsOn point column row) : Inside extent column row := by
  obtain ⟨own, across, line, down, rfl⟩ := (extent.mem_append_iff frame point).mp member
  obtain ⟨rfl, rfl⟩ := (fallsOn_iff own line column row).mp falls
  exact ⟨⟨Nat.succ_pos own, across⟩, Nat.succ_pos line, down⟩

/-- A panel is its box where no pixel is. -/
theorem get_draw_outside (extent : Extent) (frame : Frame) (column row : Nat)
    (outside : ¬ Inside extent column row) :
    (draw extent columns rows frame).get column row = (box extent columns rows).get column row := by
  have apart (point : Point)
      (member : point ∈ extent.litPoints frame ++ extent.unlitPoints frame) :
      ¬ FallsOn point column row :=
    fun falls => outside (inside_of_fallsOn extent frame point column row member falls)
  rw [draw]
  split
  · rfl
  · rw [get_paint_of_not_fallsOn _ _ _ _ _
        (fun point member => apart point (List.mem_append_left _ member)),
      get_paint_of_not_fallsOn _ _ _ _ _
        (fun point member => apart point (List.mem_append_right _ member))]

/-- The box, and nothing around it. -/
theorem get_box (extent : Extent) (across : extent.width + 2 ≤ columns)
    (down : extent.height + 2 ≤ rows) (column row : Nat) :
    (box extent columns rows).get column row =
      if column < extent.width + 2 ∧ row < extent.height + 2 then
        .onBlack (boxSymbol extent column row)
      else .empty := by
  by_cases onTerminal : column < columns ∧ row < rows
  · rw [box, Grid.get_ofFn _ _ _ onTerminal.1 onTerminal.2]
  · rw [Grid.get_outside _ _ _ (by omega), if_neg (by omega)]

/-- Within the box a panel shows the pixels: green where they are lit, and else black. -/
theorem get_draw_inside (extent : Extent) (wide : 2 ≤ extent.width) (high : 2 ≤ extent.height)
    (frame : Frame) (across : extent.width + 2 ≤ columns) (down : extent.height + 2 ≤ rows)
    (column row : Nat) (inRow : column < extent.width) (inPicture : row < extent.height) :
    (draw extent columns rows frame).get (column + 1) (row + 1) =
      .dot (if extent.character frame row column = some '#' then .green else .black) := by
  have notSmall : ¬ (extent.width ≤ 1 ∨ extent.height ≤ 1) := by omega
  have own : FallsOn ((column : Int), -(row : Int)) (column + 1) (row + 1) :=
    (fallsOn_iff column row _ _).mpr ⟨rfl, rfl⟩
  have marked := extent.mem_litPoints_iff_character frame row column inRow inPicture
  rw [draw, if_neg notSmall]
  by_cases lit : ((column : Int), -(row : Int)) ∈ extent.litPoints frame
  · rw [if_pos (marked.mp lit)]
    exact get_paint_of_fallsOn _ _ _ _ _ (by omega) (by omega) (.inr ⟨_, lit, own⟩)
  · -- The cell was painted black before, and no lit point is painted over it.
    rw [if_neg (fun mark => lit (marked.mpr mark))]
    have member : ((column : Int), -(row : Int)) ∈
        extent.litPoints frame ++ extent.unlitPoints frame :=
      (extent.mem_append_iff frame _).mpr ⟨column, inRow, row, inPicture, rfl⟩
    have dark := (List.mem_append.mp member).resolve_left lit
    have apart : ∀ point ∈ extent.litPoints frame, ¬ FallsOn point (column + 1) (row + 1) := by
      intro point among falls
      obtain ⟨other, _, line, _, rfl⟩ :=
        (extent.mem_append_iff frame point).mp (List.mem_append_left _ among)
      obtain ⟨sameColumn, sameRow⟩ := (fallsOn_iff other line _ _).mp falls
      obtain rfl := Nat.succ.inj sameColumn
      obtain rfl := Nat.succ.inj sameRow
      exact lit among
    rw [get_paint_of_not_fallsOn _ _ _ _ _ apart]
    exact get_paint_of_fallsOn _ _ _ _ _ (by omega) (by omega) (.inr ⟨_, dark, own⟩)

end

end Panel

/-! ## Widgets and a terminal -/

/-- The cell of a point on a canvas that is divided evenly: the distances from the upper left
corner, as parts of those that the bounds leave. There is none for a point that lies outside
of the bounds, or if these leave no distance. -/
def Rect.cell? (area : Rect) (xBounds yBounds : Int × Int) (point : Point) : Option (Nat × Nat) :=
  let width := xBounds.2 - xBounds.1
  let height := yBounds.2 - yBounds.1
  if (xBounds.1 ≤ point.1 ∧ point.1 ≤ xBounds.2) ∧ (yBounds.1 ≤ point.2 ∧ point.2 ≤ yBounds.2) ∧
      width ≠ 0 ∧ height ≠ 0 then
    some (((point.1 - xBounds.1) * ((area.width.toNat : Int) - 1) / width).toNat,
      ((yBounds.2 - point.2) * ((area.height.toNat : Int) - 1) / height).toNat)
  else none

/-- With a cell for each pixel the parts are whole cells. -/
theorem Rect.cell?_point (area : Rect) (wide : 2 ≤ area.width.toNat)
    (high : 2 ≤ area.height.toNat) (column row : Nat) (across : column < area.width.toNat)
    (down : row < area.height.toNat) :
    area.cell? (0, (area.width.toNat : Int) - 1) (-((area.height.toNat : Int) - 1), 0)
      ((column : Int), -(row : Int)) = some (column, row) := by
  have widthLeft : (area.width.toNat : Int) - 1 ≠ 0 := by omega
  have heightLeft : (area.height.toNat : Int) - 1 ≠ 0 := by omega
  have inBounds : (0 ≤ (column : Int) ∧ (column : Int) ≤ (area.width.toNat : Int) - 1) ∧
      (-((area.height.toNat : Int) - 1) ≤ -(row : Int) ∧ -(row : Int) ≤ 0) ∧
      (area.width.toNat : Int) - 1 ≠ 0 ∧ (area.height.toNat : Int) - 1 ≠ 0 := by omega
  simp only [Rect.cell?, Int.sub_zero, Int.zero_sub, Int.neg_neg, Int.mul_ediv_cancel _ widthLeft,
    Int.mul_ediv_cancel _ heightLeft, Int.toNat_natCast]
  exact if_pos inBounds

namespace Widgets

variable {columns rows : UInt16}

/-- Draw the box: a symbol in each cell of a rectangle, the others stay. -/
def frame (area : Rect) (grid : Grid columns.toNat rows.toNat) :
    Grid columns.toNat rows.toNat :=
  .ofFn columns.toNat rows.toNat fun column row =>
    if area.Has column row then
      .onBlack (Panel.boxSymbol ⟨area.width.toNat - 2, area.height.toNat - 2⟩
        (column - area.x.toNat) (row - area.y.toNat))
    else grid.get column row

/-- There is nothing around it on a blank grid. -/
theorem get_frame (area : Rect) (fits : area.Fits columns rows) (column row : Nat) :
    (frame area (.blank columns.toNat rows.toNat)).get column row =
      if area.Has column row then
        .onBlack (Panel.boxSymbol ⟨area.width.toNat - 2, area.height.toNat - 2⟩
          (column - area.x.toNat) (row - area.y.toNat))
      else .empty := by
  by_cases onTerminal : column < columns.toNat ∧ row < rows.toNat
  · rw [frame, Grid.get_ofFn _ _ _ onTerminal.1 onTerminal.2, Grid.blank,
      Grid.get_ofFn _ _ _ onTerminal.1 onTerminal.2]
  · -- All cells of the rectangle are on the terminal.
    obtain ⟨across, down⟩ := fits
    have apart : ¬ area.Has column row := by
      rintro ⟨⟨_, left⟩, _, above⟩
      omega
    rw [Grid.get_outside _ _ _ (by omega), if_neg apart]

/-- Paint a point on the cell that it falls on, if there is one. -/
def dab (area : Rect) (xBounds yBounds : Int × Int) (color : Color) (point : Point)
    (grid : Grid columns.toNat rows.toNat) : Grid columns.toNat rows.toNat :=
  match area.cell? xBounds yBounds point with
  | none => grid
  | some cell => grid.set (area.x.toNat + cell.1) (area.y.toNat + cell.2) (.dot color)

/-- Widgets that take each rectangle as it is asked for, and canvases that are divided
evenly. -/
def plain (columns rows : UInt16) : Widgets columns rows where
  rect x y width height := ⟨x, y, width, height⟩
  inner area := ⟨area.x + 1, area.y + 1, area.width - 2, area.height - 2⟩
  enclose := frame
  paint := dab
  rect_eq _ _ := rfl
  inner_eq _ _ _ _ := rfl
  get_enclose area fits _ _ := get_frame area fits
  paint_eq area _ wide high _ _ column row across down := by
    rw [dab, area.cell?_point wide high column row across down]

end Widgets

namespace TerminalScreen

/-- Give a terminal those cells of a grid that it does not show already. -/
def refresh {columns rows : Nat} (shown next : Grid columns rows) : Grid columns rows :=
  .ofFn columns rows fun column row =>
    if shown.get column row = next.get column row then shown.get column row
    else next.get column row

/-- Then it shows that grid. -/
theorem refresh_eq {columns rows : Nat} (shown next : Grid columns rows) :
    refresh shown next = next := by
  apply Grid.ext_get
  intro column across row down
  rw [refresh, Grid.get_ofFn _ _ _ across down]
  split
  · assumption
  · rfl

/-- A terminal that draws on a grid beside the one it shows and then changes the cells that
differ. -/
def refreshing (columns rows : UInt16) :
    TerminalScreen (Grid columns.toNat rows.toNat) columns rows where
  shown grid := grid
  draw grid drawing := refresh grid (drawing (.blank columns.toNat rows.toNat))
  shown_draw grid drawing := refresh_eq grid (drawing (.blank columns.toNat rows.toNat))

end TerminalScreen

namespace Panel

/-! ## Pictures one after the other -/

/-- What a terminal shows after pictures is the panel with the last of them, whatever was
shown before. -/
theorem shown_presentAll {τ : Type} {columns rows : UInt16} (widgets : Widgets columns rows)
    (terminal : TerminalScreen τ columns rows) (extent : Extent)
    (across : extent.width + 2 ≤ columns.toNat) (down : extent.height + 2 ≤ rows.toNat)
    (wide : 2 ≤ extent.width) (high : 2 ≤ extent.height) (state : τ) (earlier : List Frame)
    (last : Frame) :
    terminal.shown (presentAll widgets terminal extent state (earlier ++ [last])) =
      draw extent columns.toNat rows.toNat last := by
  rw [presentAll, List.foldl_append]
  exact (terminal.shown_draw _ _).trans
    (drawOn_blank widgets extent across down wide high last)

/-- Show one picture or more on a terminal that has room for the box, whatever it showed
before, with any widgets that draw the box around what it leaves and put the points of a picture
on their own cells. Then the terminal is the panel with the last picture, of whatever length that
is, and depends on nothing else: the cell one further right and down than a pixel is green where
the picture's text has the mark of a lit pixel, and else black. All other cells, those of the box
with its title and those around it, are the same after every picture. -/
theorem last_picture_shows {τ : Type} {columns rows : UInt16} (widgets : Widgets columns rows)
    (terminal : TerminalScreen τ columns rows) (extent : Extent) (wide : 2 ≤ extent.width)
    (high : 2 ≤ extent.height) (across : extent.width + 2 ≤ columns.toNat)
    (down : extent.height + 2 ≤ rows.toNat) (state : τ) (earlier : List Frame) (last : Frame) :
    let after := terminal.shown (presentAll widgets terminal extent state (earlier ++ [last]))
    after = draw extent columns.toNat rows.toNat last ∧
    (∀ column < extent.width, ∀ row < extent.height,
      after.get (column + 1) (row + 1) =
        .dot (if extent.character last row column = some '#' then .green else .black)) ∧
    ∀ column row, ¬ Inside extent column row →
      after.get column row =
        if column < extent.width + 2 ∧ row < extent.height + 2 then
          .onBlack (boxSymbol extent column row)
        else .empty := by
  intro after
  have same : after = draw extent columns.toNat rows.toNat last :=
    shown_presentAll widgets terminal extent across down wide high state earlier last
  rw [same]
  refine ⟨rfl, fun column inRow row inPicture => ?_, fun column row outside => ?_⟩
  · exact get_draw_inside extent wide high last across down column row inRow inPicture
  · rw [get_draw_outside extent last column row outside, get_box extent across down]

/-- A picture of three columns and two rows whose upper line is lit, and after it one with a
pixel in each line. -/
theorem last_picture_shows_blinking :
    let after := (TerminalScreen.refreshing 7 5).shown
      (presentAll (.plain 7 5) (.refreshing 7 5) ⟨3, 2⟩ (.blank 7 5) ([#[0xE0]] ++ [#[0x90]]))
    2 ≤ 3 ∧ 2 ≤ 2 ∧ 3 + 2 ≤ UInt16.toNat 7 ∧ 2 + 2 ≤ UInt16.toNat 5 ∧
      after.get 1 1 = .dot .green ∧ after.get 2 1 = .dot .black ∧ after.get 1 2 = .dot .green ∧
      after.get 1 0 = .onBlack 'c' ∧ after.get 5 2 = .empty := by
  intro after
  obtain ⟨_, pixels, others⟩ := last_picture_shows (.plain 7 5) (.refreshing 7 5) ⟨3, 2⟩
    (by decide) (by decide) (by decide) (by decide) (.blank 7 5) [#[0xE0]] #[0x90]
  refine ⟨by decide, by decide, by decide, by decide, ?_, ?_, ?_, ?_, ?_⟩
  · exact pixels 0 (by decide) 0 (by decide)
  · exact pixels 1 (by decide) 0 (by decide)
  · exact pixels 0 (by decide) 1 (by decide)
  · exact others 1 0 (fun inside => absurd inside.2.1 (by decide))
  · exact others 5 2 (fun inside => absurd inside.1.2 (by decide))

end Panel

end Chip8
