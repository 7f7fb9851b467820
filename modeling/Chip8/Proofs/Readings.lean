import Chip8.Picture.Points
import Chip8.Picture.Text

/-!
# One picture, read as text and as points

A picture is shown as text, row by row with two loops, and as points, in one walk over the
numbers of its pixels that takes each number apart into a column and a row. Both readings
ask for the same pixels: the one in a column and a row has the number `row * width + column`,
and dividing that by the width gives the row and the column back. So a character of the text
is a mark exactly where the point is among the lit ones, and the walk puts every point of the
picture in one of two lists, once, in the order of the rows. How many bytes the picture has
matters to neither: those it lacks are dark, and those behind its last pixel are not read.
-/

namespace Chip8

/-! ## Text -/

namespace Frame

/-- A pixel is marked where it is lit. -/
theorem mark_eq_iff (lit : Bool) : mark lit = '#' ↔ lit = true := by
  cases lit <;> decide

/-- The two marks differ. -/
theorem mark_inj {lit other : Bool} (same : mark lit = mark other) : lit = other := by
  rw [Bool.eq_iff_iff, ← mark_eq_iff, same, mark_eq_iff]

/-- Pixels past the end of a picture are dark. -/
theorem pixel_past_end (frame : Frame) (index : Nat) (short : frame.size ≤ index / 8) :
    frame.pixel index = false := by
  rw [pixel, Array.getElem?_eq_none short, Option.getD_none, lit, UInt8.zero_and]
  rfl

/-- A line has a character for each column, and a line break. -/
theorem length_textRow (frame : Frame) (width row : Nat) :
    (frame.textRow width row).length = width + 1 := by
  rw [textRow, List.length_append, List.length_map, List.length_range, List.length_singleton]

/-- The characters of a line before its line break. -/
theorem getElem?_textRow (frame : Frame) (width row column : Nat) (across : column < width) :
    (frame.textRow width row)[column]? = some (mark (frame.pixel (row * width + column))) := by
  have inside : column < ((List.range width).map fun column =>
      mark (frame.pixel (row * width + column))).length := by
    rwa [List.length_map, List.length_range]
  rw [textRow, List.getElem?_append_left inside, List.getElem?_map, List.getElem?_range across,
    Option.map_some]

/-- The line break of a line. -/
theorem getElem?_textRow_end (frame : Frame) (width row : Nat) :
    (frame.textRow width row)[width]? = some '\n' := by
  have behind : ((List.range width).map fun column =>
      mark (frame.pixel (row * width + column))).length = width := by
    rw [List.length_map, List.length_range]
  rw [textRow, List.getElem?_append_right (Nat.le_of_eq behind), behind, Nat.sub_self]
  rfl

/-- All lines of a text together. -/
theorem length_textRows (frame : Frame) (width height : Nat) :
    ((List.range height).flatMap (frame.textRow width)).length = height * (width + 1) := by
  induction height with
  | zero => simp
  | succ height inductionHypothesis =>
    rw [List.range_succ, List.flatMap_append, List.length_append, inductionHypothesis,
      List.flatMap_singleton, length_textRow, Nat.succ_mul]

/-- A line is found behind all lines above it, which are of the same length. -/
theorem getElem?_textRows (frame : Frame) (width height row place : Nat) (down : row < height)
    (within : place < width + 1) :
    ((List.range height).flatMap (frame.textRow width))[row * (width + 1) + place]? =
      (frame.textRow width row)[place]? := by
  -- The last line is added at the end, so that all others stay where they are.
  induction height with
  | zero => cases down
  | succ height inductionHypothesis =>
    rw [List.range_succ, List.flatMap_append, List.flatMap_singleton]
    have above := frame.length_textRows width height
    rcases Nat.lt_or_eq_of_le (Nat.le_of_lt_succ down) with earlier | rfl
    · have lines : (row + 1) * (width + 1) ≤ height * (width + 1) :=
        Nat.mul_le_mul_right _ earlier
      rw [Nat.succ_mul] at lines
      rw [List.getElem?_append_left (by omega), inductionHypothesis earlier]
    · rw [List.getElem?_append_right (by omega), above, Nat.add_sub_cancel_left]

/-- The characters of a text are those of its lines. -/
theorem toList_text (frame : Frame) (width height : Nat) :
    (frame.text width height).toList = (List.range height).flatMap (frame.textRow width) :=
  String.toList_ofList

end Frame

/-! ## Points -/

/-- A point comes before another one where it lies in a row above, or further to the left in
the same row. -/
def Precedes (point later : Point) : Prop :=
  later.2 < point.2 ∨ (later.2 = point.2 ∧ point.1 < later.1)

namespace Extent

/-- One walk over all pixels that puts each point at the end of one of two lists, the first
for lit pixels and the second for dark ones. -/
def sorted (extent : Extent) (frame : Frame) : List Point × List Point :=
  extent.indices.foldl
    (fun lists index =>
      if frame.pixel index then (lists.1 ++ [extent.point index], lists.2)
      else (lists.1, lists.2 ++ [extent.point index]))
    ([], [])

/-- A walk adds the points of its lit pixels to the one list and of its dark pixels to the
other. -/
theorem foldl_sorted (extent : Extent) (frame : Frame) (indexes : List Nat)
    (lit unlit : List Point) :
    indexes.foldl
        (fun lists index =>
          if frame.pixel index then (lists.1 ++ [extent.point index], lists.2)
          else (lists.1, lists.2 ++ [extent.point index]))
        (lit, unlit) =
      (lit ++ (indexes.filter frame.pixel).map extent.point,
        unlit ++ (indexes.filter fun index => !frame.pixel index).map extent.point) := by
  induction indexes generalizing lit unlit with
  | nil => simp
  | cons index rest inductionHypothesis =>
    cases on : frame.pixel index with
    | true => simp [on, inductionHypothesis]
    | false => simp [on, inductionHypothesis]

/-- The walk gives the lit points and the dark ones. -/
theorem sorted_eq (extent : Extent) (frame : Frame) :
    extent.sorted frame = (extent.litPoints frame, extent.unlitPoints frame) :=
  extent.foldl_sorted frame extent.indices [] []

/-- The point of the pixel in a column and a row. -/
theorem point_eq (extent : Extent) (row column : Nat) (across : column < extent.width) :
    extent.point (row * extent.width + column) = ((column : Int), -(row : Int)) := by
  have positive : 0 < extent.width := Nat.zero_lt_of_lt across
  have remainder : (row * extent.width + column) % extent.width = column := by
    rw [Nat.add_comm, Nat.add_mul_mod_self_right, Nat.mod_eq_of_lt across]
  have quotient : (row * extent.width + column) / extent.width = row := by
    rw [Nat.add_comm, Nat.add_mul_div_right _ _ positive, Nat.div_eq_of_lt across, Nat.zero_add]
  rw [point, remainder, quotient]

/-- The number of a pixel is that of the one in its column and row. -/
theorem index_eq (extent : Extent) (index : Nat) :
    index / extent.width * extent.width + index % extent.width = index :=
  Nat.div_add_mod' index extent.width

/-- The pixel in a column and a row of the picture is one of its pixels. -/
theorem mem_indices (extent : Extent) (row column : Nat) (across : column < extent.width)
    (down : row < extent.height) : row * extent.width + column ∈ extent.indices := by
  have lines : (row + 1) * extent.width ≤ extent.height * extent.width :=
    Nat.mul_le_mul_right _ down
  rw [Nat.succ_mul, Nat.mul_comm extent.height] at lines
  rw [indices, List.mem_range]
  omega

/-- A pixel of the picture lies in one of its columns and one of its rows. -/
theorem place_of_mem_indices (extent : Extent) (index : Nat) (member : index ∈ extent.indices) :
    index % extent.width < extent.width ∧ index / extent.width < extent.height := by
  have inside : index < extent.width * extent.height := List.mem_range.mp member
  have positive : 0 < extent.width := Nat.pos_of_lt_mul_right inside
  exact ⟨Nat.mod_lt _ positive, Nat.div_lt_of_lt_mul inside⟩

/-- Pixels come in the order of their numbers. -/
theorem precedes_of_lt (extent : Extent) (index later : Nat) (order : index < later) :
    Precedes (extent.point index) (extent.point later) := by
  have quotients : index / extent.width ≤ later / extent.width :=
    Nat.div_le_div_right (Nat.le_of_lt order)
  have first := extent.index_eq index
  have second := extent.index_eq later
  simp only [Precedes, point]
  -- A greater number has a greater row, or the same row and a greater column.
  rcases Nat.lt_or_eq_of_le quotients with above | same
  · left
    omega
  · right
    rw [same] at first
    omega

/-- No point comes before itself. -/
theorem not_precedes_self (point : Point) : ¬ Precedes point point := by
  rintro (above | ⟨_, left⟩)
  · exact Int.lt_irrefl _ above
  · exact Int.lt_irrefl _ left

/-- The points of all pixels come in order. -/
theorem pairwise_points (extent : Extent) :
    (extent.indices.map extent.point).Pairwise Precedes := by
  rw [List.pairwise_map]
  exact List.pairwise_lt_range.imp fun order => extent.precedes_of_lt _ _ order

/-- Those of one kind of pixels are among them in the same order. -/
theorem pairwise_points_filter (extent : Extent) (kind : Nat → Bool) :
    ((extent.indices.filter kind).map extent.point).Pairwise Precedes :=
  extent.pairwise_points.sublist (List.filter_sublist.map extent.point)

/-- Both lists together have the points of all pixels. -/
theorem perm_points (extent : Extent) (frame : Frame) :
    (extent.litPoints frame ++ extent.unlitPoints frame).Perm
      (extent.indices.map extent.point) := by
  rw [litPoints, unlitPoints, ← List.map_append]
  exact (List.filter_append_perm frame.pixel extent.indices).map extent.point

/-- The points of the picture: one in each column and row. -/
theorem mem_points_iff (extent : Extent) (point : Point) :
    point ∈ extent.indices.map extent.point ↔
      ∃ column < extent.width, ∃ row < extent.height, point = ((column : Int), -(row : Int)) := by
  rw [List.mem_map]
  constructor
  · rintro ⟨index, member, rfl⟩
    obtain ⟨across, down⟩ := extent.place_of_mem_indices index member
    exact ⟨_, across, _, down, rfl⟩
  · rintro ⟨column, across, row, down, rfl⟩
    exact ⟨_, extent.mem_indices row column across down, extent.point_eq row column across⟩

/-- They are in one of the two lists. -/
theorem mem_append_iff (extent : Extent) (frame : Frame) (point : Point) :
    point ∈ extent.litPoints frame ++ extent.unlitPoints frame ↔
      ∃ column < extent.width, ∃ row < extent.height, point = ((column : Int), -(row : Int)) := by
  rw [(extent.perm_points frame).mem_iff, mem_points_iff]

/-- Each of them is there once. -/
theorem count_points (extent : Extent) (frame : Frame) (row column : Nat)
    (across : column < extent.width) (down : row < extent.height) :
    (extent.litPoints frame ++ extent.unlitPoints frame).count ((column : Int), -(row : Int)) =
      1 := by
  -- One list after the other is not the order of the picture, but counting does not see that.
  have distinct : (extent.indices.map extent.point).Nodup := by
    apply (extent.pairwise_points).imp
    rintro point later order rfl
    exact not_precedes_self point order
  rw [(extent.perm_points frame).count_eq, distinct.count, if_pos]
  exact (extent.mem_points_iff _).mpr ⟨column, across, row, down, rfl⟩

/-- A point is among the lit ones where its pixel is lit. -/
theorem mem_litPoints_iff (extent : Extent) (frame : Frame) (row column : Nat)
    (across : column < extent.width) (down : row < extent.height) :
    ((column : Int), -(row : Int)) ∈ extent.litPoints frame ↔
      frame.pixel (row * extent.width + column) = true := by
  rw [litPoints, List.mem_map]
  constructor
  · rintro ⟨index, member, same⟩
    obtain ⟨_, lit⟩ := List.mem_filter.mp member
    have number := extent.index_eq index
    simp only [point, Prod.mk.injEq] at same
    have left : index % extent.width = column := by omega
    have above : index / extent.width = row := by omega
    rw [left, above] at number
    rw [number]
    exact lit
  · intro lit
    exact ⟨_, List.mem_filter.mpr ⟨extent.mem_indices row column across down, lit⟩,
      extent.point_eq row column across⟩

/-- All points lie between the least and the greatest coordinates. -/
theorem within_bounds (extent : Extent) (frame : Frame) (point : Point)
    (member : point ∈ extent.litPoints frame ++ extent.unlitPoints frame) :
    (extent.xBounds.1 ≤ point.1 ∧ point.1 ≤ extent.xBounds.2) ∧
      extent.yBounds.1 ≤ point.2 ∧ point.2 ≤ extent.yBounds.2 := by
  rw [mem_append_iff] at member
  obtain ⟨column, across, row, down, rfl⟩ := member
  simp only [xBounds, yBounds]
  omega

/-! ## What the readings depend on -/

/-- Two pictures have the same pixels within the measures. -/
def Alike (extent : Extent) (frame other : Frame) : Prop :=
  ∀ index ∈ extent.indices, frame.pixel index = other.pixel index

/-- They do if they have the same pixel in each column of each row. -/
theorem alike_iff (extent : Extent) (frame other : Frame) :
    extent.Alike frame other ↔
      ∀ row < extent.height, ∀ column < extent.width,
        frame.pixel (row * extent.width + column) = other.pixel (row * extent.width + column) := by
  constructor
  · intro alike row down column across
    exact alike _ (extent.mem_indices row column across down)
  · intro alike index member
    obtain ⟨across, down⟩ := extent.place_of_mem_indices index member
    rw [← extent.index_eq index]
    exact alike _ down _ across

/-- The text tells the pixels of the picture, and nothing else. -/
theorem text_eq_iff (extent : Extent) (frame other : Frame) :
    frame.text extent.width extent.height = other.text extent.width extent.height ↔
      extent.Alike frame other := by
  rw [alike_iff]
  constructor
  · intro same row down column across
    have lines := frame.getElem?_textRows extent.width extent.height row column down (by omega)
    rw [← Frame.toList_text, same, Frame.toList_text,
      other.getElem?_textRows _ _ _ _ down (by omega),
      Frame.getElem?_textRow _ _ _ _ across, Frame.getElem?_textRow _ _ _ _ across] at lines
    exact Frame.mark_inj (Option.some.inj lines).symm
  · intro alike
    rw [Frame.text, Frame.text, List.flatMap_def, List.flatMap_def]
    congr 2
    apply List.map_congr_left
    intro row down
    rw [Frame.textRow, Frame.textRow]
    congr 1
    apply List.map_congr_left
    intro column across
    rw [alike row (List.mem_range.mp down) column (List.mem_range.mp across)]

/-- So do the lit points. -/
theorem litPoints_eq_iff (extent : Extent) (frame other : Frame) :
    extent.litPoints frame = extent.litPoints other ↔ extent.Alike frame other := by
  constructor
  · intro same
    rw [alike_iff]
    intro row down column across
    rw [Bool.eq_iff_iff, ← extent.mem_litPoints_iff frame row column across down, same,
      extent.mem_litPoints_iff other row column across down]
  · intro alike
    rw [litPoints, litPoints, List.filter_congr alike]

/-- The dark points depend on no other pixels. -/
theorem unlitPoints_of_alike (extent : Extent) (frame other : Frame)
    (alike : extent.Alike frame other) : extent.unlitPoints frame = extent.unlitPoints other := by
  rw [unlitPoints, unlitPoints]
  congr 1
  apply List.filter_congr
  intro index member
  rw [alike index member]

/-- Pictures with the same bytes up to that of the last pixel, those they lack being zero,
have the same pixels. -/
theorem alike_of_bytes (extent : Extent) (frame other : Frame)
    (bytes : ∀ place, 8 * place < extent.width * extent.height →
      frame[place]?.getD 0 = other[place]?.getD 0) : extent.Alike frame other := by
  intro index member
  have inside : index < extent.width * extent.height := List.mem_range.mp member
  rw [Frame.pixel, Frame.pixel, bytes (index / 8) (by omega)]

/-! ## The readings agree -/

/-- The character at a place of a line of the text. -/
def character (extent : Extent) (frame : Frame) (row place : Nat) : Option Char :=
  (frame.text extent.width extent.height).toList[row * (extent.width + 1) + place]?

/-- The characters of a line tell its pixels. -/
theorem character_eq (extent : Extent) (frame : Frame) (row column : Nat)
    (across : column < extent.width) (down : row < extent.height) :
    extent.character frame row column =
      some (if frame.pixel (row * extent.width + column) then '#' else '.') := by
  rw [character, Frame.toList_text,
    Frame.getElem?_textRows _ _ _ _ _ down (Nat.lt_succ_of_lt across),
    Frame.getElem?_textRow _ _ _ _ across, Frame.mark]

/-- Each line ends in a line break. -/
theorem character_end (extent : Extent) (frame : Frame) (row : Nat) (down : row < extent.height) :
    extent.character frame row extent.width = some '\n' := by
  rw [character, Frame.toList_text,
    Frame.getElem?_textRows _ _ _ _ _ down (Nat.lt_succ_self extent.width),
    Frame.getElem?_textRow_end]

/-- A point is lit where the text has the mark of a lit pixel. -/
theorem mem_litPoints_iff_character (extent : Extent) (frame : Frame) (row column : Nat)
    (across : column < extent.width) (down : row < extent.height) :
    ((column : Int), -(row : Int)) ∈ extent.litPoints frame ↔
      extent.character frame row column = some '#' := by
  rw [extent.mem_litPoints_iff frame row column across down,
    extent.character_eq frame row column across down, Option.some.injEq]
  exact (Frame.mark_eq_iff _).symm

/-- A point is dark where its pixel is. -/
theorem mem_unlitPoints_of_dark (extent : Extent) (frame : Frame) (row column : Nat)
    (across : column < extent.width) (down : row < extent.height)
    (dark : frame.pixel (row * extent.width + column) = false) :
    ((column : Int), -(row : Int)) ∈ extent.unlitPoints frame := by
  have member : ((column : Int), -(row : Int)) ∈
      extent.litPoints frame ++ extent.unlitPoints frame :=
    (extent.mem_append_iff frame _).mpr ⟨column, across, row, down, rfl⟩
  rcases List.mem_append.mp member with lit | unlit
  · rw [extent.mem_litPoints_iff frame row column across down, dark] at lit
    exact absurd lit Bool.false_ne_true
  · exact unlit

/-- The text and the points are readings of the same picture, whatever its measures and
however many bytes it has. The text has a line of the picture's width for each row, each
ended by a line break, and a character tells whether its pixel is lit. The walk over the
pixels puts the point of each column and row into one of its lists, once, and no other point,
each list in the order of the rows and all of it within the bounds; a point is among the lit
ones exactly where the text has its mark. Pixels past the last byte are dark in both readings,
and bytes behind the last pixel are in neither. So two pictures have the same text if and
only if they have the same lit points. -/
theorem readings_agree (extent : Extent) (frame : Frame) :
    (frame.text extent.width extent.height).toList.length =
        extent.height * (extent.width + 1) ∧
      (∀ row < extent.height, extent.character frame row extent.width = some '\n') ∧
      extent.sorted frame = (extent.litPoints frame, extent.unlitPoints frame) ∧
      (∀ row < extent.height, ∀ column < extent.width,
        extent.character frame row column =
            some (if frame.pixel (row * extent.width + column) then '#' else '.') ∧
          (extent.litPoints frame ++ extent.unlitPoints frame).count
            ((column : Int), -(row : Int)) = 1 ∧
          (((column : Int), -(row : Int)) ∈ extent.litPoints frame ↔
            extent.character frame row column = some '#') ∧
          (frame.size ≤ (row * extent.width + column) / 8 →
            extent.character frame row column = some '.' ∧
              ((column : Int), -(row : Int)) ∈ extent.unlitPoints frame)) ∧
      (∀ point ∈ extent.litPoints frame ++ extent.unlitPoints frame,
        (∃ column < extent.width, ∃ row < extent.height, point = ((column : Int), -(row : Int))) ∧
          (extent.xBounds.1 ≤ point.1 ∧ point.1 ≤ extent.xBounds.2) ∧
          extent.yBounds.1 ≤ point.2 ∧ point.2 ≤ extent.yBounds.2) ∧
      (extent.litPoints frame).Pairwise Precedes ∧
      (extent.unlitPoints frame).Pairwise Precedes ∧
      (∀ other : Frame, (∀ place, 8 * place < extent.width * extent.height →
          frame[place]?.getD 0 = other[place]?.getD 0) →
        frame.text extent.width extent.height = other.text extent.width extent.height ∧
          extent.sorted frame = extent.sorted other) ∧
      (∀ other : Frame,
        frame.text extent.width extent.height = other.text extent.width extent.height ↔
          extent.litPoints frame = extent.litPoints other) := by
  refine ⟨?_, extent.character_end frame, extent.sorted_eq frame, ?_, ?_,
    extent.pairwise_points_filter _, extent.pairwise_points_filter _, ?_, ?_⟩
  · rw [Frame.toList_text, Frame.length_textRows]
  · intro row down column across
    refine ⟨extent.character_eq frame row column across down,
      extent.count_points frame row column across down,
      extent.mem_litPoints_iff_character frame row column across down, ?_⟩
    intro short
    have dark := frame.pixel_past_end _ short
    constructor
    · rw [extent.character_eq frame row column across down, dark]
      rfl
    · exact extent.mem_unlitPoints_of_dark frame row column across down dark
  · intro point member
    constructor
    · exact (extent.mem_append_iff frame point).mp member
    · exact extent.within_bounds frame point member
  · intro other bytes
    have alike := extent.alike_of_bytes frame other bytes
    constructor
    · exact (extent.text_eq_iff frame other).mpr alike
    · rw [sorted_eq, sorted_eq, (extent.litPoints_eq_iff frame other).mpr alike,
        extent.unlitPoints_of_alike frame other alike]
  · intro other
    rw [text_eq_iff, litPoints_eq_iff]

/-- Lines need not end with a byte, and the last lines may have none. -/
example : Frame.text #[0xB0] 3 4 = "#.#\n#..\n...\n...\n" ∧
    (Extent.mk 3 4).litPoints #[0xB0] = [(0, 0), (2, 0), (0, -1)] := by decide

end Extent

end Chip8
