import Chip8.Proofs.Flips
import Chip8.Proofs.Footprints

/-!
# What a sprite does to the picture

A sprite hits the pixels under the set bits of its rows, wrapped around the edges one by
one. It is at most eight pixels wide and fifteen high, the screen is 64 by 32, so no pixel
is hit twice: drawing flips exactly the pixels that are hit, and the flag tells whether
one of them was lit before. All this holds of sprites whose bytes lie outside the picture.
A sprite in the picture would be changed by its own drawing.
-/

namespace Chip8

namespace Memory

/-! ## The pixels of a sprite -/

/-- No row of a sprite at an address is a byte of the picture. -/
def Apart (memory : Memory) (address rows : Nat) : Prop :=
  memory.isDetached = true ∨
    ∀ row < rows, address + row < screenStart ∨ memorySize ≤ address + row

/-- A sprite hits the pixel in a column and a row of the screen: one of its eight columns
falls on that column, one of its rows on that row, and its bit there is set, counted from
the highest one. Rows past the end of memory are empty. -/
def Hits (memory : Memory) (address x y rows column row : Nat) : Prop :=
  ∃ r < rows, ∃ c < 8, column = (x + c) % screenWidth ∧ row = (y + r) % screenHeight ∧
    (memory.read (address + r)).toNat.testBit (7 - c) = true

instance (memory : Memory) (address x y rows column row : Nat) :
    Decidable (memory.Hits address x y rows column row) :=
  inferInstanceAs (Decidable (∃ r < rows, ∃ c < 8, _ ∧ _ ∧ _))

/-- The pixels that a sprite row flips, from the left. -/
def rowFlips (sprite : UInt8) (x y : Nat) : List Nat :=
  ((List.range 8).filter (Frame.lit sprite)).map fun column => pixelIndex (x + column) y

/-- The pixels that a sprite flips, row by row. -/
def flips (memory : Memory) (address x y rows : Nat) : List Nat :=
  (List.range rows).flatMap fun row => rowFlips (memory.read (address + row)) x (y + row)

/-- Painting leaves the rows of a sprite alone that lies outside the picture. -/
theorem Painted.read_row {before after : Memory} (painted : Painted before after)
    {address rows : Nat} (apart : before.Apart address rows) (row : Nat) (inside : row < rows) :
    after.read (address + row) = before.read (address + row) := by
  rcases apart with detached | outside
  · exact painted.read _ (.inl detached)
  · rcases outside row inside with low | high
    · exact painted.read _ (.inr low)
    · rw [read_eq_zero _ _ high, read_eq_zero _ _ high]

/-- Drawing a sprite row flips its pixels. -/
theorem drawRow_eq (drawn : Drawn) (sprite : UInt8) (x y : Nat) :
    drawRow drawn sprite x y = (rowFlips sprite x y).foldl flip drawn := by
  rw [rowFlips, List.foldl_map, List.foldl_filter]
  rfl

/-- Drawing rows of a sprite flips their pixels, also on a picture that was painted
already. -/
theorem foldl_drawRow (memory : Memory) (drawn : Drawn) (address x y rows : Nat)
    (apart : memory.Apart address rows) (painted : Painted memory drawn.memory)
    (members : List Nat) (inside : ∀ row ∈ members, row < rows) :
    members.foldl
        (fun drawn row => drawRow drawn (drawn.memory.read (address + row)) x (y + row)) drawn =
      (members.flatMap fun row => rowFlips (memory.read (address + row)) x (y + row)).foldl flip
        drawn := by
  induction members generalizing drawn with
  | nil => rfl
  | cons row rest inductionHypothesis =>
    obtain ⟨insideFirst, insideRest⟩ := List.forall_mem_cons.mp inside
    have read := painted.read_row apart row insideFirst
    have paintedThen := painted.trans (painted_drawRow drawn (memory.read (address + row)) x (y + row))
    rw [List.foldl_cons, read, inductionHypothesis _ paintedThen insideRest, List.flatMap_cons,
      List.foldl_append, drawRow_eq]

/-- Drawing a sprite that lies outside the picture flips its pixels. -/
theorem drawSprite_eq (memory : Memory) (address x y rows : Nat)
    (apart : memory.Apart address rows) :
    memory.drawSprite address x y rows =
      (memory.flips address x y rows).foldl flip ⟨memory, false⟩ :=
  foldl_drawRow memory ⟨memory, false⟩ address x y rows apart (.refl memory) (List.range rows)
    fun _ => List.mem_range.mp

/-- What a sprite flips is what it hits. -/
theorem mem_flips_iff (memory : Memory) (address x y rows column row : Nat)
    (across : column < screenWidth) :
    row * screenWidth + column ∈ memory.flips address x y rows ↔
      memory.Hits address x y rows column row := by
  have bit (sprite : UInt8) (c : Nat) (inside : c < 8) :
      Frame.lit sprite c = sprite.toNat.testBit (7 - c) := by
    rw [Frame.lit_eq_testBit, Nat.mod_eq_of_lt inside]
  have place (c r : Nat) : pixelIndex (x + c) (y + r) = row * screenWidth + column ↔
      column = (x + c) % screenWidth ∧ row = (y + r) % screenHeight := by
    simp only [pixelIndex, screenWidth, screenHeight] at across ⊢
    omega
  simp only [flips, rowFlips, List.mem_flatMap, List.mem_map, List.mem_filter, List.mem_range,
    place, Hits]
  constructor
  · rintro ⟨r, inside, c, ⟨narrow, lit⟩, sameColumn, sameRow⟩
    exact ⟨r, inside, c, narrow, sameColumn, sameRow, (bit _ _ narrow).symm.trans lit⟩
  · rintro ⟨r, inside, c, narrow, sameColumn, sameRow, lit⟩
    exact ⟨r, inside, c, ⟨narrow, (bit _ _ narrow).trans lit⟩, sameColumn, sameRow⟩

/-- No pixel of the screen is hit twice. -/
theorem nodup_flips (memory : Memory) (address x y rows : Nat) (low : rows ≤ screenHeight) :
    (memory.flips address x y rows).Nodup := by
  rw [flips, List.Nodup, List.pairwise_flatMap]
  constructor
  · intro row _
    rw [rowFlips, List.pairwise_map]
    refine List.Pairwise.imp_of_mem ?_ (List.nodup_range.filter _)
    intro first second inFirst inSecond apart same
    have narrow := List.mem_range.mp (List.mem_filter.mp inFirst).1
    have narrowToo := List.mem_range.mp (List.mem_filter.mp inSecond).1
    simp only [pixelIndex, screenWidth, screenHeight] at same
    omega
  · refine List.Pairwise.imp_of_mem ?_ List.nodup_range
    intro first second inFirst inSecond apart index above other below same
    obtain ⟨column, _, rfl⟩ := List.mem_map.mp above
    obtain ⟨otherColumn, _, rfl⟩ := List.mem_map.mp below
    have inside := List.mem_range.mp inFirst
    have insideToo := List.mem_range.mp inSecond
    simp only [pixelIndex, screenWidth, screenHeight] at same low
    omega

/-- So a pixel is flipped once if it is hit. -/
theorem count_flips (memory : Memory) (address x y rows column row : Nat)
    (low : rows ≤ screenHeight) (across : column < screenWidth) :
    (memory.flips address x y rows).count (row * screenWidth + column) =
      if memory.Hits address x y rows column row then 1 else 0 := by
  rw [(memory.nodup_flips address x y rows low).count]
  by_cases hit : memory.Hits address x y rows column row
  · rw [if_pos hit, if_pos ((memory.mem_flips_iff address x y rows column row across).mpr hit)]
  · rw [if_neg hit, if_neg (mt (memory.mem_flips_iff address x y rows column row across).mp hit)]

/-- What a sprite flips are pixels of the screen. -/
theorem position_of_mem_flips (memory : Memory) (address x y rows index : Nat)
    (member : index ∈ memory.flips address x y rows) :
    ∃ column < screenWidth, ∃ row < screenHeight, index = row * screenWidth + column := by
  obtain ⟨r, _, inRow⟩ := List.mem_flatMap.mp member
  obtain ⟨c, _, rfl⟩ := List.mem_map.mp inRow
  exact ⟨(x + c) % screenWidth, Nat.mod_lt _ (by decide), (y + r) % screenHeight,
    Nat.mod_lt _ (by decide), rfl⟩

/-! ## The picture after drawing -/

/-- A sprite hits a pixel that is lit. -/
def Collides (memory : Memory) (address x y rows : Nat) : Prop :=
  ∃ column < screenWidth, ∃ row < screenHeight,
    memory.HasPixel (row * screenWidth + column) ∧
    memory.pixel (row * screenWidth + column) = true ∧
    memory.Hits address x y rows column row

/-- Every screen has all pixels, but a detached one lacks the last eight. -/
theorem hasPixel_iff (memory : Memory) (column row : Nat) (across : column < screenWidth)
    (down : row < screenHeight) :
    memory.HasPixel (row * screenWidth + column) ↔
      (memory.isDetached = true → row * screenWidth + column < 8 * detachedSize) := by
  simp only [screenWidth, screenHeight] at across down
  cases place : memory.isDetached with
  | true =>
    rw [HasPixel, frame_size_detached _ place]
    simp only [detachedSize, screenWidth]
    constructor
    · intro inside _
      omega
    · intro below
      have bound := below trivial
      omega
  | false =>
    rw [HasPixel, frame_size_mapped _ place]
    simp only [screenSize, screenWidth]
    constructor
    · intro _ detached
      cases detached
    · intro _
      omega

/-- Drawing a sprite changes the pixels that it hits, as far as the screen has them. -/
theorem pixel_drawSprite (memory : Memory) (address x y rows column row : Nat)
    (apart : memory.Apart address rows) (low : rows ≤ screenHeight)
    (across : column < screenWidth) (inside : memory.HasPixel (row * screenWidth + column)) :
    (memory.drawSprite address x y rows).memory.pixel (row * screenWidth + column) =
      (memory.pixel (row * screenWidth + column) ^^
        decide (memory.Hits address x y rows column row)) := by
  rw [memory.drawSprite_eq address x y rows apart, pixel_flips _ _ _ inside,
    memory.count_flips address x y rows column row low across]
  by_cases hit : memory.Hits address x y rows column row
  · rw [if_pos hit, decide_eq_true hit]
    rfl
  · rw [if_neg hit, decide_eq_false hit]
    rfl

/-- Drawing a sprite tells whether it hits a lit pixel. -/
theorem collision_drawSprite (memory : Memory) (address x y rows : Nat)
    (apart : memory.Apart address rows) (low : rows ≤ screenHeight) :
    (memory.drawSprite address x y rows).collision = true ↔
      memory.Collides address x y rows := by
  rw [memory.drawSprite_eq address x y rows apart,
    collision_flips _ _ (memory.nodup_flips address x y rows low), Bool.false_or,
    List.any_eq_true]
  constructor
  · rintro ⟨index, member, lit⟩
    obtain ⟨column, across, row, down, rfl⟩ :=
      memory.position_of_mem_flips address x y rows index member
    have inside : memory.HasPixel (row * screenWidth + column) := by
      by_contra outside
      rw [memory.pixel_outside _ outside] at lit
      cases lit
    exact ⟨column, across, row, down, inside, lit,
      (memory.mem_flips_iff address x y rows column row across).mp member⟩
  · rintro ⟨column, across, row, _, _, lit, hit⟩
    exact ⟨row * screenWidth + column,
      (memory.mem_flips_iff address x y rows column row across).mpr hit, lit⟩

/-- A sprite that ends before the picture, or begins past the end of memory, lies outside
the picture. -/
theorem apart_of_outside (memory : Memory) (address rows : Nat)
    (outside : memory.isDetached = true ∨ address + rows ≤ screenStart ∨ memorySize ≤ address) :
    memory.Apart address rows := by
  rcases outside with detached | before | behind
  · exact .inl detached
  · exact .inr fun row inside => .inl (by omega)
  · exact .inr fun row inside => .inr (by omega)

/-- The first row of the first glyph has its left half set. -/
theorem testBit_initial (column : Nat) (left : column < 4) :
    (initial.read 0).toNat.testBit (7 - column) = true := by
  have row : initial.read 0 = 0xF0 := by
    rw [initial, read_writeList, if_pos (by decide)]
    decide
  rw [row]
  revert column
  decide

end Memory

namespace Machine

/-- The exact effect of drawing a sprite that lies outside the picture. Of all the pixels
the screen has, which are all of them or all but the last eight, those change that the
sprite hits, at the position which the two registers held before. The flag register tells
whether one of these was lit. Nothing else is to be seen of it in the registers. -/
theorem draw_flips_hits (machine : Machine) (generator : Generator) (x y : Register)
    (rows : Fin 16)
    (outside : machine.memory.isDetached = true ∨
      machine.index.toNat + rows.val ≤ screenStart ∨ memorySize ≤ machine.index.toNat) :
    let memory := machine.memory
    let address := machine.index.toNat
    let left := (machine.v.get x).toNat
    let top := (machine.v.get y).toNat
    ∃ after, machine.execute generator (.draw x y rows) = (.ok (), after, generator) ∧
      after.frame.size = machine.frame.size ∧
      (∀ column < screenWidth, ∀ row < screenHeight,
        (memory.HasPixel (row * screenWidth + column) ↔
          (memory.isDetached = true → row * screenWidth + column < 8 * detachedSize)) ∧
        (memory.HasPixel (row * screenWidth + column) →
          (after.memory.pixel (row * screenWidth + column) ≠
              memory.pixel (row * screenWidth + column) ↔
            memory.Hits address left top rows.val column row))) ∧
      ((memory.Collides address left top rows.val ∧ after.v.get flagRegister = 1) ∨
        (¬ memory.Collides address left top rows.val ∧ after.v.get flagRegister = 0)) ∧
      (∀ r, r ≠ flagRegister → after.v.get r = machine.v.get r) ∧
      after.index = machine.index := by
  intro memory address left top
  have apart := memory.apart_of_outside address rows.val outside
  have low : rows.val ≤ screenHeight := Nat.le_trans (Nat.le_of_lt rows.isLt) (by decide)
  have painted := memory.painted_drawSprite address left top rows.val
  refine ⟨machine.draw x y rows, rfl, painted.size_frame, ?_, ?_, ?_, rfl⟩
  · intro column across row down
    refine ⟨memory.hasPixel_iff column row across down, fun inside => ?_⟩
    have pixel := memory.pixel_drawSprite address left top rows.val column row apart low across
      inside
    have drawn : (machine.draw x y rows).memory = (memory.drawSprite address left top rows.val).memory :=
      rfl
    rw [drawn, pixel]
    by_cases hit : memory.Hits address left top rows.val column row
    · simp [hit]
    · simp [hit]
  · have flag : (machine.draw x y rows).v.get flagRegister =
        (memory.drawSprite address left top rows.val).collision.toUInt8 :=
      setRegister_same _ _ _
    have told := memory.collision_drawSprite address left top rows.val apart low
    rw [flag]
    cases collided : (memory.drawSprite address left top rows.val).collision with
    | true => exact .inl ⟨told.mp collided, rfl⟩
    | false =>
      refine .inr ⟨fun collides => ?_, rfl⟩
      rw [told.mpr collides] at collided
      cases collided
  · intro r other
    exact setRegister_other _ _ _ _ other

/-- A machine whose screen beside memory is all lit, with the glyph of zero to draw at the
lower right corner. -/
def glaring : Machine :=
  { initial with
    memory := { Memory.initial with screen := .detached (.replicate 255 0xFF) }
    v := .replicate 16 63 }

/-- Drawn at the position that the flag register holds, the glyph hits a pixel in the
corner that the screen lacks and, around the edge, one that it has. That one goes off, and
the flag register is set in the end. -/
theorem draw_flips_hits_glaring :
    glaring.memory.isDetached = true ∧
      glaring.memory.Hits 0 63 63 5 63 31 ∧ ¬ glaring.memory.HasPixel 2047 ∧
      ∃ after, glaring.execute (.ofSeed 0) (.draw 15 15 5) = (.ok (), after, .ofSeed 0) ∧
        after.memory.pixel 1984 = false ∧ after.v.get 15 = 1 := by
  have corner : glaring.memory.Hits 0 63 63 5 63 31 :=
    ⟨0, by decide, 0, by decide, by decide, by decide, Memory.testBit_initial 0 (by decide)⟩
  have hit : glaring.memory.Hits 0 63 63 5 0 31 :=
    ⟨0, by decide, 1, by decide, by decide, by decide, Memory.testBit_initial 1 (by decide)⟩
  have lit : glaring.memory.pixel 1984 = true := by
    rw [Memory.pixel_eq]
    decide
  obtain ⟨after, done, _, pixels, flag, _⟩ :=
    draw_flips_hits glaring (.ofSeed 0) 15 15 5 (.inl rfl)
  obtain ⟨present, flipped⟩ := pixels 0 (by decide) 31 (by decide)
  have inside : glaring.memory.HasPixel 1984 := present.mpr fun _ => by decide
  have dark := (flipped inside).mpr hit
  refine ⟨rfl, corner, ?_, after, done, ?_, ?_⟩
  · exact fun beyond => absurd ((pixels 63 (by decide) 31 (by decide)).1.mp beyond rfl) (by decide)
  · rw [← Bool.not_eq_true]
    exact fun still => dark (still.trans lit.symm)
  · obtain ⟨_, set⟩ | ⟨misses, _⟩ := flag
    · exact set
    · exact absurd ⟨0, by decide, 31, by decide, inside, lit, hit⟩ misses

end Machine

end Chip8
