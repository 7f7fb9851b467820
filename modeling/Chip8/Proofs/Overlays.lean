import Chip8.Proofs.Sprites

/-!
# Sprites over sprites

Sprites drawn one over the other add up pixel by pixel: a pixel has changed in the end if
an odd number of them hit it. So their order does not matter and a second time takes them
all away again. This needs that each sprite is the same whenever it is drawn, which is so
if all of them lie outside the picture.
-/

namespace Chip8

/-- A sprite with the position it is drawn at. -/
structure Sprite where
  x : UInt8
  y : UInt8
  /-- The address of its first row. -/
  address : UInt16
  rows : Fin 16

namespace Sprite

/-- The sprite lies outside the picture. -/
def Apart (sprite : Sprite) (memory : Memory) : Prop :=
  memory.Apart sprite.address.toNat sprite.rows.val

/-- The sprite hits the pixel in a column and a row of the screen. -/
def Hits (sprite : Sprite) (memory : Memory) (column row : Nat) : Prop :=
  memory.Hits sprite.address.toNat sprite.x.toNat sprite.y.toNat sprite.rows.val column row

instance (sprite : Sprite) (memory : Memory) (column row : Nat) :
    Decidable (sprite.Hits memory column row) :=
  inferInstanceAs (Decidable (memory.Hits _ _ _ _ _ _))

/-- The pixels that the sprite flips. -/
def flips (sprite : Sprite) (memory : Memory) : List Nat :=
  memory.flips sprite.address.toNat sprite.x.toNat sprite.y.toNat sprite.rows.val

/-- Painting does not change a sprite outside the picture, nor that it is there. -/
theorem flips_painted (sprite : Sprite) {before after : Memory}
    (painted : Memory.Painted before after) (apart : sprite.Apart before) :
    sprite.flips after = sprite.flips before ∧ sprite.Apart after := by
  constructor
  · have rows : ∀ row ∈ List.range sprite.rows.val,
        Memory.rowFlips (after.read (sprite.address.toNat + row)) sprite.x.toNat
            (sprite.y.toNat + row) =
          Memory.rowFlips (before.read (sprite.address.toNat + row)) sprite.x.toNat
            (sprite.y.toNat + row) := by
      intro row member
      rw [painted.read_row apart row (List.mem_range.mp member)]
    rw [flips, flips, Memory.flips, Memory.flips, List.flatMap_def, List.flatMap_def,
      List.map_congr_left rows]
  · rcases apart with detached | outside
    · exact .inl (painted.place.trans detached)
    · exact .inr outside

/-- A pixel is flipped by as many sprites as hit it. -/
theorem count_flips_eq (memory : Memory) (sprites : List Sprite) (column row : Nat)
    (across : column < screenWidth) :
    (sprites.flatMap fun sprite => sprite.flips memory).count (row * screenWidth + column) =
      sprites.countP fun sprite => sprite.Hits memory column row := by
  induction sprites with
  | nil => rfl
  | cons sprite rest inductionHypothesis =>
    have low : sprite.rows.val ≤ screenHeight :=
      Nat.le_trans (Nat.le_of_lt sprite.rows.isLt) (by decide)
    have once : (sprite.flips memory).count (row * screenWidth + column) =
        if sprite.Hits memory column row then 1 else 0 :=
      memory.count_flips _ _ _ _ column row low across
    rw [List.flatMap_cons, List.count_append, once, inductionHypothesis, List.countP_cons,
      Nat.add_comm]
    by_cases hit : sprite.Hits memory column row
    · simp [hit]
    · simp [hit]

end Sprite

namespace Machine

/-- Point the index register at a sprite and draw it at its position. -/
def overlay (machine : Machine) (sprite : Sprite) : Machine :=
  { machine with
    index := sprite.address
    memory := (machine.memory.drawSprite sprite.address.toNat sprite.x.toNat sprite.y.toNat
      sprite.rows.val).memory }

/-- Draw sprites one after the other. -/
def overlayAll (machine : Machine) (sprites : List Sprite) : Machine :=
  sprites.foldl overlay machine

/-- The instruction that draws does this to the picture. -/
theorem memory_draw (machine : Machine) (x y : Register) (rows : Fin 16) :
    (machine.draw x y rows).memory =
      (machine.overlay ⟨machine.v.get x, machine.v.get y, machine.index, rows⟩).memory :=
  rfl

/-- Sprites are painting. -/
theorem painted_overlayAll (machine : Machine) (sprites : List Sprite) :
    Memory.Painted machine.memory (machine.overlayAll sprites).memory := by
  induction sprites generalizing machine with
  | nil => exact .refl machine.memory
  | cons sprite rest inductionHypothesis =>
    exact (machine.memory.painted_drawSprite _ _ _ _).trans
      (inductionHypothesis (machine.overlay sprite))

/-- After sprites the pixels that were flipped an odd number of times have changed, counted
on the memory that was there before them. -/
theorem pixel_overlayAll (machine : Machine) (sprites : List Sprite) (query : Nat)
    (apart : ∀ sprite ∈ sprites, sprite.Apart machine.memory)
    (inside : machine.memory.HasPixel query) :
    (machine.overlayAll sprites).memory.pixel query = (machine.memory.pixel query ^^
      ((sprites.flatMap fun sprite => sprite.flips machine.memory).count query).bodd) := by
  induction sprites generalizing machine with
  | nil => simp [overlayAll]
  | cons sprite rest inductionHypothesis =>
    obtain ⟨apartFirst, apartRest⟩ := List.forall_mem_cons.mp apart
    have painted : Memory.Painted machine.memory (machine.overlay sprite).memory :=
      machine.memory.painted_drawSprite _ _ _ _
    have later := inductionHypothesis (machine.overlay sprite)
      (fun other member => (other.flips_painted painted (apartRest other member)).2)
      ((painted.hasPixel_iff query).mpr inside)
    have same : ∀ other ∈ rest, other.flips (machine.overlay sprite).memory =
        other.flips machine.memory :=
      fun other member => (other.flips_painted painted (apartRest other member)).1
    have first : (machine.overlay sprite).memory.pixel query =
        (machine.memory.pixel query ^^ ((sprite.flips machine.memory).count query).bodd) := by
      rw [overlay, machine.memory.drawSprite_eq _ _ _ _ apartFirst]
      exact Memory.pixel_flips _ _ _ inside
    rw [List.flatMap_def, List.map_congr_left same, ← List.flatMap_def, first] at later
    rw [List.flatMap_cons, List.count_append, Nat.bodd_add, ← Bool.xor_assoc]
    exact later

/-- Lists of sprites that flip every pixel equally often, up to an even number, leave the
same memory. -/
theorem memory_overlayAll_eq (machine : Machine) (sprites others : List Sprite)
    (apart : ∀ sprite ∈ sprites, sprite.Apart machine.memory)
    (apartToo : ∀ sprite ∈ others, sprite.Apart machine.memory)
    (same : ∀ query,
      ((sprites.flatMap fun sprite => sprite.flips machine.memory).count query).bodd =
        ((others.flatMap fun sprite => sprite.flips machine.memory).count query).bodd) :
    (machine.overlayAll sprites).memory = (machine.overlayAll others).memory := by
  have painted := machine.painted_overlayAll sprites
  have paintedToo := machine.painted_overlayAll others
  apply painted.eq_of_pixels paintedToo
  intro query
  by_cases inside : machine.memory.HasPixel query
  · rw [machine.pixel_overlayAll sprites query apart inside,
      machine.pixel_overlayAll others query apartToo inside, same]
  · rw [Memory.pixel_outside _ _ (mt (painted.hasPixel_iff query).mp inside),
      Memory.pixel_outside _ _ (mt (paintedToo.hasPixel_iff query).mp inside)]

/-- Drawing sprites that lie outside the picture is addition without carry. Of the pixels
that the screen has, those change that an odd number of the sprites hit; the order of the
sprites does not matter; drawn twice they leave the picture that was there before. No byte
outside a mapped picture changes. -/
theorem overlays_add_up (machine : Machine) (sprites : List Sprite)
    (apart : ∀ sprite ∈ sprites, sprite.Apart machine.memory) :
    (∀ column < screenWidth, ∀ row < screenHeight,
      machine.memory.HasPixel (row * screenWidth + column) →
      ((machine.overlayAll sprites).memory.pixel (row * screenWidth + column) ≠
          machine.memory.pixel (row * screenWidth + column) ↔
        (sprites.countP fun sprite => sprite.Hits machine.memory column row) % 2 = 1)) ∧
      (∀ others, sprites.Perm others →
        (machine.overlayAll others).memory = (machine.overlayAll sprites).memory) ∧
      (machine.overlayAll (sprites ++ sprites)).memory = machine.memory ∧
      ∀ address, machine.memory.isDetached = true ∨ address < screenStart →
        (machine.overlayAll sprites).memory.read address = machine.memory.read address := by
  refine ⟨?_, ?_, ?_, (machine.painted_overlayAll sprites).read⟩
  · intro column across row _ inside
    rw [machine.pixel_overlayAll sprites _ apart inside,
      Sprite.count_flips_eq machine.memory sprites column row across, Nat.mod_two_of_bodd]
    cases (sprites.countP fun sprite => sprite.Hits machine.memory column row).bodd with
    | false => simp
    | true => simp
  · intro others reordered
    have apartToo : ∀ sprite ∈ others, sprite.Apart machine.memory :=
      fun sprite member => apart sprite (reordered.mem_iff.mpr member)
    apply machine.memory_overlayAll_eq others sprites apartToo apart
    intro query
    rw [(reordered.flatMap_right _).count_eq query]
  · have apartTwice : ∀ sprite ∈ sprites ++ sprites, sprite.Apart machine.memory := by
      intro sprite member
      exact apart sprite ((List.mem_append.mp member).elim id id)
    apply machine.memory_overlayAll_eq (sprites ++ sprites) [] apartTwice nofun
    intro query
    rw [List.flatMap_append, List.count_append, Nat.bodd_add, Bool.xor_self, List.flatMap_nil,
      List.count_nil, Nat.bodd_zero]

/-- The glyph of zero, and once more one column to the right. -/
def Sprite.shifted : List Sprite := [⟨0, 0, 0, 5⟩, ⟨1, 0, 0, 5⟩]

/-- On a new screen the first pixel is hit by one of these sprites and changes. The one
beside it is hit by both and does not. -/
theorem overlays_add_up_shifted :
    (∀ sprite ∈ Sprite.shifted, sprite.Apart initial.memory) ∧
      (initial.overlayAll Sprite.shifted).memory.pixel 0 ≠ initial.memory.pixel 0 ∧
      (initial.overlayAll Sprite.shifted).memory.pixel 1 = initial.memory.pixel 1 ∧
      (initial.overlayAll Sprite.shifted.reverse).memory =
        (initial.overlayAll Sprite.shifted).memory ∧
      (initial.overlayAll (Sprite.shifted ++ Sprite.shifted)).memory = initial.memory := by
  have apart : ∀ sprite ∈ Sprite.shifted, sprite.Apart initial.memory := by
    intro sprite member
    obtain rfl | rfl : sprite = ⟨0, 0, 0, 5⟩ ∨ sprite = ⟨1, 0, 0, 5⟩ := by
      simpa only [Sprite.shifted, List.mem_cons, List.not_mem_nil, or_false] using member
    · exact Memory.apart_of_outside _ _ _ (.inr (.inl (by decide)))
    · exact Memory.apart_of_outside _ _ _ (.inr (.inl (by decide)))
  have mapped : initial.memory.isDetached = false :=
    Memory.isDetached_writeList _ fontStart font
  have inside (column : Nat) (across : column < screenWidth) :
      initial.memory.HasPixel (0 * screenWidth + column) :=
    (initial.memory.hasPixel_iff column 0 across (by decide)).mpr fun detached => by
      rw [mapped] at detached
      cases detached
  have firstHits : Sprite.Hits ⟨0, 0, 0, 5⟩ initial.memory 0 0 :=
    ⟨0, by decide, 0, by decide, by decide, by decide, Memory.testBit_initial 0 (by decide)⟩
  have firstHitsToo : Sprite.Hits ⟨0, 0, 0, 5⟩ initial.memory 1 0 :=
    ⟨0, by decide, 1, by decide, by decide, by decide, Memory.testBit_initial 1 (by decide)⟩
  have secondHits : Sprite.Hits ⟨1, 0, 0, 5⟩ initial.memory 1 0 :=
    ⟨0, by decide, 0, by decide, by decide, by decide, Memory.testBit_initial 0 (by decide)⟩
  have secondMisses : ¬ Sprite.Hits ⟨1, 0, 0, 5⟩ initial.memory 0 0 := by
    have missed : ∀ c < 8, 0 ≠ (1 + c) % screenWidth := by decide
    rintro ⟨_, _, c, narrow, column, _, _⟩
    exact missed c narrow column
  obtain ⟨pixels, reordered, twice, _⟩ := overlays_add_up initial Sprite.shifted apart
  refine ⟨apart, ?_, ?_, reordered _ (List.reverse_perm _).symm, twice⟩
  · apply (pixels 0 (by decide) 0 (by decide) (inside 0 (by decide))).mpr
    simp [Sprite.shifted, firstHits, secondMisses]
  · have changes := pixels 1 (by decide) 0 (by decide) (inside 1 (by decide))
    have even : (Sprite.shifted.countP fun sprite => sprite.Hits initial.memory 1 0) % 2 ≠ 1 := by
      simp [Sprite.shifted, firstHitsToo, secondHits]
    exact not_not.mp (mt changes.mp even)

end Machine

end Chip8
