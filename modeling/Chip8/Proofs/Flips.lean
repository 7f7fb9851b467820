import Chip8.Proofs.Storage
import Mathlib.Data.Nat.Bitwise

/-!
# Flipped pixels

Drawing does nothing to a picture but flip pixels of it. One flip changes the bit of its
pixel and no other, wherever the screen is; a pixel that a short screen lacks stays dark.
So after any list of flips a pixel has changed exactly if the list names it an odd number
of times. A memory is determined by its bytes and its pixels, which turns statements about
pixels into statements about whole memories.
-/

namespace Chip8

namespace Frame

/-! ## Pixels of a byte -/

/-- The bit of a column is a power of two, the highest one for the first column. -/
theorem toNat_mask (column : Nat) : (mask column).toNat = 2 ^ (7 - column % 8) := by
  have powers : ∀ place < 8, (UInt8.ofNat (128 >>> place)).toNat = 2 ^ (7 - place) := by decide
  exact powers (column % 8) (Nat.mod_lt _ (by decide))

/-- A lit pixel is a set bit, counted from the highest one. -/
theorem lit_eq_testBit (byte : UInt8) (column : Nat) :
    lit byte column = byte.toNat.testBit (7 - column % 8) := by
  have positive : 0 < 2 ^ (7 - column % 8) := Nat.two_pow_pos _
  rw [Bool.eq_iff_iff, lit, bne_iff_ne, ne_eq, ← UInt8.toNat_inj, UInt8.toNat_and, toNat_mask,
    Nat.and_two_pow]
  cases byte.toNat.testBit (7 - column % 8) with
  | false => simp
  | true => simp

/-- The bit of a column is set in no other column of a byte. -/
theorem lit_mask (index column : Nat) :
    lit (mask index) column = decide (column % 8 = index % 8) := by
  rw [lit_eq_testBit, toNat_mask, Nat.testBit_two_pow, decide_eq_decide]
  omega

/-- Pixels are combined bit by bit. -/
theorem lit_xor (byte other : UInt8) (column : Nat) :
    lit (byte ^^^ other) column = (lit byte column ^^ lit other column) := by
  rw [lit_eq_testBit, lit_eq_testBit, lit_eq_testBit, UInt8.toNat_xor, Nat.testBit_xor]

/-- The eight pixels of a byte are all there is to it. -/
theorem eq_of_lit {byte other : UInt8} (same : ∀ column < 8, lit byte column = lit other column) :
    byte = other := by
  apply UInt8.toNat_inj.mp
  apply Nat.eq_of_testBit_eq
  intro place
  by_cases inside : place < 8
  · have pixel := same (7 - place) (by omega)
    have turned : 7 - (7 - place) % 8 = place := by omega
    rwa [lit_eq_testBit, lit_eq_testBit, turned] at pixel
  · have wide : 2 ^ 8 ≤ 2 ^ place := Nat.pow_le_pow_right (by decide) (Nat.le_of_not_lt inside)
    rw [Nat.testBit_lt_two_pow (Nat.lt_of_lt_of_le byte.toNat_lt wide),
      Nat.testBit_lt_two_pow (Nat.lt_of_lt_of_le other.toNat_lt wide)]

end Frame

namespace Memory

/-! ## Pixels of a memory -/

/-- The screen has the pixel with a number. -/
def HasPixel (memory : Memory) (index : Nat) : Prop := index / 8 < memory.frame.size

instance (memory : Memory) (index : Nat) : Decidable (memory.HasPixel index) :=
  inferInstanceAs (Decidable (index / 8 < memory.frame.size))

/-- The pixel with a number is lit on the screen. -/
def pixel (memory : Memory) (index : Nat) : Bool := Frame.pixel memory.frame index

/-- A pixel is a bit of one of the picture's bytes. -/
theorem pixel_eq (memory : Memory) (index : Nat) :
    memory.pixel index = Frame.lit (memory.readScreen (index / 8)) index := by
  rw [readScreen_eq]
  rfl

/-- Pixels that the screen lacks are dark. -/
theorem pixel_outside (memory : Memory) (index : Nat) (outside : ¬ memory.HasPixel index) :
    memory.pixel index = false := by
  have missing : memory.frame[index / 8]? = none :=
    Array.getElem?_eq_none (Nat.le_of_not_lt outside)
  rw [pixel, Frame.pixel, missing, Frame.lit_eq_testBit]
  exact Nat.zero_testBit _

/-- Painting does not change the size of the picture. -/
theorem Painted.size_frame {before after : Memory} (painted : Painted before after) :
    after.frame.size = before.frame.size := by
  have place := painted.place
  cases detached : before.isDetached with
  | true => rw [frame_size_detached _ (place.trans detached), frame_size_detached _ detached]
  | false => rw [frame_size_mapped _ (place.trans detached), frame_size_mapped _ detached]

/-- Painting leaves the screen the pixels it has. -/
theorem Painted.hasPixel_iff {before after : Memory} (painted : Painted before after)
    (index : Nat) : after.HasPixel index ↔ before.HasPixel index := by
  rw [HasPixel, HasPixel, painted.size_frame]

/-- A memory is what is read of it: its bytes, and its picture where that lies beside
them. -/
theorem eq_of_views {memory other : Memory} (place : other.isDetached = memory.isDetached)
    (read : ∀ address, other.read address = memory.read address)
    (readScreen : ∀ index, other.readScreen index = memory.readScreen index) :
    other = memory := by
  obtain ⟨bytes, screen⟩ := memory
  obtain ⟨otherBytes, otherScreen⟩ := other
  have sameBytes : otherBytes = bytes := by
    apply Vector.ext
    intro address inside
    have byte := read address
    simpa only [Memory.read, Vector.getElem?_eq_getElem inside, Option.getD_some] using byte
  subst sameBytes
  cases screen with
  | mapped =>
    obtain rfl : otherScreen = .mapped := (isDetached_eq_false_iff _).mp place
    rfl
  | detached buffer =>
    cases otherScreen with
    | mapped => cases place
    | detached otherBuffer =>
      have sameBuffer : otherBuffer = buffer := by
        apply Vector.ext
        intro index inside
        have byte := readScreen index
        simpa only [Memory.readScreen, Vector.getElem?_eq_getElem inside, Option.getD_some]
          using byte
      rw [sameBuffer]

/-- What was painted over one memory in two ways is the same if its pixels are. -/
theorem Painted.eq_of_pixels {memory first second : Memory} (one : Painted memory first)
    (other : Painted memory second)
    (pixels : ∀ index, first.pixel index = second.pixel index) : first = second := by
  have screen (index : Nat) : first.readScreen index = second.readScreen index := by
    apply Frame.eq_of_lit
    intro column inside
    have pixel := pixels (8 * index + column)
    have byte : (8 * index + column) / 8 = index := by omega
    have within : (8 * index + column) % 8 = column % 8 := by omega
    rwa [pixel_eq, pixel_eq, byte, Frame.lit_eq_testBit, Frame.lit_eq_testBit, within,
      ← Frame.lit_eq_testBit, ← Frame.lit_eq_testBit] at pixel
  refine eq_of_views (one.place.trans other.place.symm) (fun address => ?_) screen
  by_cases covered : memory.isDetached = true ∨ address < screenStart
  · rw [one.read address covered, other.read address covered]
  · -- Such a byte is one of the picture, which has its place in memory.
    obtain ⟨attached, within⟩ := not_or.mp covered
    have mapped := Bool.eq_false_iff.mpr attached
    have behind : screenStart + (address - screenStart) = address := by omega
    have byte := screen (address - screenStart)
    simp only [readScreen, (isDetached_eq_false_iff first).mp (one.place.trans mapped),
      (isDetached_eq_false_iff second).mp (other.place.trans mapped), behind] at byte
    exact byte

/-! ## Flips -/

/-- A flip changes its own pixel and no other, if the screen has that pixel. -/
theorem pixel_flip (drawn : Drawn) (index query : Nat) :
    (flip drawn index).memory.pixel query =
      (drawn.memory.pixel query ^^
        decide (drawn.memory.HasPixel query ∧ query = index)) := by
  rw [pixel_eq, pixel_eq, flip, readScreen_writeScreen]
  by_cases written : index / 8 = query / 8 ∧ query / 8 < drawn.memory.frame.size
  · obtain ⟨sameByte, inside⟩ := written
    have same : query % 8 = index % 8 ↔ drawn.memory.HasPixel query ∧ query = index := by
      constructor
      · intro sameColumn
        exact ⟨inside, by omega⟩
      · rintro ⟨_, rfl⟩
        rfl
    rw [if_pos ⟨sameByte, inside⟩, Frame.lit_xor, Frame.lit_mask, sameByte, decide_eq_decide.mpr same]
  · have other : ¬ (drawn.memory.HasPixel query ∧ query = index) := by
      rintro ⟨inside, rfl⟩
      exact written ⟨rfl, inside⟩
    rw [if_neg written, decide_eq_false other, Bool.xor_false]

/-- A flip tells whether its pixel was lit. -/
theorem collision_flip (drawn : Drawn) (index : Nat) :
    (flip drawn index).collision = (drawn.collision || drawn.memory.pixel index) := by
  rw [pixel_eq]
  rfl

/-- After flips the pixels that were flipped an odd number of times have changed. -/
theorem pixel_flips (drawn : Drawn) (indexes : List Nat) (query : Nat)
    (inside : drawn.memory.HasPixel query) :
    (indexes.foldl flip drawn).memory.pixel query =
      (drawn.memory.pixel query ^^ (indexes.count query).bodd) := by
  induction indexes generalizing drawn with
  | nil => simp
  | cons index rest inductionHypothesis =>
    have insideThen := ((painted_flip drawn index).hasPixel_iff query).mpr inside
    have first : decide (drawn.memory.HasPixel query ∧ query = index) =
        (if index == query then 1 else 0 : Nat).bodd := by
      by_cases same : query = index
      · subst same
        simp [inside]
      · simp [same, Ne.symm same]
    rw [List.foldl_cons, inductionHypothesis (flip drawn index) insideThen, pixel_flip, first,
      List.count_cons, Nat.bodd_add, Bool.xor_assoc, Bool.xor_comm (rest.count query).bodd]

/-- Flips of different pixels tell whether one of these was lit before any of them. -/
theorem collision_flips (drawn : Drawn) (indexes : List Nat) (distinct : indexes.Nodup) :
    (indexes.foldl flip drawn).collision =
      (drawn.collision || indexes.any drawn.memory.pixel) := by
  induction indexes generalizing drawn with
  | nil => simp
  | cons index rest inductionHypothesis =>
    obtain ⟨once, distinctRest⟩ := List.nodup_cons.mp distinct
    have kept : ∀ other ∈ rest,
        (flip drawn index).memory.pixel other = drawn.memory.pixel other := by
      intro other member
      have apart : other ≠ index := fun same => once (same ▸ member)
      rw [pixel_flip, decide_eq_false fun both => apart both.2, Bool.xor_false]
    have unseen : rest.any (flip drawn index).memory.pixel =
        rest.any drawn.memory.pixel := by
      rw [Bool.eq_iff_iff, List.any_eq_true, List.any_eq_true]
      constructor
      · rintro ⟨other, member, lit⟩
        exact ⟨other, member, (kept other member).symm.trans lit⟩
      · rintro ⟨other, member, lit⟩
        exact ⟨other, member, (kept other member).trans lit⟩
    rw [List.foldl_cons, inductionHypothesis (flip drawn index) distinctRest, collision_flip,
      unseen, List.any_cons, Bool.or_assoc]

end Memory

end Chip8
