import Chip8.Machine.Sprite
import Chip8.Memory.Views

/-!
# What writers of memory leave alone

The font, the program, the call stack and a mapped picture share their bytes, so
every writer comes with the places it cannot reach. A list of bytes reaches the
addresses it covers and a stack slot its own two bytes. Painting reaches the
picture: bytes from `0xF00` on while the screen is mapped, and no byte at all
once the screen is a buffer of its own. `Painted` states this for one pixel and
is carried through rows and sprites.
-/

namespace Chip8.Memory

/-! ## Bytes and slots -/

/-- A list of bytes does not show outside the addresses it covers. -/
theorem read_writeList_outside (memory : Memory) (address query : Nat) (values : List UInt8)
    (outside : query < address ∨ address + values.length ≤ query) :
    (memory.writeList address values).read query = memory.read query := by
  rw [read_writeList]
  split
  · have past : values[query - address]? = none := List.getElem?_eq_none (by omega)
    rw [past]
    rfl
  · rfl

/-- A stack slot is two bytes; no other byte shows what is put into it. -/
theorem read_setSlot_outside (memory : Memory) (index query : Nat) (value : UInt16)
    (first : query ≠ slotAddress index) (second : query ≠ slotAddress index + 1) :
    (memory.setSlot index value).read query = memory.read query := by
  apply read_writeList_outside
  simp only [List.length_cons, List.length_nil]
  omega

/-- Words before the call stack show nothing of what is put into it. -/
theorem word_setSlot (memory : Memory) (index address : Nat) (value : UInt16)
    (before : address + 1 < stackStart) :
    (memory.setSlot index value).word address = memory.word address := by
  have beyond : stackStart ≤ slotAddress index := Nat.le_add_right _ _
  have high : (memory.setSlot index value).read address = memory.read address :=
    read_setSlot_outside memory index address value (by omega) (by omega)
  have low : (memory.setSlot index value).read (address + 1) = memory.read (address + 1) :=
    read_setSlot_outside memory index (address + 1) value (by omega) (by omega)
  rw [word, word, high, low]

/-- Both bytes of a stack slot lie before the picture. -/
theorem slotAddress_lt_screenStart (index : Nat) (inside : index < stackSlots) :
    slotAddress index + 1 < screenStart := by
  simp only [slotAddress, stackStart, stackSlots, screenStart] at inside ⊢
  omega

/-- A return address comes back from its slot as it was put there: the byte order
of writing is that of reading, and the call stack lies within memory. -/
theorem slot_setSlot (memory : Memory) (index : Nat) (value : UInt16)
    (inside : index < stackSlots) : (memory.setSlot index value).slot index = value := by
  have bound : value.toNat < 65536 := value.toNat_lt
  have inMemory : slotAddress index + 1 < memorySize :=
    Nat.lt_trans (slotAddress_lt_screenStart index inside) (by decide)
  have low : (memory.setSlot index value).read (slotAddress index) = .ofNat value.toNat := by
    rw [setSlot, read_writeList, if_pos (by omega)]
    simp
  have high : (memory.setSlot index value).read (slotAddress index + 1) =
      .ofNat (value.toNat / 256) := by
    rw [setSlot, read_writeList, if_pos (by omega)]
    simp
  have split : value.toNat % 256 + 256 * (value.toNat / 256 % 256) = value.toNat := by omega
  rw [slot, low, high, UInt8.toNat_ofNat', UInt8.toNat_ofNat', split, UInt16.ofNat_toNat]

/-- Two bytes that stay keep the return address they hold. -/
theorem slot_congr {before after : Memory} (index : Nat)
    (low : after.read (slotAddress index) = before.read (slotAddress index))
    (high : after.read (slotAddress index + 1) = before.read (slotAddress index + 1)) :
    after.slot index = before.slot index := by
  rw [slot, slot, low, high]

/-- What is put into a slot does not show in the slots below. -/
theorem slot_setSlot_below (memory : Memory) (index below : Nat) (value : UInt16)
    (under : below < index) : (memory.setSlot index value).slot below = memory.slot below := by
  have apart : slotAddress below + 1 < slotAddress index := by
    unfold slotAddress
    omega
  apply slot_congr
  · exact read_setSlot_outside memory index _ value (by omega) (by omega)
  · exact read_setSlot_outside memory index _ value (by omega) (by omega)

/-- Writing bytes moves no screen out of memory and none into it. -/
theorem isDetached_writeList (memory : Memory) (address : Nat) (values : List UInt8) :
    (memory.writeList address values).isDetached = memory.isDetached := by
  rw [isDetached, isDetached, screen_writeList]

/-! ## Painting -/

/-- Nothing but the picture differs: the screen is where it was, and every byte
that no picture covers holds what it held. -/
structure Painted (before after : Memory) : Prop where
  place : after.isDetached = before.isDetached
  read : ∀ address, before.isDetached = true ∨ address < screenStart →
    after.read address = before.read address

/-- Not painting at all is painting. -/
theorem Painted.refl (memory : Memory) : Painted memory memory := ⟨rfl, fun _ _ => rfl⟩

/-- What painting leaves alone, painting again leaves alone. -/
theorem Painted.trans {first second third : Memory} (before : Painted first second)
    (after : Painted second third) : Painted first third where
  place := after.place.trans before.place
  read address covered := by
    rw [after.read address (by rwa [before.place]), before.read address covered]

/-- A byte of the picture is written in the picture. -/
theorem painted_writeScreen (memory : Memory) (index : Nat) (value : UInt8) :
    Painted memory (memory.writeScreen index value) := by
  rcases memory with ⟨bytes, screen⟩
  cases screen with
  | mapped =>
    refine ⟨rfl, fun address covered => ?_⟩
    have below : address < screenStart := by simpa [isDetached] using covered
    have other : screenStart + index ≠ address := by omega
    simp only [writeScreen, read, Vector.getElem?_setIfInBounds_ne other]
  | detached buffer => exact ⟨rfl, fun _ _ => rfl⟩

/-- Consecutive bytes of the picture are written in the picture. -/
theorem painted_writeScreenList (memory : Memory) (index : Nat) (values : List UInt8) :
    Painted memory (memory.writeScreenList index values) := by
  induction values generalizing memory index with
  | nil => exact .refl memory
  | cons value rest inductionHypothesis =>
    exact (painted_writeScreen memory index value).trans (inductionHypothesis _ _)

/-- Turning every pixel off is painting. -/
theorem painted_clearScreen (memory : Memory) : Painted memory memory.clearScreen :=
  painted_writeScreenList memory 0 _

/-- Flipping a pixel is painting. -/
theorem painted_flip (drawn : Drawn) (index : Nat) :
    Painted drawn.memory (flip drawn index).memory :=
  painted_writeScreen drawn.memory _ _

/-- Drawing a sprite row is painting, pixel by pixel. -/
theorem painted_drawRow (drawn : Drawn) (row : UInt8) (x y : Nat) :
    Painted drawn.memory (drawRow drawn row x y).memory := by
  refine List.foldlRecOn (motive := fun later : Drawn => Painted drawn.memory later.memory) _ _ ?_ ?_
  · exact .refl drawn.memory
  · intro later painted column _
    split
    · exact painted.trans (painted_flip later _)
    · exact painted

/-- Drawing a sprite is painting, row by row. That a row is read from memory when
its turn comes does not matter for where it is painted. -/
theorem painted_drawSprite (memory : Memory) (address x y rows : Nat) :
    Painted memory (memory.drawSprite address x y rows).memory := by
  refine List.foldlRecOn (motive := fun later : Drawn => Painted memory later.memory) _ _ ?_ ?_
  · exact .refl memory
  · intro later painted row _
    exact painted.trans (painted_drawRow later _ _ _)

/-! ## The picture -/

/-- Afterwards the screen is in memory, wherever it was. -/
theorem isDetached_attachScreen (memory : Memory) : memory.attachScreen.isDetached = false := by
  rcases memory with ⟨bytes, screen⟩
  cases screen with
  | mapped => rfl
  | detached buffer => exact (painted_clearScreen ⟨bytes, .mapped⟩).place

/-- The screen is in memory unless it is a buffer of its own. -/
theorem isDetached_eq_false_iff (memory : Memory) :
    memory.isDetached = false ↔ memory.screen = .mapped := by
  rw [isDetached]
  cases memory.screen with
  | mapped => simp
  | detached buffer => simp

/-- Afterwards nothing of the screen beside memory is left. -/
theorem screen_attachScreen (memory : Memory) : memory.attachScreen.screen = .mapped :=
  (isDetached_eq_false_iff _).mp (isDetached_attachScreen memory)

/-- A screen beside memory shows one byte less than a whole picture. -/
theorem frame_size_detached (memory : Memory) (detached : memory.isDetached = true) :
    memory.frame.size = detachedSize := by
  rcases memory with ⟨bytes, screen⟩
  cases screen with
  | mapped => simp [isDetached] at detached
  | detached buffer => exact buffer.size_toArray

/-- A mapped screen shows a whole picture. -/
theorem frame_size_mapped (memory : Memory) (mapped : memory.isDetached = false) :
    memory.frame.size = screenSize := by
  rcases memory with ⟨bytes, screen⟩
  cases screen with
  | mapped => simp [frame, slice, screenStart, screenSize, memorySize]
  | detached buffer => simp [isDetached] at mapped

/-- The bytes of a mapped screen are the last ones of memory. -/
theorem getElem?_frame_mapped (memory : Memory) (mapped : memory.isDetached = false)
    (index : Nat) (inside : index < screenSize) :
    memory.frame[index]? = some (memory.read (screenStart + index)) := by
  rcases memory with ⟨bytes, screen⟩
  cases screen with
  | mapped =>
    have layout : screenStart + screenSize = memorySize := rfl
    have start : min screenStart memorySize = screenStart := rfl
    have inMemory : screenStart + index < memorySize := by omega
    simp only [frame, slice, read, Array.getElem?_extract, layout, start, Nat.min_self,
      Vector.getElem?_toArray, Vector.size_toArray, Vector.getElem?_eq_getElem inMemory,
      Option.getD_some]
    exact if_pos (by omega)
  | detached buffer => simp [isDetached] at mapped

/-! ## Clearing -/

/-- Zeros show where they were written. Past the end every byte is zero anyway, so it
does not matter where memory ends. -/
theorem read_writeList_zeros (memory : Memory) (address query count : Nat) :
    (memory.writeList address (.replicate count 0)).read query =
      if address ≤ query ∧ query < address + count then 0 else memory.read query := by
  by_cases inMemory : query < memorySize
  · rw [read_writeList]
    grind
  · have outside := Nat.le_of_not_lt inMemory
    rw [read_eq_zero _ _ outside, read_eq_zero _ _ outside, ite_self]

/-- Clearing the stack zeroes its bytes, which end where the picture begins. -/
theorem read_clearStack (memory : Memory) (address : Nat) :
    memory.clearStack.read address =
      if stackStart ≤ address ∧ address < screenStart then 0 else memory.read address :=
  read_writeList_zeros memory stackStart address (2 * stackSlots)

/-- Bytes of a mapped picture are bytes of memory. -/
theorem writeScreenList_mapped (memory : Memory) (index : Nat) (values : List UInt8)
    (mapped : memory.screen = .mapped) :
    memory.writeScreenList index values = memory.writeList (screenStart + index) values := by
  induction values generalizing memory index with
  | nil => rfl
  | cons value rest inductionHypothesis =>
    have first : memory.writeScreen index value = memory.write (screenStart + index) value := by
      rcases memory with ⟨bytes, screen⟩
      obtain rfl : screen = .mapped := mapped
      rfl
    have later := inductionHypothesis (memory.write (screenStart + index) value) (index + 1) mapped
    rw [writeScreenList, writeList, first, later, Nat.add_assoc]

/-- Turning every pixel off zeroes the picture's bytes of memory, if it has any. -/
theorem read_clearScreen (memory : Memory) (address : Nat) :
    memory.clearScreen.read address =
      if memory.isDetached = false ∧ screenStart ≤ address ∧ address < memorySize then 0
      else memory.read address := by
  cases place : memory.isDetached with
  | true =>
    rw [if_neg (by simp)]
    exact (painted_clearScreen memory).read address (.inl place)
  | false =>
    have mapped := (isDetached_eq_false_iff memory).mp place
    have zeros := read_writeList_zeros memory screenStart address screenSize
    rw [clearScreen, writeScreenList_mapped memory 0 _ mapped, Nat.add_zero, zeros]
    simp only [true_and]
    rfl

/-- Putting a detached screen back zeroes the bytes that it comes to lie on. -/
theorem read_attachScreen (memory : Memory) (address : Nat) :
    memory.attachScreen.read address =
      if memory.isDetached = true ∧ screenStart ≤ address ∧ address < memorySize then 0
      else memory.read address := by
  rcases memory with ⟨bytes, screen⟩
  cases screen with
  | mapped => simp [attachScreen, isDetached]
  | detached buffer =>
    have cleared := read_clearScreen ⟨bytes, .mapped⟩ address
    simp only [isDetached, true_and] at cleared ⊢
    exact cleared

end Chip8.Memory
