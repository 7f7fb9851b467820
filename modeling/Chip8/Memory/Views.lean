import Chip8.Memory.Basic

/-!
# What is read after a write

Bytes and pixels are read from the same storage. Each law says what one view
shows after one write: the written bytes where the write reached, and what was
there before at every other place. Writes past the end reach nothing.
-/

namespace Chip8.Memory

/-- Past the end every byte is zero. -/
theorem read_eq_zero (memory : Memory) (address : Nat) (outside : memorySize ≤ address) :
    memory.read address = 0 := by
  simp [read, Vector.getElem?_eq_none outside]

/-- A write shows at its own address alone. -/
theorem read_write (memory : Memory) (address query : Nat) (value : UInt8) :
    (memory.write address value).read query =
      if address = query ∧ query < memorySize then value else memory.read query := by
  simp only [write, read, Vector.getElem?_setIfInBounds]
  grind

/-- Consecutive bytes show from the first address on, as far as memory goes. -/
theorem read_writeList (memory : Memory) (address query : Nat) (values : List UInt8) :
    (memory.writeList address values).read query =
      if address ≤ query ∧ query < memorySize then
        values[query - address]?.getD (memory.read query)
      else memory.read query := by
  induction values generalizing memory address with
  | nil => simp [writeList]
  | cons value rest inductionHypothesis =>
    rw [writeList, inductionHypothesis, read_write]
    by_cases first : address = query
    · subst first
      have past : ¬ (address + 1 ≤ address ∧ address < memorySize) := by omega
      rw [if_neg past]
      simp
    · by_cases later : address + 1 ≤ query
      · have shifted : query - address = query - (address + 1) + 1 := by omega
        grind
      · grind

/-- Writing bytes does not move the screen. -/
theorem screen_writeList (memory : Memory) (address : Nat) (values : List UInt8) :
    (memory.writeList address values).screen = memory.screen := by
  induction values generalizing memory address with
  | nil => rfl
  | cons value rest inductionHypothesis =>
    rw [writeList, inductionHypothesis]
    rfl

/-- The picture's bytes are those of its frame, and zero behind them. -/
theorem readScreen_eq (memory : Memory) (index : Nat) :
    memory.readScreen index = memory.frame[index]?.getD 0 := by
  rcases memory with ⟨bytes, screen⟩
  cases screen with
  | mapped =>
    simp only [readScreen, frame, slice, read]
    simp [Array.getElem?_extract]
    split <;> grind
  | detached buffer => simp [readScreen, frame]

/-- A write to the picture shows at its own index alone. -/
theorem readScreen_writeScreen (memory : Memory) (index query : Nat) (value : UInt8) :
    (memory.writeScreen index value).readScreen query =
      if index = query ∧ query < memory.frame.size then value else memory.readScreen query := by
  rcases memory with ⟨bytes, screen⟩
  cases screen with
  | mapped =>
    simp only [writeScreen, readScreen, read, frame, slice, Vector.getElem?_setIfInBounds]
    grind
  | detached buffer =>
    simp only [writeScreen, readScreen, frame, Vector.getElem?_setIfInBounds]
    grind

end Chip8.Memory
