import Chip8.Proofs.Runs

/-!
# A machine with its first program

A new machine runs nothing until a program is loaded. Its first program is copied to
the place where programs start, unless it would reach the picture, and nothing else
of the machine changes. The call stack lies before the picture, so a copied program
may still cover places that calls will write to.
-/

namespace Chip8

namespace Memory

/-- A new machine's screen is in memory. -/
theorem screen_initial : initial.screen = .mapped := by
  rw [initial, screen_writeList]

/-- A screen that is in memory stays as it is. -/
theorem attachScreen_initial : initial.attachScreen = initial := by
  simp only [attachScreen, screen_initial]

/-- A program's bytes are found from the start of programs on, as far as memory goes. -/
theorem read_loadProgram (memory : Memory) (program : List UInt8) (index : Nat) (byte : UInt8)
    (found : program[index]? = some byte) (inMemory : programStart + index < memorySize) :
    (memory.loadProgram program).read (programStart + index) = byte := by
  rw [loadProgram, read_writeList, if_pos ⟨Nat.le_add_right _ _, inMemory⟩,
    Nat.add_sub_cancel_left, found, Option.getD_some]

end Memory

namespace Machine

/-- A first program that does not reach the picture is copied, and only its bytes and
its length are new. -/
theorem load_initial (program : List UInt8) (copied : program.length < programLimit) :
    initial.load program = { initial with
      memory := Memory.initial.loadProgram program
      programSize := some program.length } := by
  have placed : place Memory.initial program = Memory.initial.loadProgram program := by
    rw [place, if_neg (Nat.not_le_of_lt copied), Memory.attachScreen_initial]
  have ready : initial.load program = { initial with
      memory := place Memory.initial program
      programSize := some program.length } := rfl
  rw [ready, placed]

/-- The bytes of a copied program are those it was loaded with. -/
theorem read_load_initial (program : List UInt8) (copied : program.length < programLimit)
    (index : Nat) (byte : UInt8) (found : program[index]? = some byte) :
    (initial.load program).memory.read (programStart + index) = byte := by
  have inside : index < program.length := (List.getElem?_eq_some_iff.mp found).1
  rw [load_initial program copied]
  apply Memory.read_loadProgram _ _ _ _ found
  simp only [programLimit, screenStart, programStart, memorySize] at copied ⊢
  omega

/-- A word of a copied program is made of two of its bytes. -/
theorem word_load_initial (program : List UInt8) (copied : program.length < programLimit)
    (index : Nat) (high low : UInt8) (first : program[index]? = some high)
    (second : program[index + 1]? = some low) :
    (initial.load program).memory.word (programStart + index) =
      .ofNat (256 * high.toNat + low.toNat) := by
  have upper := read_load_initial program copied index high first
  have lower := read_load_initial program copied (index + 1) low second
  rw [Memory.word, upper, Nat.add_assoc, lower]

end Machine

namespace System

/-- A new machine with its first program, and the generator it draws from. -/
def starting (program : List UInt8) (generator : Generator) : System :=
  ⟨Machine.initial.load program, generator⟩

/-- A machine about to set a register, which is all that its program does, with a sound
timer and a count of ticks. -/
def brief (sound : UInt8) (ticks : UInt32) : System :=
  ⟨{ Machine.initial.load [0x60, 0x05] with sound := sound, ticks := ticks }, .ofSeed 0⟩

/-- It sets the register in its next step. -/
theorem brief_stepped (sound : UInt8) (ticks : UInt32) :
    (brief sound ticks).stepped = ⟨.ok (.executed 0x6005),
      ((brief sound ticks).machine.fetched.setRegister 0 5).tick, .ofSeed 0⟩ := by
  have copied : [0x60, 0x05].length < programLimit := by decide
  have word : (Machine.initial.load [0x60, 0x05]).memory.word 0x200 = 0x6005 :=
    (Machine.word_load_initial _ copied 0 0x60 0x05 rfl rfl).trans (by decide)
  have counter : (brief sound ticks).machine.pc = 0x200 := rfl
  have inside : (brief sound ticks).machine.InProgram := ⟨2, rfl, by rw [counter]; decide⟩
  exact (brief sound ticks).machine.step_of_opcode (.ofSeed 0) 0x6005 inside word (by decide)
    (.setByte 0 5) rfl _ _ rfl

/-- The step after that one finds the program at its end. -/
theorem brief_next_stepped (sound : UInt8) (ticks : UInt32) :
    (brief sound ticks).next.stepped =
      ⟨.ok (.halted .outside 0x202), (brief sound ticks).next.machine, .ofSeed 0⟩ := by
  have after : (brief sound ticks).next =
      ⟨((brief sound ticks).machine.fetched.setRegister 0 5).tick, .ofSeed 0⟩ := by
    rw [next, brief_stepped]
  have counter : (brief sound ticks).next.machine.pc = 0x202 := by
    rw [after, Machine.tick_eq]
    rfl
  have loaded : (brief sound ticks).next.machine.programSize = some 2 := by
    rw [after, Machine.tick_eq]
    rfl
  have drawn : (brief sound ticks).next.generator = .ofSeed 0 := by rw [after]
  have halted := (brief sound ticks).next.machine.step_of_past (.ofSeed 0) 2 loaded
    (by rw [counter]; decide)
  rw [counter] at halted
  rw [stepped, drawn, halted]

end System

end Chip8
