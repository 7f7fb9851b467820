import Chip8.Proofs.Loading
import Chip8.Proofs.Hosting

/-!
# What loading a program changes

A machine's first program finds it as the host left it, every later one finds it reset.
Whether the program is copied or the screen is moved beside memory depends on the
program's length alone, so that a reset machine can have its picture in either place.
Each byte of memory is told apart by where it lies: a copied program covers its own
place, which may reach into the call stack but not into the picture. Resetting clears
the stack and a picture in memory, putting the screen back clears the picture, and
everything else is left from before.
-/

namespace Chip8

/-- The program is copied to memory, and one of its bytes comes to lie at the address. -/
def Covers (program : List UInt8) (address : Nat) : Prop :=
  program.length < programLimit ∧ programStart ≤ address ∧
    address < programStart + program.length

namespace Machine

/-- Loading clears the picture's place in memory: the screen is put back there, or it was
there when the machine was reset. -/
def clearsPicture (machine : Machine) (program : List UInt8) : Bool :=
  if machine.memory.isDetached then program.length < programLimit
  else machine.programSize.isSome

/-! ## Placing a program -/

/-- A program that is not too long is copied behind a screen in memory. -/
theorem place_of_short (memory : Memory) (program : List UInt8)
    (copied : program.length < programLimit) :
    place memory program = memory.attachScreen.loadProgram program :=
  if_neg (Nat.not_le_of_lt copied)

/-- Of a program that is too long nothing is copied. -/
theorem place_of_long (memory : Memory) (program : List UInt8)
    (long : programLimit ≤ program.length) : place memory program = memory.detachScreen :=
  if_pos long

/-- The bytes of a copied program are found where it was put. -/
theorem read_place_covered (memory : Memory) (program : List UInt8)
    (copied : program.length < programLimit) (index : Fin program.length) :
    (place memory program).read (programStart + index.val) = program.get index := by
  have inside : index.val < program.length := index.isLt
  rw [place_of_short memory program copied]
  apply Memory.read_loadProgram _ _ _ _ (List.getElem?_eq_getElem inside)
  simp only [programLimit, screenStart, programStart, memorySize] at copied ⊢
  omega

/-- Beside the program, placing it changes the picture's bytes only, and these only where
the screen comes back to them. -/
theorem read_place_uncovered (memory : Memory) (program : List UInt8) (address : Nat)
    (uncovered : ¬ Covers program address) :
    (place memory program).read address =
      if (memory.isDetached = true ∧ program.length < programLimit) ∧
          screenStart ≤ address ∧ address < memorySize then 0
      else memory.read address := by
  by_cases copied : program.length < programLimit
  · have outside : address < programStart ∨ programStart + program.length ≤ address := by
      have apart : ¬ (programStart ≤ address ∧ address < programStart + program.length) :=
        fun inside => uncovered ⟨copied, inside⟩
      omega
    rw [place_of_short memory program copied, Memory.loadProgram,
      Memory.read_writeList_outside _ _ _ _ outside, Memory.read_attachScreen]
    simp only [copied, and_true]
  · rw [place_of_long memory program (Nat.le_of_not_lt copied),
      if_neg (fun back => copied back.1.2)]
    rfl

/-- Where the screen is after a program was placed, and that it is dark beside memory. -/
theorem screen_place (memory : Memory) (program : List UInt8) :
    (place memory program).screen =
      if program.length < programLimit then .mapped
      else .detached (.replicate detachedSize 0) := by
  by_cases copied : program.length < programLimit
  · rw [place_of_short memory program copied, if_pos copied, Memory.loadProgram,
      Memory.screen_writeList, Memory.screen_attachScreen]
  · rw [place_of_long memory program (Nat.le_of_not_lt copied), if_neg copied]
    rfl

/-! ## Resetting -/

/-- Resetting clears the stack, and the picture if it is in memory. -/
theorem read_reset (machine : Machine) (address : Nat) :
    machine.reset.memory.read address =
      if stackStart ≤ address ∧ address < screenStart then 0
      else if machine.memory.isDetached = false ∧ screenStart ≤ address ∧ address < memorySize
        then 0
      else machine.memory.read address := by
  simp only [reset, Memory.read_clearStack, Memory.read_clearScreen]

/-! ## Loading -/

/-- A first program is placed in the machine's memory as it is. -/
theorem load_of_first (machine : Machine) (program : List UInt8)
    (first : machine.programSize.isNone = true) :
    machine.load program = { machine with
      memory := place machine.memory program, programSize := some program.length } := by
  simp only [load, first, if_true]

/-- A later program is placed in a machine that was reset. -/
theorem load_of_later (machine : Machine) (program : List UInt8)
    (later : machine.programSize.isNone = false) :
    machine.load program = { machine.reset with
      memory := place machine.reset.memory program, programSize := some program.length } := by
  simp only [load, later, Bool.false_eq_true, if_false]

/-- What loading leaves in memory beside the program that it copies. -/
theorem read_load_uncovered (machine : Machine) (program : List UInt8) (address : Nat)
    (uncovered : ¬ Covers program address) :
    (machine.load program).memory.read address =
      if stackStart ≤ address ∧ address < screenStart then
        if machine.programSize.isNone then machine.memory.read address else 0
      else if screenStart ≤ address ∧ address < memorySize then
        if machine.clearsPicture program then 0 else machine.memory.read address
      else machine.memory.read address := by
  have layout : stackStart < screenStart := by decide
  cases first : machine.programSize.isNone with
  | true =>
    have none : machine.programSize.isSome = false := by simpa using first
    rw [load_of_first machine program first, read_place_uncovered _ _ _ uncovered]
    cases place : machine.memory.isDetached with
    | true =>
      simp only [clearsPicture, place]
      grind
    | false =>
      simp only [clearsPicture, place]
      grind
  | false =>
    have some : machine.programSize.isSome = true := by simpa using first
    rw [load_of_later machine program first, read_place_uncovered _ _ _ uncovered, read_reset,
      isDetached_reset]
    cases place : machine.memory.isDetached with
    | true =>
      simp only [clearsPicture, place]
      grind
    | false =>
      simp only [clearsPicture, place]
      grind

/-- Loading a program moves neither the program counter nor a key. -/
theorem load_keeps (machine : Machine) (program : List UInt8) :
    (machine.load program).pc = machine.pc ∧ (machine.load program).keys = machine.keys := by
  cases first : machine.programSize.isNone with
  | true =>
    rw [load_of_first machine program first]
    exact ⟨rfl, rfl⟩
  | false =>
    rw [load_of_later machine program first]
    simp only [reset, and_self]

/-- What a program inherits: all of it if it is the first, and else nothing. -/
theorem load_inherits (machine : Machine) (program : List UInt8) :
    let after := machine.load program
    let first := machine.programSize.isNone
    after.v = (if first then machine.v else .replicate 16 0) ∧
    after.flags = (if first then machine.flags else .replicate 16 0) ∧
    after.index = (if first then machine.index else 0) ∧
    after.sp = (if first then machine.sp else 0) ∧
    after.delay = (if first then machine.delay else 0) ∧
    after.sound = (if first then machine.sound else 0) ∧
    after.ticks = (if first then machine.ticks else 0) := by
  cases first : machine.programSize.isNone with
  | true =>
    rw [load_of_first machine program first]
    simp only [if_true, and_self]
  | false =>
    rw [load_of_later machine program first]
    simp only [Bool.false_eq_true, if_false, reset, and_self]

/-- A program is copied behind a screen in memory, or it is not copied and the screen is a
new dark buffer. Which memory the program is placed in does not matter to that. -/
theorem load_places (machine : Machine) (program : List UInt8) :
    (program.length < programLimit ∧ (machine.load program).memory.screen = .mapped ∧
        ∀ index : Fin program.length,
          (machine.load program).memory.read (programStart + index.val) = program.get index) ∨
      (programLimit ≤ program.length ∧
        (machine.load program).memory.screen = .detached (.replicate detachedSize 0)) := by
  obtain ⟨ready, placed⟩ : ∃ ready, (machine.load program).memory = place ready program := by
    cases first : machine.programSize.isNone with
    | true => exact ⟨machine.memory, by rw [load_of_first machine program first]⟩
    | false => exact ⟨machine.reset.memory, by rw [load_of_later machine program first]⟩
  rw [placed, screen_place]
  by_cases copied : program.length < programLimit
  · exact .inl ⟨copied, if_pos copied, read_place_covered ready program copied⟩
  · exact .inr ⟨Nat.le_of_not_lt copied, if_neg copied⟩

/-- Loading a program does exactly this to a machine. The program's length is noted, the
program counter and the keys stay. A first program inherits registers, flag registers,
index, stack pointer, timers and ticks, a later one finds all of them zero. A program that
does not reach the picture's place is copied, and the screen is in memory; of a longer one
nothing is copied, and the screen is a new dark buffer. Of the bytes that no copied
program covers, those of the stack are cleared for every program but the first, and those
of the picture's place where a detached screen comes back or a mapped one was cleared
for a later program; no other byte changes. -/
theorem load_exact (machine : Machine) (program : List UInt8) :
    let after := machine.load program
    let first := machine.programSize.isNone
    after.programSize = some program.length ∧ after.pc = machine.pc ∧
    after.keys = machine.keys ∧
    (after.v = (if first then machine.v else .replicate 16 0) ∧
      after.flags = (if first then machine.flags else .replicate 16 0) ∧
      after.index = (if first then machine.index else 0) ∧
      after.sp = (if first then machine.sp else 0) ∧
      after.delay = (if first then machine.delay else 0) ∧
      after.sound = (if first then machine.sound else 0) ∧
      after.ticks = (if first then machine.ticks else 0)) ∧
    ((program.length < programLimit ∧ after.memory.screen = .mapped ∧
        ∀ index : Fin program.length,
          after.memory.read (programStart + index.val) = program.get index) ∨
      (programLimit ≤ program.length ∧
        after.memory.screen = .detached (.replicate detachedSize 0))) ∧
    ∀ address, ¬ Covers program address →
      after.memory.read address =
        if stackStart ≤ address ∧ address < screenStart then
          if first then machine.memory.read address else 0
        else if screenStart ≤ address ∧ address < memorySize then
          if machine.clearsPicture program then 0 else machine.memory.read address
        else machine.memory.read address := by
  intro after first
  have kept := machine.load_keeps program
  have length : after.programSize = some program.length := rfl
  exact ⟨length, kept.1, kept.2, machine.load_inherits program, machine.load_places program,
    machine.read_load_uncovered program⟩

/-- A machine within a call, whose program was too long to be copied. -/
def beside : Machine :=
  { initial with memory := Memory.initial.detachScreen, sp := 1, programSize := some 3328 }

/-- A short program after that one is copied, leaves no return address, and finds the
stack and the picture's place cleared. -/
theorem load_exact_beside :
    ¬ Covers [0x60, 0x05] 0xEA0 ∧ ¬ Covers [0x60, 0x05] 0xF00 ∧
      (beside.load [0x60, 0x05]).sp = 0 ∧
      (beside.load [0x60, 0x05]).memory.read 0xEA0 = 0 ∧
      (beside.load [0x60, 0x05]).memory.read 0xF00 = 0 := by
  have stackFree : ¬ Covers [0x60, 0x05] 0xEA0 :=
    fun covered => absurd covered.2.2 (by decide)
  have pictureFree : ¬ Covers [0x60, 0x05] 0xF00 :=
    fun covered => absurd covered.2.2 (by decide)
  obtain ⟨_, _, _, ⟨_, _, _, depth, _⟩, _, uncovered⟩ := load_exact beside [0x60, 0x05]
  exact ⟨stackFree, pictureFree, depth, uncovered 0xEA0 stackFree, uncovered 0xF00 pictureFree⟩

end Machine

end Chip8
