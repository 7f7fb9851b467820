import Chip8.Proofs.Loading

/-!
# Registers in memory

Registers are stored to consecutive addresses from the index register on, and loaded from
there. Addresses are counted as natural numbers. So what lies past the end of memory is
lost and is loaded as zero, and no store comes around to the start of memory, while the
index register, which is moved past the last register each time, wraps at 16 bits.
-/

namespace Chip8

namespace Machine

/-- The registers up to one of them, by their numbers. -/
theorem getElem?_registersThrough (registers : Registers) (x r : Register) (within : r ≤ x) :
    (registersThrough registers x)[r.val]? = some (registers.get r) := by
  have inside : r.val < x.val + 1 := Nat.lt_succ_of_le within
  rw [registersThrough, List.getElem?_take_of_lt inside, Vector.getElem?_toList]
  exact Vector.getElem?_eq_getElem r.isLt

/-- The index register is moved on and wraps at 16 bits. -/
theorem toNat_advanceIndex (machine : Machine) (count : Nat) :
    (machine.advanceIndex count).index.toNat = (machine.index.toNat + count) % 65536 := by
  rw [advanceIndex, UInt16.toNat_add, UInt16.toNat_ofNat', Nat.add_mod_mod]

/-- A stored register is found at its address, if that is within memory. -/
theorem read_registersThrough (memory : Memory) (address : Nat) (registers : Registers)
    (x r : Register) (within : r ≤ x) (inMemory : address + r.val < memorySize) :
    (memory.writeList address (registersThrough registers x)).read (address + r.val) =
      registers.get r := by
  rw [Memory.read_writeList, if_pos ⟨Nat.le_add_right _ _, inMemory⟩, Nat.add_sub_cancel_left,
    getElem?_registersThrough registers x r within, Option.getD_some]

/-- A byte at whose address no register is stored stays. -/
theorem read_registersThrough_outside (memory : Memory) (address query : Nat)
    (registers : Registers) (x : Register)
    (outside : ∀ r : Register, r ≤ x → query ≠ address + r.val) :
    (memory.writeList address (registersThrough registers x)).read query = memory.read query := by
  apply Memory.read_writeList_outside
  rw [length_registersThrough]
  by_cases before : query < address
  · exact .inl before
  · -- A query within the addresses would be the one of a register.
    refine .inr (Nat.le_of_not_lt fun inside => ?_)
    have small : query - address < 16 := by omega
    have within : (⟨query - address, small⟩ : Register) ≤ x := by
      rw [Fin.le_def]
      show query - address ≤ x.val
      omega
    apply outside ⟨query - address, small⟩ within
    show query = address + (query - address)
    omega

/-- What storing registers does: it writes them and moves the index register past the
last one. -/
theorem step_storeRegisters (machine : Machine) (generator : Generator) (x : Register)
    (inside : machine.InProgram) (stands : machine.opcode = (Instruction.storeRegisters x).encode) :
    let stored := machine.step generator
    stored.outcome = .ok (.executed machine.opcode) ∧
    stored.machine.memory =
      machine.memory.writeList machine.index.toNat (registersThrough machine.v x) ∧
    stored.machine.index.toNat = (machine.index.toNat + (x.val + 1)) % 65536 := by
  intro stored
  have step := machine.step_of_instruction generator (.storeRegisters x) inside stands
    (show 0xF ≠ 0x1 by decide) _ _ rfl
  simp only [stored, step, stands, tick_memory, tick_index, toNat_advanceIndex, true_and]
  exact ⟨rfl, rfl⟩

/-- What loading registers does: it reads them and moves the index register past the last
one. -/
theorem step_loadRegisters (machine : Machine) (generator : Generator) (x : Register)
    (inside : machine.InProgram) (stands : machine.opcode = (Instruction.loadRegisters x).encode) :
    let loaded := machine.step generator
    loaded.outcome = .ok (.executed machine.opcode) ∧
    loaded.machine.v = (replaceThrough machine.v x fun r =>
      machine.memory.read (machine.index.toNat + r.val)) ∧
    loaded.machine.index.toNat = (machine.index.toNat + (x.val + 1)) % 65536 := by
  intro loaded
  have step := machine.step_of_instruction generator (.loadRegisters x) inside stands
    (show 0xF ≠ 0x1 by decide) _ _ rfl
  simp only [loaded, step, stands, tick_v, tick_index, toNat_advanceIndex, true_and]
  exact ⟨rfl, rfl⟩

/-- Storing registers and loading them. At the opcode that stores the registers up to one of
them, these bytes are written: the registers' values, from the address in the index register
on, as far as memory goes. No other byte changes. When later, with the index register back
at that address and the bytes there as they were left, the registers are loaded from it,
each of them holds again what was stored, or zero where its address lay past the end of
memory. The registers behind the last one are left alone, whatever they hold by then. Both
move the index register past the last one, and it wraps at 16 bits. -/
theorem stored_registers_return (machine later : Machine) (generator laterGenerator : Generator)
    (x : Register) (inside : machine.InProgram)
    (stands : machine.opcode = (Instruction.storeRegisters x).encode)
    (insideLater : later.InProgram)
    (standsLater : later.opcode = (Instruction.loadRegisters x).encode)
    (back : later.index = machine.index)
    (kept : ∀ r : Register, r ≤ x → later.memory.read (machine.index.toNat + r.val) =
      (machine.step generator).machine.memory.read (machine.index.toNat + r.val)) :
    let stored := machine.step generator
    let loaded := later.step laterGenerator
    stored.outcome = .ok (.executed machine.opcode) ∧
    (∀ r : Register, r ≤ x → machine.index.toNat + r.val < memorySize →
      stored.machine.memory.read (machine.index.toNat + r.val) = machine.v.get r) ∧
    (∀ address, (∀ r : Register, r ≤ x → address ≠ machine.index.toNat + r.val) →
      stored.machine.memory.read address = machine.memory.read address) ∧
    stored.machine.index.toNat = (machine.index.toNat + (x.val + 1)) % 65536 ∧
    loaded.outcome = .ok (.executed later.opcode) ∧
    (∀ r : Register, r ≤ x → loaded.machine.v.get r =
      if machine.index.toNat + r.val < memorySize then machine.v.get r else 0) ∧
    (∀ r : Register, x < r → loaded.machine.v.get r = later.v.get r) ∧
    loaded.machine.index.toNat = (machine.index.toNat + (x.val + 1)) % 65536 := by
  intro stored loaded
  obtain ⟨stores, storedMemory, storedIndex⟩ :=
    machine.step_storeRegisters generator x inside stands
  obtain ⟨loads, loadedRegisters, loadedIndex⟩ :=
    later.step_loadRegisters laterGenerator x insideLater standsLater
  rw [back] at loadedIndex
  have written (r : Register) (upTo : r ≤ x) (inMemory : machine.index.toNat + r.val < memorySize) :
      stored.machine.memory.read (machine.index.toNat + r.val) = machine.v.get r := by
    rw [storedMemory]
    exact read_registersThrough _ _ _ x r upTo inMemory
  refine ⟨stores, written, ?_, storedIndex, loads, ?_, ?_, loadedIndex⟩
  · intro address outside
    rw [storedMemory]
    exact read_registersThrough_outside _ _ _ _ x outside
  · intro r upTo
    rw [loadedRegisters, replaceThrough_within _ x r _ upTo, back, kept r upTo]
    by_cases inMemory : machine.index.toNat + r.val < memorySize
    · rw [if_pos inMemory]
      exact written r upTo inMemory
    · rw [if_neg inMemory]
      exact Memory.read_eq_zero _ _ (Nat.le_of_not_lt inMemory)
  · intro r behind
    rw [loadedRegisters]
    exact replaceThrough_behind _ x r _ (Fin.not_le.mpr behind)

/-- A machine whose index register is set back to two bytes before the end of memory, and
whose registers all hold the same value. -/
def setBack (machine : Machine) (value : UInt8) : Machine :=
  { machine with index := 0xFFE, v := .replicate 16 value }

/-- Its memory is the one it had. -/
theorem setBack_memory (machine : Machine) (value : UInt8) :
    (machine.setBack value).memory = machine.memory := rfl

/-- A new machine about to store four registers where only two bytes are left. -/
def overhanging : Machine := (initial.load [0xF3, 0x55, 0xF3, 0x65]).setBack 7

/-- The same machine after that, with the index register set back and other registers, about
to load them. -/
def refilling : Machine := (overhanging.step (.ofSeed 0)).machine.setBack 9

/-- The first of them is at its first opcode. -/
theorem opcode_overhanging : overhanging.InProgram ∧ overhanging.opcode = 0xF355 := by
  have copied : [0xF3, 0x55, 0xF3, 0x65].length < programLimit := by decide
  have word : (initial.load [0xF3, 0x55, 0xF3, 0x65]).memory.word 0x200 = 0xF355 :=
    (word_load_initial _ copied 0 0xF3 0x55 rfl rfl).trans (by decide)
  have counter : overhanging.pc = 0x200 := rfl
  exact ⟨⟨4, rfl, by rw [counter]; decide⟩, word⟩

/-- The second one is at its second opcode, since no register was stored there. -/
theorem opcode_refilling : refilling.InProgram ∧ refilling.opcode = 0xF365 := by
  have copied : [0xF3, 0x55, 0xF3, 0x65].length < programLimit := by decide
  have word : (initial.load [0xF3, 0x55, 0xF3, 0x65]).memory.word 0x202 = 0xF365 :=
    (word_load_initial _ copied 2 0xF3 0x65 rfl rfl).trans (by decide)
  obtain ⟨inside, stands⟩ := opcode_overhanging
  have step := overhanging.step_of_instruction (.ofSeed 0) (.storeRegisters 3) inside stands
    (show 0xF ≠ 0x1 by decide) _ _ rfl
  have next : refilling.pc = overhanging.pc + 2 := by
    simp only [refilling, setBack, step, tick_pc, advanceIndex, fetched]
  have counter : refilling.pc = 0x202 := next.trans rfl
  have same : refilling.programSize = overhanging.programSize := by
    simp only [refilling, setBack, step, tick_programSize, advanceIndex, fetched]
  have loaded : refilling.programSize = some 4 := same.trans rfl
  have unwritten (address : Nat) (low : address < 0xFFE) :
      refilling.memory.read address =
        (initial.load [0xF3, 0x55, 0xF3, 0x65]).memory.read address := by
    obtain ⟨_, stored, _⟩ := overhanging.step_storeRegisters (.ofSeed 0) 3 inside stands
    rw [refilling, setBack_memory, stored]
    exact Memory.read_writeList_outside _ _ _ _ (.inl low)
  refine ⟨⟨4, loaded, by rw [counter]; decide⟩, ?_⟩
  rw [opcode, counter]
  refine Eq.trans ?_ word
  show Memory.word _ 0x202 = _
  rw [Memory.word, Memory.word, unwritten _ (by decide), unwritten _ (by decide)]

/-- The registers that were lost past the end are zero when they are loaded, the others are
back, and the one behind them is what it was set to. The start of memory was not touched. -/
theorem stored_registers_return_overhanging :
    overhanging.InProgram ∧ overhanging.opcode = (Instruction.storeRegisters 3).encode ∧
      refilling.InProgram ∧ refilling.opcode = (Instruction.loadRegisters 3).encode ∧
      refilling.index = overhanging.index ∧
      (overhanging.step (.ofSeed 0)).machine.memory.read 0xFFF = 7 ∧
      (overhanging.step (.ofSeed 0)).machine.memory.read 0 = overhanging.memory.read 0 ∧
      (refilling.step (.ofSeed 0)).machine.v.get 1 = 7 ∧
      (refilling.step (.ofSeed 0)).machine.v.get 2 = 0 ∧
      (refilling.step (.ofSeed 0)).machine.v.get 4 = 9 ∧
      (refilling.step (.ofSeed 0)).machine.index.toNat = 0x1002 := by
  obtain ⟨inside, stands⟩ := opcode_overhanging
  obtain ⟨insideThen, standsThen⟩ := opcode_refilling
  have back : refilling.index = overhanging.index := by simp only [refilling, overhanging, setBack]
  have kept : refilling.memory = (overhanging.step (.ofSeed 0)).machine.memory :=
    setBack_memory _ _
  obtain ⟨_, written, unwritten, _, _, within, behind, index⟩ :=
    stored_registers_return overhanging refilling (.ofSeed 0) (.ofSeed 0) 3 inside stands insideThen
      standsThen back fun r _ => by rw [kept]
  have start : overhanging.index.toNat = 0xFFE := rfl
  have seven (r : Register) : overhanging.v.get r = 7 := Vector.getElem_replicate r.isLt
  have nine (r : Register) : refilling.v.get r = 9 := Vector.getElem_replicate r.isLt
  refine ⟨inside, stands, insideThen, standsThen, back, ?_, ?_, ?_, ?_, ?_, index⟩
  · exact (written 1 (by decide) (by decide)).trans (seven 1)
  · exact unwritten 0 fun r _ => by rw [start]; omega
  · exact (within 1 (by decide)).trans ((if_pos (by decide)).trans (seven 1))
  · exact (within 2 (by decide)).trans (if_neg (by decide))
  · exact (behind 4 (by decide)).trans (nine 4)

end Machine

end Chip8
