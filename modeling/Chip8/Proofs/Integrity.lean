import Chip8.Proofs.Loading

/-!
# Programs that lie under the stack

The program, the call stack and a mapped picture share memory. A copied program ends
before the picture, so painting never reaches it. The stack begins earlier: a program
of more than 3232 bytes lies under its first slots, and a call puts its return address
over the program there. Stores apart, nothing else changes a program while it runs.
-/

namespace Chip8

namespace Instruction

/-- The instruction stores something in memory. -/
def isStore : Instruction → Bool
  | .storeDigits _ | .storeRegisters _ => true
  | _ => false

/-- The instruction is a call that puts its return address over the byte at an
address, given how many return addresses there are. -/
def callsOver (depth address : Nat) : Instruction → Bool
  | .call _ => address == Memory.slotAddress depth || address == Memory.slotAddress depth + 1
  | _ => false

/-- Before the picture, what neither stores nor calls writes nothing. -/
theorem writes_before_picture (machine : Machine) (address : Nat) (instruction : Instruction)
    (before : address < screenStart) (unstored : instruction.isStore = false)
    (uncalled : instruction.callsOver machine.sp address = false) :
    instruction.writes machine address = false := by
  have dark := unpainted_before_picture machine address before
  cases instruction with
  | call target => exact uncalled
  | clearScreen => exact dark
  | draw x y rows => exact dark
  | storeDigits x => cases unstored
  | storeRegisters x => cases unstored
  | _ => rfl

end Instruction

namespace System

/-- The next step executes no store. -/
def StoresNothing (system : System) : Prop :=
  system.executes?.any Instruction.isStore = false

/-- The next step executes no call whose return address would cover the byte at an
address. -/
def CallsBeside (address : Nat) (system : System) : Prop :=
  system.executes?.any (Instruction.callsOver system.machine.sp address) = false

/-- Before the picture, a step writes only by storing or calling. -/
theorem writesAt_before_picture (system : System) (address : Nat)
    (before : address < screenStart) (unstored : system.StoresNothing)
    (uncalled : system.CallsBeside address) : system.writesAt address = false := by
  unfold StoresNothing at unstored
  unfold CallsBeside at uncalled
  unfold writesAt
  cases executes : system.executes? with
  | none => rfl
  | some instruction =>
    rw [executes] at unstored uncalled
    exact instruction.writes_before_picture system.machine address before unstored uncalled

/-- No return address lies before the call stack. -/
theorem callsBeside_of_before_stack (system : System) (address : Nat)
    (before : address < stackStart) : system.CallsBeside address := by
  have low (depth : Nat) : address ≠ Memory.slotAddress depth := by
    rw [Memory.slotAddress]
    omega
  have high (depth : Nat) : address ≠ Memory.slotAddress depth + 1 := by
    rw [Memory.slotAddress]
    omega
  unfold CallsBeside
  cases system.executes? with
  | none => rfl
  | some instruction =>
    cases instruction with
    | call target =>
      exact Bool.or_eq_false_iff.mpr
        ⟨beq_eq_false_iff_ne.mpr (low _), beq_eq_false_iff_ne.mpr (high _)⟩
    | _ => rfl

/-- A byte of a copied program stays through every run without stores in which no
return address is put over it. -/
theorem read_play_program (program : List UInt8) (generator : Generator) (turns : List Turn)
    (copied : program.length < programLimit)
    (unstored : (starting program generator).Throughout StoresNothing turns)
    (index : Fin program.length)
    (uncalled : (starting program generator).Throughout
      (CallsBeside (programStart + index.val)) turns) :
    ((starting program generator).play turns).machine.memory.read (programStart + index.val) =
      program.get index := by
  have before : programStart + index.val < screenStart := by
    have inside : index.val < program.length := index.isLt
    simp only [programLimit] at copied
    omega
  have loaded : (starting program generator).machine.memory.read (programStart + index.val) =
      program.get index :=
    Machine.read_load_initial program copied _ _ (List.getElem?_eq_getElem index.isLt)
  have unwritten := Throughout.and _ turns unstored uncalled
  rw [read_play, loaded]
  exact Throughout.mono
    (fun running spares => running.writesAt_before_picture _ before spares.1 spares.2)
    _ turns unwritten

/-- Through every run without stores a copied program keeps its bytes, except where a
call puts its return address over one of them. A program that ends before the call
stack keeps them all. -/
theorem program_kept_beside_calls (program : List UInt8) (generator : Generator)
    (turns : List Turn) (copied : program.length < programLimit)
    (unstored : (starting program generator).Throughout StoresNothing turns) :
    (∀ index : Fin program.length,
      (starting program generator).Throughout (CallsBeside (programStart + index.val)) turns →
      ((starting program generator).play turns).machine.memory.read
        (programStart + index.val) = program.get index) ∧
    (programStart + program.length ≤ stackStart → ∀ index : Fin program.length,
      ((starting program generator).play turns).machine.memory.read
        (programStart + index.val) = program.get index) := by
  constructor
  · exact read_play_program program generator turns copied unstored
  · intro fits index
    have before : programStart + index.val < stackStart := by
      have inside : index.val < program.length := index.isLt
      omega
    apply read_play_program program generator turns copied unstored
    exact Throughout.of_forall
      (fun running => running.callsBeside_of_before_stack _ before) _ turns

/-! ## A program under the first slot -/

/-- A new machine about to call the instruction behind the call. -/
def calling (rest : List UInt8) : System := starting (0x22 :: 0x02 :: rest) (.ofSeed 0)

/-- Whatever follows the call, its return address comes to lie in the first slot. -/
theorem calling_next (rest : List UInt8)
    (copied : (0x22 :: 0x02 :: rest).length < programLimit) :
    (calling rest).executes? = some (.call 0x202) ∧
      (calling rest).next.machine.memory =
        (calling rest).machine.memory.setSlot 0 0x202 := by
  have opcode : (calling rest).machine.opcode = 0x2202 :=
    (Machine.word_load_initial _ copied 0 0x22 0x02 rfl rfl).trans (by decide)
  have within : 0x200 < 0x200 + (rest.length + 2) := by omega
  have inside : (calling rest).machine.InProgram :=
    ⟨rest.length + 2, rfl, Nat.le_refl _, within⟩
  obtain ⟨executes, next⟩ := (calling rest).next_of_opcode 0x2202 inside opcode (by decide)
    (.call 0x202) rfl _ _ (Machine.execute_call _ _ _ (by decide : 0 < stackSlots))
  rw [next, Machine.tick_eq]
  exact ⟨executes, rfl⟩

/-- Nothing is stored in that step. -/
theorem calling_storesNothing (rest : List UInt8)
    (copied : (0x22 :: 0x02 :: rest).length < programLimit) :
    (calling rest).Throughout StoresNothing [.step] := by
  refine ⟨fun _ => ?_, trivial⟩
  rw [StoresNothing, (calling_next rest copied).1]
  rfl

/-- The call and zeros up to and over the first slot of the call stack. -/
def underStack : List UInt8 := 0x22 :: 0x02 :: .replicate 3232 0

/-- The program is two bytes longer than the place before the stack. -/
theorem length_underStack : underStack.length = 3234 := by
  rw [underStack, List.length_cons, List.length_cons, List.length_replicate]

/-- It is copied all the same. -/
theorem underStack_copied : underStack.length < programLimit := by
  rw [length_underStack]
  decide

/-- The call leaves the program's first byte alone. -/
theorem program_kept_beside_calls_calling :
    underStack.length < programLimit ∧
      (starting underStack (.ofSeed 0)).Throughout StoresNothing [.step] ∧
      (starting underStack (.ofSeed 0)).Throughout (CallsBeside 0x200) [.step] ∧
      ((starting underStack (.ofSeed 0)).play [.step]).machine.memory.read 0x200 = 0x22 := by
  have first : 0 < underStack.length := by
    rw [length_underStack]
    decide
  have unstored := calling_storesNothing (.replicate 3232 0) underStack_copied
  have beside : (starting underStack (.ofSeed 0)).Throughout (CallsBeside 0x200) [.step] :=
    ⟨fun _ => callsBeside_of_before_stack _ 0x200 (by decide), trivial⟩
  have kept := (program_kept_beside_calls underStack (.ofSeed 0) [.step] underStack_copied
    unstored).1 ⟨0, first⟩ beside
  exact ⟨underStack_copied, unstored, beside, kept⟩

/-- The call puts its return address over the program's bytes in the first slot. -/
theorem call_overwrites_program :
    underStack.length < programLimit ∧
      (starting underStack (.ofSeed 0)).Throughout StoresNothing [.step] ∧
      underStack[0xCA0]? = some 0 ∧
      ((starting underStack (.ofSeed 0)).play [.step]).machine.memory.read 0xEA0 = 0x02 := by
  refine ⟨underStack_copied, calling_storesNothing _ underStack_copied, ?_, ?_⟩
  · rw [underStack, List.getElem?_cons_succ, List.getElem?_cons_succ]
    exact List.getElem?_replicate_of_lt (by decide)
  · have next := (calling_next (.replicate 3232 0) underStack_copied).2
    have start : starting underStack (.ofSeed 0) = calling (.replicate 3232 0) := rfl
    have reached : Memory.slotAddress 0 ≤ 0xEA0 ∧ 0xEA0 < memorySize := by decide
    rw [start, play, play, turn, next, Memory.setSlot, Memory.read_writeList, if_pos reached]
    rfl

end System

end Chip8
