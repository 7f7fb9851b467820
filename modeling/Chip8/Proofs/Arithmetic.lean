import Chip8.Proofs.Loading

/-!
# Register arithmetic

Five operations compute a byte from two registers and tell in the flag register what the
byte does not hold: a carry, a borrow that was not needed, or the bit that a shift takes
from the first operand, though it shifts the second. The numbers before and after belong
together by one equation for each operation. It is read from the registers as they were
before, whichever of them are the same, and the flag is what the flag register holds in
the end. All other instructions that compute a register leave the flag register alone,
unless it is the one they compute.
-/

namespace Chip8

/-- The numbers that belong together before and after an operation with a flag: the two
operands, the result, and the flag. -/
inductive Operation.Balances (vx vy result flag : Nat) : Operation → Prop where
  | add (sum : 256 * flag + result = vx + vy) : Balances vx vy result flag .add
  | subtract (difference : (result : Int) = vx - vy + 256 * (1 - flag)) :
      Balances vx vy result flag .subtract
  | subtractFrom (difference : (result : Int) = vy - vx + 256 * (1 - flag)) :
      Balances vx vy result flag .subtractFrom
  | shiftRight (half : result = vy / 2) (lowest : flag = vx % 2) :
      Balances vx vy result flag .shiftRight
  | shiftLeft (double : result = 2 * vy % 256) (highest : flag = vx / 128) :
      Balances vx vy result flag .shiftLeft

/-- The instruction computes a register and no flag. -/
def Instruction.SetsOnly (x : Register) : Instruction → Prop
  | .arithmetic operation own _ => operation.setsFlag = false ∧ own = x
  | .setByte own _ | .addByte own _ => own = x
  | _ => False

namespace Operation

/-- A difference of bytes is 256 too large if there was a borrow. -/
theorem toNat_difference (whole less : UInt8) :
    ((whole - less).toNat : Int) =
      whole.toNat - less.toNat + 256 * (1 - (decide (less ≤ whole)).toNat) := by
  have bound := whole.toNat_lt
  have lessBound := less.toNat_lt
  rw [UInt8.toNat_sub]
  by_cases enough : less ≤ whole
  · have order := UInt8.le_iff_toNat_le.mp enough
    simp only [enough, decide_true, Bool.toNat_true]
    omega
  · have order := mt UInt8.le_iff_toNat_le.mpr enough
    simp only [enough, decide_false, Bool.toNat_false]
    omega

/-- An operation with a flag gives a result and a flag that belong together. -/
theorem apply_balances (operation : Operation) (flagged : operation.setsFlag = true)
    (vx vy : UInt8) :
    ∃ result flag, operation.apply vx vy = (result, some flag) ∧
      operation.Balances vx.toNat vy.toNat result.toNat flag.toNat := by
  have xBound := vx.toNat_lt
  have yBound := vy.toNat_lt
  cases operation with
  | copy | or | and | xor => cases flagged
  | add =>
    refine ⟨_, _, rfl, .add ?_⟩
    rw [UInt8.toNat_add]
    by_cases carry : 256 ≤ vx.toNat + vy.toNat
    · simp only [carry, decide_true, Bool.toNat_true]
      omega
    · simp only [carry, decide_false, Bool.toNat_false]
      omega
  | subtract => exact ⟨_, _, rfl, .subtract (toNat_difference vx vy)⟩
  | subtractFrom => exact ⟨_, _, rfl, .subtractFrom (toNat_difference vy vx)⟩
  | shiftRight =>
    refine ⟨_, _, rfl, .shiftRight ?_ ?_⟩
    · rw [UInt8.toNat_ofNat', Nat.mod_eq_of_lt (by omega)]
    · by_cases odd : vx.toNat % 2 = 1
      · simp only [odd, decide_true, Bool.toNat_true]
      · simp only [odd, decide_false, Bool.toNat_false]
        omega
  | shiftLeft =>
    refine ⟨_, _, rfl, .shiftLeft ?_ ?_⟩
    · rw [UInt8.toNat_ofNat']
    · by_cases high : 128 ≤ vx.toNat
      · simp only [high, decide_true, Bool.toNat_true]
        omega
      · simp only [high, decide_false, Bool.toNat_false]
        omega

/-- An operation without a flag gives none. -/
theorem apply_plain (operation : Operation) (plain : operation.setsFlag = false)
    (vx vy : UInt8) : ∃ result, operation.apply vx vy = (result, none) := by
  cases operation with
  | copy | or | and | xor => exact ⟨_, rfl⟩
  | add | subtract | shiftRight | subtractFrom | shiftLeft => cases plain

end Operation

namespace Machine

/-- After an operation with a flag the flag register holds it, also if it is the first
operand. Otherwise that one holds the result. -/
theorem arithmetic_flagged (machine : Machine) (operation : Operation)
    (flagged : operation.setsFlag = true) (x y : Register) :
    ∃ result flag : Nat, result < 256 ∧ flag < 2 ∧
      operation.Balances (machine.v.get x).toNat (machine.v.get y).toNat result flag ∧
      ((machine.arithmetic operation x y).v.get flagRegister).toNat = flag ∧
      (x ≠ flagRegister → ((machine.arithmetic operation x y).v.get x).toNat = result) ∧
      ∀ r, r ≠ x → r ≠ flagRegister →
        (machine.arithmetic operation x y).v.get r = machine.v.get r := by
  obtain ⟨result, flag, applied, balances⟩ :=
    operation.apply_balances flagged (machine.v.get x) (machine.v.get y)
  have after : machine.arithmetic operation x y = (machine.setRegister x result).setFlag flag := by
    rw [arithmetic, applied]
  have held : flag.toUInt8.toNat = flag.toNat := by cases flag <;> rfl
  rw [after]
  refine ⟨result.toNat, flag.toNat, result.toNat_lt, flag.toNat_lt, balances, ?_, ?_, ?_⟩
  · rw [setFlag, setRegister_same, held]
  · intro other
    rw [setFlag, setRegister_other _ _ _ _ other, setRegister_same]
  · intro r behind other
    rw [setFlag, setRegister_other _ _ _ _ other, setRegister_other _ _ _ _ behind]

/-- What computes a register and no flag can be executed and leaves all other registers
alone. -/
theorem execute_setsOnly (machine : Machine) (generator : Generator) (x : Register)
    (instruction : Instruction) (only : instruction.SetsOnly x) :
    ∃ value, machine.execute generator instruction =
      (.ok (), machine.setRegister x value, generator) := by
  cases instruction with
  | setByte own byte | addByte own byte =>
    obtain rfl : own = x := only
    exact ⟨_, rfl⟩
  | arithmetic operation own y =>
    obtain ⟨plain, rfl⟩ := only
    obtain ⟨result, applied⟩ := operation.apply_plain plain (machine.v.get own) (machine.v.get y)
    refine ⟨result, ?_⟩
    rw [execute, arithmetic, applied]
  | _ => cases only

/-- The exact effect of register arithmetic on the registers. At the opcode of an operation
with a flag, the operation is executed, its result and its flag belong to the two operands
as they were before, the flag register holds the flag, the first operand the result unless
it is the flag register, and all other registers what they held. At any other opcode that
computes a register, the instruction is executed and no other register changes, so the flag
register keeps its value unless it is the one. -/
theorem arithmetic_balances (machine : Machine) (generator : Generator)
    (inside : machine.InProgram) (x : Register) :
    let stepped := machine.step generator
    (∀ operation y, operation.setsFlag = true →
      machine.opcode = (Instruction.arithmetic operation x y).encode →
      stepped.outcome = .ok (.executed machine.opcode) ∧
      ∃ result flag : Nat, result < 256 ∧ flag < 2 ∧
        operation.Balances (machine.v.get x).toNat (machine.v.get y).toNat result flag ∧
        (stepped.machine.v.get flagRegister).toNat = flag ∧
        (x ≠ flagRegister → (stepped.machine.v.get x).toNat = result) ∧
        ∀ r, r ≠ x → r ≠ flagRegister → stepped.machine.v.get r = machine.v.get r) ∧
    (∀ instruction : Instruction, instruction.SetsOnly x → machine.opcode = instruction.encode →
      stepped.outcome = .ok (.executed machine.opcode) ∧
      ∀ r, r ≠ x → stepped.machine.v.get r = machine.v.get r) := by
  intro stepped
  constructor
  · intro operation y flagged stands
    have step := machine.step_of_instruction generator (.arithmetic operation x y) inside stands
      (show 0x8 ≠ 0x1 by decide) _ _ rfl
    simp only [stepped, step, stands, tick_v, true_and]
    exact machine.fetched.arithmetic_flagged operation flagged x y
  · intro instruction only stands
    obtain ⟨value, done⟩ := machine.fetched.execute_setsOnly generator x instruction only
    have moves : instruction.family ≠ 0x1 := by
      intro jumps
      cases instruction with
      | jump _ => cases only
      | setByte _ _ | addByte _ _ | arithmetic _ _ _ => cases jumps
      | _ => cases only
    have step := machine.step_of_instruction generator instruction inside stands moves _ _ done
    simp only [stepped, step, stands, tick_v, true_and]
    intro r other
    exact setRegister_other _ _ _ _ other

/-- A new machine whose registers all hold 200, about to add the flag register to itself. -/
def doubling : Machine := { initial.load [0x8F, 0xF4] with v := .replicate 16 200 }

/-- The flag register holds the carry then, not the sum. A machine about to set another
register keeps its flag register. -/
theorem arithmetic_balances_doubling :
    doubling.InProgram ∧ doubling.opcode = (Instruction.arithmetic .add 15 15).encode ∧
      ((doubling.step (.ofSeed 0)).machine.v.get 15).toNat = 1 ∧
      (System.brief 0 0).machine.InProgram ∧
      (System.brief 0 0).machine.opcode = (Instruction.setByte 0 5).encode ∧
      ((System.brief 0 0).machine.step (.ofSeed 0)).machine.v.get 15 = 0 := by
  have copied : [0x8F, 0xF4].length < programLimit := by decide
  have word : (initial.load [0x8F, 0xF4]).memory.word 0x200 = 0x8FF4 :=
    (word_load_initial _ copied 0 0x8F 0xF4 rfl rfl).trans (by decide)
  have counter : doubling.pc = 0x200 := rfl
  have inside : doubling.InProgram := ⟨2, rfl, by rw [counter]; decide⟩
  have operand : doubling.v.get 15 = 200 := Vector.getElem_replicate (by decide)
  obtain ⟨result, flag, small, single, balances, held, _⟩ :=
    ((arithmetic_balances doubling (.ofSeed 0) inside 15).1 .add 15 rfl word).2
  have carried : flag = 1 := by
    rw [operand] at balances
    cases balances with
    | add sum =>
      have wide : (200 : UInt8).toNat = 200 := rfl
      omega
  have copiedBrief : [0x60, 0x05].length < programLimit := by decide
  have wordBrief : (initial.load [0x60, 0x05]).memory.word 0x200 = 0x6005 :=
    (word_load_initial _ copiedBrief 0 0x60 0x05 rfl rfl).trans (by decide)
  have counterBrief : (System.brief 0 0).machine.pc = 0x200 := rfl
  have insideBrief : (System.brief 0 0).machine.InProgram := ⟨2, rfl, by rw [counterBrief]; decide⟩
  have kept := ((arithmetic_balances (System.brief 0 0).machine (.ofSeed 0) insideBrief 0).2
    (.setByte 0 5) rfl wordBrief).2 15 (by decide)
  exact ⟨inside, word, held.trans carried, insideBrief, wordBrief,
    kept.trans (Vector.getElem_replicate (by decide))⟩

end Machine

end Chip8
