/-!
# Faults

What can be wrong with an instruction. A program that ends is no fault.
-/

namespace Chip8

/-- Why an instruction cannot be executed. -/
inductive Fault where
  /-- No program was ever loaded. -/
  | noProgram
  /-- The opcode means no instruction. -/
  | invalidOpcode (opcode : UInt16)
  /-- A call finds all stack slots in use. -/
  | stackOverflow
  /-- A return finds no return address. -/
  | stackUnderflow
deriving DecidableEq, Repr

end Chip8
