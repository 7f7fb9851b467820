import Chip8.Bounds

/-!
# Instructions

The instruction set, with operands that are always in range: a register is one
of sixteen, an address has twelve bits and a sprite at most fifteen rows.
Instructions that differ only in what they test or compute share a constructor:
all skips carry a `Condition`, and all register arithmetic carries an
`Operation`.
-/

namespace Chip8

/-- One of the registers `V0` to `VF`. -/
abbrev Register := Fin 16

/-- An address as an opcode holds it. -/
abbrev Address := Fin 4096

/-- What a skip instruction tests. -/
inductive Condition where
  /-- The register holds this byte. -/
  | isByte (x : Register) (byte : UInt8)
  /-- The register holds another byte. -/
  | isNotByte (x : Register) (byte : UInt8)
  /-- Both registers hold the same byte. -/
  | same (x y : Register)
  /-- The registers hold different bytes. -/
  | different (x y : Register)
  /-- The key whose number the register holds is down. -/
  | keyDown (x : Register)
  /-- The key whose number the register holds is up. -/
  | keyUp (x : Register)
deriving DecidableEq, Repr

/-- What is computed from two registers and stored in the first one. -/
inductive Operation where
  /-- The second register. -/
  | copy
  /-- The bits set in either. -/
  | or
  /-- The bits set in both. -/
  | and
  /-- The bits set in one only. -/
  | xor
  /-- The sum; the flag is its carry. -/
  | add
  /-- The first less the second; the flag is set unless that is negative. -/
  | subtract
  /-- The second shifted right; the flag is the lowest bit of the first. -/
  | shiftRight
  /-- The second less the first; the flag is set unless that is negative. -/
  | subtractFrom
  /-- The second shifted left; the flag is the highest bit of the first. -/
  | shiftLeft
deriving DecidableEq, Repr

/-- An instruction with its operands. -/
inductive Instruction where
  /-- Do nothing. -/
  | nop
  /-- Turn every pixel off. -/
  | clearScreen
  /-- Go back to the caller. -/
  | ret
  /-- Go to an address. -/
  | jump (target : Address)
  /-- Remember the next instruction and go to an address. -/
  | call (target : Address)
  /-- Go to an address that lies `V0` bytes further on. -/
  | jumpOffset (base : Address)
  /-- Leave out the next instruction if the condition holds. -/
  | skip (condition : Condition)
  /-- Set a register. -/
  | setByte (x : Register) (byte : UInt8)
  /-- Add to a register; a carry is lost. -/
  | addByte (x : Register) (byte : UInt8)
  /-- Combine two registers into the first. -/
  | arithmetic (operation : Operation) (x y : Register)
  /-- Set the index register. -/
  | setIndex (address : Address)
  /-- Add a register to the index register. -/
  | addToIndex (x : Register)
  /-- Point the index register at the glyph of the digit in a register. -/
  | pointAtGlyph (x : Register)
  /-- Set a register to a random byte, keeping the bits of a mask. -/
  | random (x : Register) (mask : UInt8)
  /-- Draw a sprite of so many rows at the position two registers hold. -/
  | draw (x y : Register) (rows : Fin 16)
  /-- Read the delay timer. -/
  | readDelay (x : Register)
  /-- Repeat until a key is down, then set the register to one. -/
  | awaitKey (x : Register)
  /-- Set the delay timer. -/
  | setDelay (x : Register)
  /-- Set the sound timer. -/
  | setSound (x : Register)
  /-- Write the three decimal digits of a register to memory. -/
  | storeDigits (x : Register)
  /-- Write the registers up to this one to memory. -/
  | storeRegisters (x : Register)
  /-- Read the registers up to this one from memory. -/
  | loadRegisters (x : Register)
  /-- Copy the registers up to this one to the flag registers. -/
  | saveFlags (x : Register)
  /-- Copy the flag registers up to this one back. -/
  | restoreFlags (x : Register)
deriving DecidableEq, Repr

end Chip8
