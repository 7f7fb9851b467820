import Chip8.Instruction.Basic

/-!
# Opcodes

An opcode is a word of four hexadecimal digits. The first names a family, the
second and third usually name registers, and the rest is an operand or says
which member of the family is meant. `encode` writes an instruction as its
opcode and `decode?` reads one back. In family zero the second digit means
nothing and reading ignores it; this is the only freedom, every other
instruction has a single opcode.
-/

namespace Chip8

/-- The last digit of an arithmetic opcode. -/
def Operation.digit : Operation → Nat
  | .copy => 0x0
  | .or => 0x1
  | .and => 0x2
  | .xor => 0x3
  | .add => 0x4
  | .subtract => 0x5
  | .shiftRight => 0x6
  | .subtractFrom => 0x7
  | .shiftLeft => 0xE

/-- The operation that the last digit of an arithmetic opcode means. -/
def Operation.ofDigit? : Nat → Option Operation
  | 0x0 => some .copy
  | 0x1 => some .or
  | 0x2 => some .and
  | 0x3 => some .xor
  | 0x4 => some .add
  | 0x5 => some .subtract
  | 0x6 => some .shiftRight
  | 0x7 => some .subtractFrom
  | 0xE => some .shiftLeft
  | _ => none

namespace Instruction

/-- An opcode with a family, a register and a final byte. -/
def registerByte (family : Nat) (x : Register) (byte : Nat) : UInt16 :=
  .ofNat (4096 * family + 256 * x.val + byte)

/-- An opcode with a family, two registers and a final digit. -/
def registerPair (family : Nat) (x y : Register) (digit : Nat) : UInt16 :=
  .ofNat (4096 * family + 256 * x.val + 16 * y.val + digit)

/-- An opcode with a family and an address. -/
def familyAddress (family : Nat) (address : Address) : UInt16 :=
  .ofNat (4096 * family + address.val)

/-- The opcode of an instruction. The digit without meaning is zero. -/
def encode : Instruction → UInt16
  | .nop => 0x0000
  | .clearScreen => 0x00E0
  | .ret => 0x00EE
  | .jump target => familyAddress 0x1 target
  | .call target => familyAddress 0x2 target
  | .skip (.isByte x byte) => registerByte 0x3 x byte.toNat
  | .skip (.isNotByte x byte) => registerByte 0x4 x byte.toNat
  | .skip (.same x y) => registerPair 0x5 x y 0
  | .setByte x byte => registerByte 0x6 x byte.toNat
  | .addByte x byte => registerByte 0x7 x byte.toNat
  | .arithmetic operation x y => registerPair 0x8 x y operation.digit
  | .skip (.different x y) => registerPair 0x9 x y 0
  | .setIndex address => familyAddress 0xA address
  | .jumpOffset base => familyAddress 0xB base
  | .random x mask => registerByte 0xC x mask.toNat
  | .draw x y rows => registerPair 0xD x y rows.val
  | .skip (.keyDown x) => registerByte 0xE x 0x9E
  | .skip (.keyUp x) => registerByte 0xE x 0xA1
  | .readDelay x => registerByte 0xF x 0x07
  | .awaitKey x => registerByte 0xF x 0x0A
  | .setDelay x => registerByte 0xF x 0x15
  | .setSound x => registerByte 0xF x 0x18
  | .addToIndex x => registerByte 0xF x 0x1E
  | .pointAtGlyph x => registerByte 0xF x 0x29
  | .storeDigits x => registerByte 0xF x 0x33
  | .storeRegisters x => registerByte 0xF x 0x55
  | .loadRegisters x => registerByte 0xF x 0x65
  | .saveFlags x => registerByte 0xF x 0x75
  | .restoreFlags x => registerByte 0xF x 0x85

/-- The instructions of family zero, told apart by their final byte. -/
def plain? : Nat → Option Instruction
  | 0x00 => some .nop
  | 0xE0 => some .clearScreen
  | 0xEE => some .ret
  | _ => none

/-- The skips on keys, told apart by their final byte. -/
def keySkip? (x : Register) : Nat → Option Instruction
  | 0x9E => some (.skip (.keyDown x))
  | 0xA1 => some (.skip (.keyUp x))
  | _ => none

/-- The instructions on one register, told apart by their final byte. -/
def single? (x : Register) : Nat → Option Instruction
  | 0x07 => some (.readDelay x)
  | 0x0A => some (.awaitKey x)
  | 0x15 => some (.setDelay x)
  | 0x18 => some (.setSound x)
  | 0x1E => some (.addToIndex x)
  | 0x29 => some (.pointAtGlyph x)
  | 0x33 => some (.storeDigits x)
  | 0x55 => some (.storeRegisters x)
  | 0x65 => some (.loadRegisters x)
  | 0x75 => some (.saveFlags x)
  | 0x85 => some (.restoreFlags x)
  | _ => none

/-- Read an opcode; `none` where it means no instruction. -/
def decode? (opcode : UInt16) : Option Instruction :=
  let code := opcode.toNat
  let address : Address := .ofNat 4096 code
  let x : Register := .ofNat 16 (code / 256)
  let y : Register := .ofNat 16 (code / 16)
  let byte := UInt8.ofNat code
  match code / 4096 with
  | 0x0 => plain? (code % 256)
  | 0x1 => some (.jump address)
  | 0x2 => some (.call address)
  | 0x3 => some (.skip (.isByte x byte))
  | 0x4 => some (.skip (.isNotByte x byte))
  | 0x5 => if code % 16 = 0 then some (.skip (.same x y)) else none
  | 0x6 => some (.setByte x byte)
  | 0x7 => some (.addByte x byte)
  | 0x8 => (Operation.ofDigit? (code % 16)).map (.arithmetic · x y)
  | 0x9 => if code % 16 = 0 then some (.skip (.different x y)) else none
  | 0xA => some (.setIndex address)
  | 0xB => some (.jumpOffset address)
  | 0xC => some (.random x byte)
  | 0xD => some (.draw x y (.ofNat 16 code))
  | 0xE => keySkip? x (code % 256)
  | 0xF => single? x (code % 256)
  | _ => none

end Instruction

end Chip8
