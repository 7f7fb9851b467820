import Chip8.Machine.CallStack
import Chip8.Machine.Sprite
import Chip8.Random.Generator

/-!
# Executing instructions

What each instruction does to a machine whose program counter already points
past it. Instructions that set the flag register `VF` set it last, so it holds
the flag also where it is the register they compute.
-/

namespace Chip8

/-- The flag register. -/
def flagRegister : Register := 15

namespace Operation

/-- The result for the values of two registers, and the flag of those
operations that set one. -/
def apply (operation : Operation) (vx vy : UInt8) : UInt8 × Option Bool :=
  match operation with
  | copy => (vy, none)
  | or => (vx ||| vy, none)
  | and => (vx &&& vy, none)
  | xor => (vx ^^^ vy, none)
  | add => (vx + vy, some (256 ≤ vx.toNat + vy.toNat))
  | subtract => (vx - vy, some (vy ≤ vx))
  | shiftRight => (.ofNat (vy.toNat / 2), some (vx.toNat % 2 = 1))
  | subtractFrom => (vy - vx, some (vx ≤ vy))
  | shiftLeft => (.ofNat (2 * vy.toNat), some (128 ≤ vx.toNat))

end Operation

namespace Machine

/-- Set the flag register to one or zero. -/
def setFlag (machine : Machine) (flag : Bool) : Machine :=
  machine.setRegister flagRegister flag.toUInt8

/-- The condition of a skip holds. -/
def holds (machine : Machine) : Condition → Bool
  | .isByte x byte => machine.v.get x == byte
  | .isNotByte x byte => machine.v.get x != byte
  | .same x y => machine.v.get x == machine.v.get y
  | .different x y => machine.v.get x != machine.v.get y
  | .keyDown x => machine.isKeyDown (machine.v.get x).toNat
  | .keyUp x => !machine.isKeyDown (machine.v.get x).toNat

/-- Leave out the next instruction. -/
def skipNext (machine : Machine) : Machine :=
  { machine with pc := machine.pc + 2 }

/-- Combine two registers into the first and set the flag if there is one. -/
def arithmetic (machine : Machine) (operation : Operation) (x y : Register) : Machine :=
  match operation.apply (machine.v.get x) (machine.v.get y) with
  | (value, none) => machine.setRegister x value
  | (value, some flag) => (machine.setRegister x value).setFlag flag

/-- Draw the sprite at the index register and set the flag if a lit pixel was
turned off. The position is read before the flag is set. -/
def draw (machine : Machine) (x y : Register) (rows : Fin 16) : Machine :=
  let drawn := machine.memory.drawSprite machine.index.toNat
    (machine.v.get x).toNat (machine.v.get y).toNat rows.val
  { machine with memory := drawn.memory }.setFlag drawn.collision

/-- The decimal digits of a byte, hundreds first. -/
def digits (value : UInt8) : List UInt8 :=
  [value / 100, value / 10 % 10, value % 10]

/-- The registers up to and including one of them. -/
def registersThrough (registers : Registers) (x : Register) : List UInt8 :=
  registers.toList.take (x.val + 1)

/-- Replace the registers up to and including one of them by what `source` gives
for their numbers. -/
def replaceThrough (registers : Registers) (x : Register) (source : Register → UInt8) :
    Registers :=
  .ofFn fun r => if r ≤ x then source r else registers.get r

/-- Move the index register on. -/
def advanceIndex (machine : Machine) (count : Nat) : Machine :=
  { machine with index := machine.index + .ofNat count }

/-- Execute an instruction: what comes of it, and the machine and the generator after
it. Only calls and returns can fail, and only the random instruction uses the generator. -/
def execute (machine : Machine) (generator : Generator) :
    Instruction → Except Fault Unit × Machine × Generator
  | .nop => (.ok (), machine, generator)
  | .clearScreen => (.ok (), { machine with memory := machine.memory.clearScreen }, generator)
  | .ret => match machine.pop with
    | (.error fault, popped) => (.error fault, popped, generator)
    | (.ok address, popped) => (.ok (), { popped with pc := address }, generator)
  | .jump target => (.ok (), { machine with pc := .ofNat target.val }, generator)
  | .call target => match machine.push machine.pc with
    | (.error fault, pushed) => (.error fault, pushed, generator)
    | (.ok (), pushed) => (.ok (), { pushed with pc := .ofNat target.val }, generator)
  | .jumpOffset base =>
    (.ok (), { machine with pc := .ofNat (base.val + (machine.v.get 0).toNat) }, generator)
  | .skip condition =>
    (.ok (), if machine.holds condition then machine.skipNext else machine, generator)
  | .setByte x byte => (.ok (), machine.setRegister x byte, generator)
  | .addByte x byte => (.ok (), machine.setRegister x (machine.v.get x + byte), generator)
  | .arithmetic operation x y => (.ok (), machine.arithmetic operation x y, generator)
  | .setIndex address => (.ok (), { machine with index := .ofNat address.val }, generator)
  | .addToIndex x => (.ok (), machine.advanceIndex (machine.v.get x).toNat, generator)
  | .pointAtGlyph x =>
    (.ok (), { machine with
      index := .ofNat (fontStart + glyphSize * (machine.v.get x).toNat) }, generator)
  | .random x mask =>
    let (byte, later) := generator.next
    (.ok (), machine.setRegister x (byte &&& mask), later)
  | .draw x y rows => (.ok (), machine.draw x y rows, generator)
  | .readDelay x => (.ok (), machine.setRegister x machine.delay, generator)
  | .awaitKey x =>
    (.ok (), if machine.keys.any id then machine.setRegister x 1
      else { machine with pc := machine.pc - 2 }, generator)
  | .setDelay x => (.ok (), { machine with delay := machine.v.get x }, generator)
  | .setSound x => (.ok (), { machine with sound := machine.v.get x }, generator)
  | .storeDigits x =>
    (.ok (), { machine with
      memory := machine.memory.writeList machine.index.toNat (digits (machine.v.get x)) }, generator)
  | .storeRegisters x =>
    (.ok (), { machine with
      memory := machine.memory.writeList machine.index.toNat
        (registersThrough machine.v x) }.advanceIndex (x.val + 1), generator)
  | .loadRegisters x =>
    (.ok (), { machine with
      v := replaceThrough machine.v x fun r =>
        machine.memory.read (machine.index.toNat + r.val) }.advanceIndex (x.val + 1), generator)
  | .saveFlags x =>
    (.ok (), { machine with flags := replaceThrough machine.flags x fun r => machine.v.get r },
      generator)
  | .restoreFlags x =>
    (.ok (), { machine with v := replaceThrough machine.v x fun r => machine.flags.get r }, generator)

end Machine

end Chip8
