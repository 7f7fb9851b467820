import Chip8.Memory.Basic
import Chip8.Instruction.Basic

/-!
# The machine

Everything a running program can see or change, apart from the random
generator. A machine is plain data: hosts may set any part of it between two
instructions, and every value of the type is a machine that can be stepped.
-/

namespace Chip8

/-- The contents of sixteen registers. -/
abbrev Registers := Vector UInt8 16

/-- A machine's state. -/
structure Machine where
  memory : Memory
  /-- The registers `V0` to `VF`. -/
  v : Registers
  /-- The registers that outlive a session. -/
  flags : Registers
  /-- The index register. -/
  index : UInt16
  /-- The address of the next instruction. -/
  pc : UInt16
  /-- The number of return addresses on the call stack. -/
  sp : Nat
  delay : UInt8
  sound : UInt8
  /-- Which keys are down. -/
  keys : Vector Bool 16
  /-- Executed instructions, counted anew whenever a timer has gone down. -/
  ticks : UInt32
  /-- The length of the program loaded last; `none` before the first. -/
  programSize : Option Nat
deriving DecidableEq, Repr

namespace Machine

/-- A machine without a program: everything zero, the font in place. -/
def initial : Machine where
  memory := .initial
  v := .replicate 16 0
  flags := .replicate 16 0
  index := 0
  pc := .ofNat programStart
  sp := 0
  delay := 0
  sound := 0
  keys := .replicate 16 false
  ticks := 0
  programSize := none

/-- The picture on the screen. -/
def frame (machine : Machine) : Array UInt8 := machine.memory.frame

/-- Set a register. -/
def setRegister (machine : Machine) (x : Register) (value : UInt8) : Machine :=
  { machine with v := machine.v.set x value }

/-! ## Keys -/

/-- Press or release the key with a number. Other numbers do nothing. -/
def setKey (machine : Machine) (key : Nat) (down : Bool) : Machine :=
  { machine with keys := machine.keys.setIfInBounds key down }

/-- The key with a number is down. There are no others. -/
def isKeyDown (machine : Machine) (key : Nat) : Bool :=
  machine.keys[key]?.getD false

/-! ## Programs -/

/-- Take away what a program must not inherit from the one before. The program
counter stays where it is, and so do the keys. -/
def reset (machine : Machine) : Machine :=
  { machine with
    memory := machine.memory.clearScreen.clearStack
    v := .replicate 16 0
    flags := .replicate 16 0
    index := 0
    sp := 0
    delay := 0
    sound := 0
    ticks := 0 }

/-- Put a program's bytes in place. One that would reach the picture is not
copied at all, and the screen gets a buffer of its own. -/
def place (memory : Memory) (program : List UInt8) : Memory :=
  if programLimit ≤ program.length then memory.detachScreen
  else memory.attachScreen.loadProgram program

/-- Load a program. Every program but the first finds a machine that was reset. -/
def load (machine : Machine) (program : List UInt8) : Machine :=
  let ready := if machine.programSize.isNone then machine else machine.reset
  { ready with
    memory := place ready.memory program
    programSize := some program.length }

/-- The addresses of the program: the first, and the first one after it. -/
def programBounds (machine : Machine) : Option (Nat × Nat) :=
  machine.programSize.map fun size => (programStart, programStart + size)

end Machine

end Chip8
