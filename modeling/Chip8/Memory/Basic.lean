import Chip8.Memory.Layout

/-!
# Memory

A memory is 4096 bytes and a screen that is either a window on the last 256 of
them or a buffer of its own. Addresses are natural numbers, so an address never
wraps: a read past the end gives zero and a write there changes nothing.

The screen, the call stack and plain bytes are views of the same storage. The
operations of this module are the only ways in, so a statement about one view
follows from what `read` sees after each of them.
-/

namespace Chip8

/-- Where the picture is kept: in memory from `0xF00` on, or beside it in a
buffer that no address reaches. -/
inductive Screen where
  | mapped
  | detached (buffer : Vector UInt8 detachedSize)
deriving DecidableEq, Repr

/-- The bytes of memory and the place of the picture. -/
structure Memory where
  bytes : Vector UInt8 memorySize
  screen : Screen
deriving DecidableEq, Repr

namespace Memory

/-- The byte at an address; zero past the end. -/
def read (memory : Memory) (address : Nat) : UInt8 :=
  memory.bytes[address]?.getD 0

/-- Set the byte at an address; nothing happens past the end. -/
def write (memory : Memory) (address : Nat) (value : UInt8) : Memory :=
  { memory with bytes := memory.bytes.setIfInBounds address value }

/-- Set consecutive bytes from an address on. What falls off the end is lost. -/
def writeList (memory : Memory) (address : Nat) : List UInt8 → Memory
  | [] => memory
  | value :: rest => (memory.write address value).writeList (address + 1) rest

/-- The word at an address, its high byte first. -/
def word (memory : Memory) (address : Nat) : UInt16 :=
  .ofNat (256 * (memory.read address).toNat + (memory.read (address + 1)).toNat)

/-- The bytes from an address on, at most `count` of them and none past the end. -/
def slice (memory : Memory) (address count : Nat) : Array UInt8 :=
  memory.bytes.toArray.extract (min address memorySize) (min (address + count) memorySize)

/-- Memory as a new machine finds it: the font in place, all else zero, the
screen mapped. -/
def initial : Memory :=
  writeList ⟨.replicate memorySize 0, .mapped⟩ fontStart font

/-- Copy a program to the place where programs start. -/
def loadProgram (memory : Memory) (program : List UInt8) : Memory :=
  memory.writeList programStart program

/-! ## The call stack -/

/-- The address of a stack slot. Slots beyond the last one lie in the picture,
and then past the end of memory. -/
def slotAddress (slot : Nat) : Nat := stackStart + 2 * slot

/-- The return address in a stack slot, its low byte first. -/
def slot (memory : Memory) (index : Nat) : UInt16 :=
  .ofNat ((memory.read (slotAddress index)).toNat +
    256 * (memory.read (slotAddress index + 1)).toNat)

/-- Set the return address in a stack slot. -/
def setSlot (memory : Memory) (index : Nat) (value : UInt16) : Memory :=
  memory.writeList (slotAddress index) [.ofNat value.toNat, .ofNat (value.toNat / 256)]

/-- Zero all slots of the call stack. -/
def clearStack (memory : Memory) : Memory :=
  memory.writeList stackStart (.replicate (2 * stackSlots) 0)

/-! ## The screen -/

/-- The screen is a buffer of its own. -/
def isDetached (memory : Memory) : Bool :=
  match memory.screen with
  | .mapped => false
  | .detached _ => true

/-- The picture's bytes, row by row, wherever the screen is. -/
def frame (memory : Memory) : Array UInt8 :=
  match memory.screen with
  | .mapped => memory.slice screenStart screenSize
  | .detached buffer => buffer.toArray

/-- A byte of the picture; zero past its end. A mapped picture ends where memory
ends, so its bounds are those of `read`. -/
def readScreen (memory : Memory) (index : Nat) : UInt8 :=
  match memory.screen with
  | .mapped => memory.read (screenStart + index)
  | .detached buffer => buffer[index]?.getD 0

/-- Set a byte of the picture; nothing happens past its end. -/
def writeScreen (memory : Memory) (index : Nat) (value : UInt8) : Memory :=
  match memory with
  | ⟨bytes, .mapped⟩ => ⟨bytes.setIfInBounds (screenStart + index) value, .mapped⟩
  | ⟨bytes, .detached buffer⟩ => ⟨bytes, .detached (buffer.setIfInBounds index value)⟩

/-- Set consecutive bytes of the picture. What falls off its end is lost. -/
def writeScreenList (memory : Memory) (index : Nat) : List UInt8 → Memory
  | [] => memory
  | value :: rest => (memory.writeScreen index value).writeScreenList (index + 1) rest

/-- Turn every pixel off. -/
def clearScreen (memory : Memory) : Memory :=
  memory.writeScreenList 0 (.replicate screenSize 0)

/-- Give the screen a new dark buffer of its own. Memory keeps its bytes. -/
def detachScreen (memory : Memory) : Memory :=
  { memory with screen := .detached (.replicate detachedSize 0) }

/-- Put a detached screen back into memory, dark. A mapped one stays as it is. -/
def attachScreen (memory : Memory) : Memory :=
  match memory.screen with
  | .mapped => memory
  | .detached _ => clearScreen { memory with screen := .mapped }

end Memory

end Chip8
