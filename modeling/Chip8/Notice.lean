import Chip8.Failure
import Chip8.Keys.Code
import Chip8.Machine.Step
import Chip8.Picture.Text

/-!
# Notices

What a console reports about a run besides its result. A notice is a fact; its
level, its words and its named details are derived from that fact here.
-/

namespace Chip8

/-- How much a notice matters. -/
inductive Level where
  | error
  | warning
  | info
  | debug
  | trace
deriving DecidableEq, Repr

/-- Something worth reporting. -/
inductive Notice where
  /-- A program of this length was copied into memory. -/
  | programLoaded (size : Nat)
  /-- A program of this length was not copied, and the screen was detached. -/
  | screenDetached (size : Nat)
  /-- The program counter left the program. -/
  | leftProgram (pc : UInt16)
  /-- The program jumped to where it was. -/
  | selfJump (pc : UInt16)
  /-- The user wanted to leave after so many frames. -/
  | quitRequested (frames : UInt64)
  /-- The picture at the end of the program. -/
  | finalFrame (frame : Frame)
  /-- A run failed with the program counter at this address. -/
  | stopped (failure : Failure) (pc : UInt16)
  /-- A key without a name was pressed. -/
  | unknownKey (code : KeyCode)
  /-- A key was pressed whose name is not bound. -/
  | unboundKey (name : String)
deriving DecidableEq

namespace Notice

/-- How much it matters. -/
def level : Notice → Level
  | programLoaded _ => .debug
  | screenDetached _ => .info
  | leftProgram _ => .debug
  | selfJump _ => .debug
  | quitRequested _ => .debug
  | finalFrame _ => .trace
  | stopped _ _ => .error
  | unknownKey _ => .warning
  | unboundKey _ => .warning

/-- Its words. -/
def message : Notice → String
  | programLoaded _ => "ROM loaded"
  | screenDetached _ => "ROM reaches display RAM, using a detached screen buffer"
  | leftProgram _ => "PC outside program, halting"
  | selfJump _ => "jump to self, halting"
  | quitRequested _ => "quit requested"
  | finalFrame frame => "final frame\n" ++ frame.text screenWidth screenHeight
  | stopped _ _ => "execution stopped"
  | unknownKey _ => "unknown key event received"
  | unboundKey _ => "can't map key to a CHIP-8 key"

/-- Its details, each with a name. -/
def details : Notice → List (String × String)
  | programLoaded size => [("size", size.repr)]
  | screenDetached size => [("size", size.repr), ("limit", programLimit.repr)]
  | leftProgram pc => [("pc", pc.toNat.repr)]
  | selfJump pc => [("pc", pc.toNat.repr)]
  | quitRequested frames => [("frames", frames.toNat.repr)]
  | finalFrame _ => []
  | stopped failure pc => [("error", failure.message), ("pc", pc.toNat.repr)]
  | unknownKey code => [("key", code.description)]
  | unboundKey name => [("key", name)]

/-- What is reported when a program is loaded. -/
def ofLoad (program : List UInt8) : Notice :=
  if programLimit ≤ program.length then .screenDetached program.length
  else .programLoaded program.length

/-- What is reported when a program ends with the instruction at an address. -/
def ofHalt : Halt → UInt16 → Notice
  | .outside, pc => .leftProgram pc
  | .selfJump, pc => .selfJump pc

end Notice

end Chip8
