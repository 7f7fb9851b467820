import Chip8.Keys.Layout
import Chip8.Notice

/-!
# Devices

What a console needs from the world around it: keys to poll, a display to show
pictures on, and a place where the flag registers outlive a session. A device is
a type of states with functions on them; everything a device does to the machine
is in the answer, also where that answer is a failure.
-/

namespace Chip8

/-- Whether to go on after polling the keys. -/
inductive Control where
  | proceed
  | quit
deriving DecidableEq, Repr

/-- What polling the keys gives. -/
structure Polled (ι : Type) where
  answer : Except Failure Control
  machine : Machine
  keys : ι
  notices : List Notice

/-- A source of key presses, asked once before each frame. -/
class KeySource (ι : Type) where
  poll : ι → Keymap → Machine → Polled ι

/-- A place to show pictures. -/
class Display (δ : Type) where
  present : δ → Frame → Except DeviceError Unit × δ

/-- A place to keep the flag registers; it may hold none. -/
class FlagStore (φ : Type) where
  load : φ → Except Failure (Option Registers) × φ
  save : φ → Registers → Except Failure Unit × φ

/-- A display that keeps all pictures it was shown, the latest one last. -/
structure Recording where
  frames : Array Frame
deriving DecidableEq

namespace Recording

/-- No picture was shown yet. -/
def empty : Recording := ⟨#[]⟩

/-- The latest picture. -/
def last? (recording : Recording) : Option Frame := recording.frames.back?

/-- Keep one more picture. -/
def add (recording : Recording) (frame : Frame) : Recording := ⟨recording.frames.push frame⟩

end Recording

instance : Display Recording where
  present recording frame := (.ok (), recording.add frame)

end Chip8
