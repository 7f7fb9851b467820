import Chip8.Console.Devices

/-!
# Scripted keys

Key changes fixed in advance, each for the frame at whose start it takes effect.
Changes of one frame are made in the order of the script. The frame at which the
script leaves makes no changes. Frames are numbered in 64 bits, and the numbers start
over after that.
-/

namespace Chip8

/-- A key that goes down or up at the start of a frame. -/
structure KeyChange where
  frame : UInt64
  name : String
  down : Bool
deriving DecidableEq, Repr

/-- A script and the number of the next frame. -/
structure Script where
  changes : List KeyChange
  quitAt : Option UInt64
  frame : UInt64
deriving DecidableEq, Repr

namespace Script

/-- A script that stands at its beginning. -/
def start (changes : List KeyChange) (quitAt : Option UInt64) : Script := ⟨changes, quitAt, 0⟩

/-- Make key changes one by one. -/
def apply (keymap : Keymap) (machine : Machine) (changes : List KeyChange) : Machine :=
  changes.foldl (fun machine change => machine.setNamedKey keymap change.name change.down) machine

/-- Play one frame. The script goes on to the next frame also after it left. -/
def poll (script : Script) (keymap : Keymap) (machine : Machine) : Polled Script :=
  let next := { script with frame := script.frame + 1 }
  if script.quitAt = some script.frame then ⟨.ok .quit, machine, next, []⟩
  else
    let due := script.changes.filter fun change => change.frame == script.frame
    ⟨.ok .proceed, apply keymap machine due, next, []⟩

end Script

instance : KeySource Script := ⟨Script.poll⟩

end Chip8
