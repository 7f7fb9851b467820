import Chip8.Keys.Layout

/-!
# Settings

How a run is set up, with the values that hold where nothing else is asked for.
-/

namespace Chip8

/-- The key layouts to choose from. -/
inductive KeymapChoice where
  | conventional
  | literal
deriving DecidableEq, Repr

namespace KeymapChoice

/-- The keymap of a choice. -/
def keymap : KeymapChoice → Keymap
  | conventional => .conventional
  | literal => .literal

end KeymapChoice

/-- How a run is set up. -/
structure Settings where
  /-- The file that holds the program. -/
  program : String
  /-- Frames in a second; zero for as many as can be. -/
  frameRate : Nat := 60
  /-- Instructions in a frame. -/
  batchSize : Nat := 20
  /-- The file the flag registers are kept in. -/
  flagFile : Option String := none
  keymap : KeymapChoice := .conventional
  /-- Frames a key press lasts. -/
  keyHold : Nat := 6
  /-- What makes random bytes repeatable. -/
  seed : Option UInt64 := none
deriving DecidableEq, Repr

namespace Settings

/-- The nanoseconds of a frame; none at all for a rate of zero. -/
def frameNanoseconds (settings : Settings) : Nat :=
  if settings.frameRate = 0 then 0 else 1000000000 / settings.frameRate

end Settings

end Chip8
