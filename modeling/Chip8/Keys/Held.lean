import Chip8.Console.Devices

/-!
# Held keys

A terminal reports that a key was pressed, and again while it is held, but never
that it was let go. So every press keeps its key down for a number of frames,
counted anew with each further press, and the key goes up when the count ends.
-/

namespace Chip8

/-- How long presses last, and for each key how many frames remain. -/
structure HeldKeys where
  hold : Nat
  remaining : Vector Nat 16
deriving DecidableEq, Repr

namespace HeldKeys

/-- No key is held. -/
def initial (hold : Nat) : HeldKeys := ⟨hold, .replicate 16 0⟩

/-- Count one frame and let those keys go whose count ends with it. -/
def release (held : HeldKeys) (machine : Machine) : HeldKeys × Machine :=
  ({ held with remaining := held.remaining.map (· - 1) },
    { machine with
      keys := .ofFn fun key => if held.remaining.get key = 1 then false else machine.keys.get key })

/-- What a key press leads to. -/
structure Pressed where
  control : Control
  held : HeldKeys
  machine : Machine
  notices : List Notice

/-- Handle one key press. A press lasts at least one frame. -/
def press (held : HeldKeys) (keymap : Keymap) (machine : Machine) (event : KeyPress) : Pressed :=
  if event.quits then ⟨.quit, held, machine, []⟩
  else match event.code.name? with
    | none => ⟨.proceed, held, machine, [.unknownKey event.code]⟩
    | some name => match keymap.resolve name with
      | none => ⟨.proceed, held, machine, [.unboundKey name]⟩
      | some key =>
        ⟨.proceed, { held with remaining := held.remaining.setIfInBounds key (max held.hold 1) },
          machine.setKey key.val true, []⟩

end HeldKeys

/-- Held keys and the key presses that have arrived since the last frame. -/
structure TerminalKeys where
  held : HeldKeys
  arrived : List KeyPress
deriving DecidableEq, Repr

namespace TerminalKeys

/-- Handle key presses in order, up to one that leaves. -/
def handle (keymap : Keymap) (held : HeldKeys) (machine : Machine) :
    List KeyPress → Polled TerminalKeys
  | [] => ⟨.ok .proceed, machine, ⟨held, []⟩, []⟩
  | event :: rest =>
    let pressed := held.press keymap machine event
    match pressed.control with
    | .quit => ⟨.ok .quit, pressed.machine, ⟨pressed.held, rest⟩, pressed.notices⟩
    | .proceed =>
      let polled := handle keymap pressed.held pressed.machine rest
      { polled with notices := pressed.notices ++ polled.notices }

/-- Count one frame, then handle what has arrived. -/
def poll (terminal : TerminalKeys) (keymap : Keymap) (machine : Machine) : Polled TerminalKeys :=
  let (held, released) := terminal.held.release machine
  handle keymap held released terminal.arrived

end TerminalKeys

instance : KeySource TerminalKeys := ⟨TerminalKeys.poll⟩

end Chip8
