/-!
# Terminal key codes

What a terminal reports for a key press. Only characters and arrows have a name
that a keymap may know; all other codes have no more than a description.
-/

namespace Chip8

/-- A key as a terminal reports it. -/
inductive KeyCode where
  | char (character : Char)
  | function (number : Nat)
  | escape
  | up
  | down
  | left
  | right
  | enter
  | backspace
  | home
  | endKey
  | pageUp
  | pageDown
  | tab
  | backTab
  | delete
  | insert
  | null
deriving DecidableEq, Repr

/-- A key press with the state of the control key. The other modifiers do not
matter here. -/
structure KeyPress where
  code : KeyCode
  control : Bool
deriving DecidableEq, Repr

namespace KeyCode

/-- The name a keymap may know: the character in lower case, for the letters `A`
to `Z`, or the arrow. -/
def name? : KeyCode → Option String
  | char character => some (.singleton character.toLower)
  | up => some "ArrowUp"
  | down => some "ArrowDown"
  | left => some "ArrowLeft"
  | right => some "ArrowRight"
  | _ => none

/-- A description for people. -/
def description : KeyCode → String
  | char character => "Char(".push character ++ ")"
  | function number => "F(" ++ number.repr ++ ")"
  | escape => "Esc"
  | up => "Up"
  | down => "Down"
  | left => "Left"
  | right => "Right"
  | enter => "Enter"
  | backspace => "Backspace"
  | home => "Home"
  | endKey => "End"
  | pageUp => "PageUp"
  | pageDown => "PageDown"
  | tab => "Tab"
  | backTab => "BackTab"
  | delete => "Delete"
  | insert => "Insert"
  | null => "Null"

end KeyCode

namespace KeyPress

/-- The user wants to leave: escape, or `c` while control is held. -/
def quits (press : KeyPress) : Bool :=
  press.code == .escape || (press.code == .char 'c' && press.control)

end KeyPress

end Chip8
