import Chip8.Keys.Code

/-!
# Key presses as terminals send them

A terminal in raw mode sends most keys as their character. Control with a letter
comes as one of the first characters of the code, and the arrows come as an
escape, a bracket and a letter. An escape that starts no arrow is the escape key.
-/

namespace Chip8.KeyPress

/-- The press of a key that is sent as a single character. -/
def ofChar (character : Char) : KeyPress :=
  if character = '\r' ∨ character = '\n' then ⟨.enter, false⟩
  else if character = '\t' then ⟨.tab, false⟩
  else if character = '\x7f' then ⟨.backspace, false⟩
  else if character = '\x1b' then ⟨.escape, false⟩
  else if character.toNat < 32 then ⟨.char (.ofNat (character.toNat + 96)), true⟩
  else ⟨.char character, false⟩

/-- The arrow with a letter. -/
def arrow? : Char → Option KeyCode
  | 'A' => some .up
  | 'B' => some .down
  | 'C' => some .right
  | 'D' => some .left
  | _ => none

/-- The key presses in what a terminal sent. -/
def ofCharacters : List Char → List KeyPress
  | '\x1b' :: '[' :: letter :: rest => match arrow? letter with
    | some code => ⟨code, false⟩ :: ofCharacters rest
    | none => ⟨.escape, false⟩ :: ofChar '[' :: ofChar letter :: ofCharacters rest
  | character :: rest => ofChar character :: ofCharacters rest
  | [] => []

end Chip8.KeyPress
