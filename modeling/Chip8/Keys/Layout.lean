import Chip8.Machine.Basic

/-!
# Key layouts

A host names its keys by texts; a keymap says which of the machine's sixteen
keys a name stands for. Maps start from a layout, sixteen characters whose
places are the key numbers, and gain aliases, further names for a key that
already has one. A later binding of a name hides an earlier one.
-/

namespace Chip8

/-- Names bound to keys, the latest binding first. -/
structure Keymap where
  bindings : List (String × Fin 16)
deriving DecidableEq, Repr

namespace Keymap

/-- The key a name is bound to. -/
def resolve (keymap : Keymap) (name : String) : Option (Fin 16) :=
  keymap.bindings.lookup name

/-- Bind a name to the key that another name is bound to at this moment. An
alias of an unbound name is left out. -/
def addAlias (keymap : Keymap) (name target : String) : Keymap :=
  match keymap.resolve target with
  | none => keymap
  | some key => ⟨(name, key) :: keymap.bindings⟩

/-- Each character in order names the next key; characters after the sixteenth
name none. Of a repeated character the last one counts. -/
def ofCharacters (layout : List Char) : Keymap :=
  ⟨((layout.map String.singleton).zip (List.finRange 16)).reverse⟩

/-- A layout's characters, then its aliases one by one. -/
def ofLayout (layout : String) (aliases : List (String × String)) : Keymap :=
  aliases.foldl (fun keymap pair => keymap.addAlias pair.1 pair.2)
    (ofCharacters layout.toList)

/-- The keys at the left of a keyboard, with arrows for the four directions. -/
def conventional : Keymap :=
  ofLayout "x123qweasdzc4rfv"
    [("ArrowUp", "w"), ("ArrowDown", "s"), ("ArrowLeft", "a"), ("ArrowRight", "d")]

/-- Every key by its hexadecimal digit. -/
def literal : Keymap := ofLayout "0123456789abcdef" []

end Keymap

namespace Machine

/-- Press or release the key a name stands for. Unbound names do nothing. -/
def setNamedKey (machine : Machine) (keymap : Keymap) (name : String) (down : Bool) : Machine :=
  match keymap.resolve name with
  | none => machine
  | some key => machine.setKey key.val down

end Machine

end Chip8
