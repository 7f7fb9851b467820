import Chip8.Console.Devices
import Chip8.Text.Blank

/-!
# Flag stores

Two places for the flag registers' written form. One is a text in memory. The
other is a file: it may be missing, its directory may be missing, it may be a
directory itself, and its bytes may be no text. White space around the list in a
file is ignored.
-/

namespace Chip8

/-- A text in memory, or none before anything was saved. -/
structure TextStore where
  saved : Option String
deriving DecidableEq, Repr

namespace TextStore

/-- Read the text, if there is one. -/
def load (store : TextStore) : Except Failure (Option Registers) :=
  match store.saved with
  | none => .ok none
  | some text => match Listing.decode text with
    | .error error => .error (.flags error)
    | .ok flags => .ok (some flags)

/-- Replace the text. -/
def save (_store : TextStore) (flags : Registers) : TextStore := ⟨some (Listing.encode flags)⟩

end TextStore

instance : FlagStore TextStore where
  load store := (store.load, store)
  save store flags := (.ok (), store.save flags)

/-- What a path leads to. -/
inductive FileStore where
  /-- Nothing, but a file can be made there. -/
  | absent
  /-- Nothing, and there is no directory to make a file in. -/
  | unreachable
  | directory
  | file (content : ByteArray)

namespace FileStore

/-- Read the file, if there is one. -/
def load : FileStore → Except Failure (Option Registers)
  | absent => .ok none
  | unreachable => .ok none
  | directory => .error (.device .isDirectory)
  | file content => match String.fromUTF8? content with
    | none => .error (.device .notText)
    | some text => match Listing.decode (.ofList (Text.trim text.toList)) with
      | .error error => .error (.flags error)
      | .ok flags => .ok (some flags)

/-- Make or replace the file. -/
def save (store : FileStore) (flags : Registers) : Except Failure Unit × FileStore :=
  match store with
  | unreachable => (.error (.device .notFound), store)
  | directory => (.error (.device .isDirectory), store)
  | _ => (.ok (), file (Listing.encode flags).toUTF8)

end FileStore

instance : FlagStore FileStore where
  load store := (store.load, store)
  save store flags := store.save flags

end Chip8
