import Chip8.CommandLine
import Chip8.Console.Run
import Chip8.Flags.Store
import Chip8.Keys.Held
import Chip8.Keys.Sequence
import Chip8.Picture.Escape

/-!
# The terminal program

Reads the command line and a program file, runs the program frame by frame, and
keeps the flag registers in a file if one is named. Keys are read from standard
input, which should be a terminal in raw mode; the picture goes to standard
output and notices to standard error. What happens in a frame is `Progress.frame`;
here it is only fed with key presses, drawn and timed.
-/

namespace Chip8.Terminal

/-- The words for a refused command line. -/
def refusalText : CommandLine.Refusal → String
  | .helpRequested =>
    "run a CHIP-8 program in the terminal. Esc quits\n\n" ++
    "Usage: chip8vm [OPTIONS] <ROM>\n\n" ++
    "Options:\n" ++
    "      --frame-rate <FRAME_RATE>  Frames per second, 0 to run flat out [default: 60]\n" ++
    "      --instructions-per-frame <INSTRUCTIONS_PER_FRAME>  [default: 20]\n" ++
    "      --flag-file <FLAG_FILE>    Keep the flag registers in this file between runs\n" ++
    "      --keymap <KEYMAP>          conventional or literal [default: conventional]\n" ++
    "      --key-hold <KEY_HOLD>      Frames a key stays down after a press [default: 6]\n" ++
    "      --seed <SEED>              Seed for CXNN, for repeatable runs\n" ++
    "      --max-frames <MAX_FRAMES>  Stop after this many frames\n" ++
    "  -h, --help                     Print help\n" ++
    "  -V, --version                  Print version"
  | .versionRequested => "chip8vm 0.1.0"
  | .unknownArgument => "error: unexpected argument found"
  | .invalidValue => "error: a value is missing or not possible"
  | .invalidNumber => "error: a value is not a number in range"
  | .repeated => "error: an option cannot be used multiple times"
  | .unneededValue => "error: an option takes no value"
  | .missingProgram => "error: the following required arguments were not provided: <ROM>"

/-- A notice in one line. -/
def noticeText (notice : Notice) : String :=
  notice.message ++ String.join (notice.details.map fun detail =>
    " " ++ detail.1 ++ "=" ++ detail.2)

/-- Print the notices that need attention. -/
def printNotices (notices : List Notice) : IO Unit :=
  for notice in notices do
    if notice.level = .error ∨ notice.level = .warning then
      IO.eprintln (noticeText notice)

/-- Collect what standard input gives, until it ends. -/
partial def collect (input : IO.FS.Stream) (pending : IO.Ref ByteArray) : IO Unit := do
  let bytes ← input.read 64
  unless bytes.isEmpty do
    pending.modify (· ++ bytes)
    collect input pending

/-- The key presses since the last call. -/
def takePresses (pending : IO.Ref ByteArray) : IO (List KeyPress) := do
  let bytes ← pending.swap ByteArray.empty
  return match String.fromUTF8? bytes with
    | some text => KeyPress.ofCharacters text.toList
    | none => []

/-- Show a picture. -/
def drawFrame (frame : Frame) : IO Unit := do
  let extent : Extent := ⟨screenWidth, screenHeight⟩
  let output ← IO.getStdout
  output.putStr (Panel.draw extent (screenWidth + 2) (screenHeight + 2) frame).output
  output.flush

/-- A run on the terminal that keeps its flag registers in a store. -/
abbrev TerminalRun (φ : Type) := Progress TerminalKeys Recording φ

/-- Play frames until the run ends or there are no more to play. -/
partial def play {φ : Type} (pending : IO.Ref ByteArray) (nanoseconds : Nat)
    (limit : Option UInt64) (progress : TerminalRun φ) : IO (TerminalRun φ × RunEnd) := do
  unless progress.isAllowed limit do return (progress, .limit)
  let started ← IO.monoNanosNow
  let arrived ← takePresses pending
  let console := progress.console
  let ready := { progress with
    console := { console with
      keys := { console.keys with arrived := arrived }, display := Recording.empty }
    notices := [] }
  let (after, ending) := ready.frame
  if let some frame := after.console.display.last? then drawFrame frame
  printNotices after.notices
  match ending with
  | some ending => return (after, ending)
  | none =>
    let elapsed := (← IO.monoNanosNow) - started
    IO.sleep ((nanoseconds - elapsed) / 1000000).toUInt32
    play pending nanoseconds limit after

/-- A generator whose key comes from the system, four bytes to a word. -/
def spareGenerator : IO Generator := do
  let bytes ← IO.getRandomBytes 32
  let word (place : Fin 8) : UInt32 :=
    .ofNat (((bytes.toList.drop (4 * place.val)).take 4).foldr
      (fun byte total => byte.toNat + 256 * total) 0)
  return ⟨.ofFn word, 0⟩

/-- Load and run a program, and give the flag store back. -/
def runProgram {φ : Type} [FlagStore φ] (invocation : CommandLine.Invocation)
    (program : List UInt8) (store : φ) : IO (Except Failure Unit × φ) := do
  let settings := invocation.settings
  let spare ← spareGenerator
  let keys : TerminalKeys := ⟨.initial settings.keyHold, []⟩
  let loaded := (Console.ofSettings settings spare keys Recording.empty store).load program
  let console := loaded.console
  printNotices loaded.notices
  match loaded.answer with
  | .error failure => return (.error failure, console.store)
  | .ok () =>
    let pending ← IO.mkRef ByteArray.empty
    let _ ← IO.asTask (collect (← IO.getStdin) pending)
    let (progress, ending) ← play pending settings.frameNanoseconds invocation.maxFrames
      console.begin
    let report := Console.close { progress with notices := [] } ending
    printNotices report.notices
    return (report.result.map fun _ => (), report.console.store)

/-- What the flag file's path leads to. -/
def readStore (path : String) : IO FileStore := do
  try
    return .file (← IO.FS.readBinFile path)
  catch
    | .noFileOrDirectory .. => return .absent
    | error => throw error

/-- Run a program with the flag registers in a file, or in memory only. -/
def runWithStore (invocation : CommandLine.Invocation) (program : List UInt8) :
    IO (Except Failure Unit) := do
  match invocation.settings.flagFile with
  | none => return (← runProgram invocation program (⟨none⟩ : TextStore)).1
  | some path =>
    let (result, store) ← runProgram invocation program (← readStore path)
    if let .file content := store then IO.FS.writeBinFile path content
    return result

end Chip8.Terminal

open Chip8 in
/-- Run the program that the command line names. -/
def main (words : List String) : IO UInt32 := do
  match CommandLine.parse words with
  | .error refusal =>
    if refusal = .helpRequested ∨ refusal = .versionRequested then
      IO.println (Terminal.refusalText refusal)
      return 0
    IO.eprintln (Terminal.refusalText refusal)
    return 2
  | .ok invocation =>
    let program ← IO.FS.readBinFile invocation.settings.program
    match ← Terminal.runWithStore invocation program.toList with
    | .ok () =>
      IO.print ("".pushn '\n' 12)
      return 0
    | .error failure =>
      IO.eprintln ("Error: " ++ failure.message)
      return 1
