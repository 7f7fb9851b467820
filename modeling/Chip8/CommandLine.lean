import Chip8.Settings
import Chip8.Text.Numeral

/-!
# The command line

Arguments are read in order and the first bad one decides. A word is either an
option, whose value follows it directly or behind an equals sign, or the
program's file name, of which there is one. After a lone `--` no word is an
option.

A value that follows its option, and the file name, wait until the next
recognised word before they are looked at. So an unknown word is found before a
mistake in the value that waits.
-/

namespace Chip8.CommandLine

/-- What can be said on the command line: the program's file name, or an option. -/
inductive Parameter where
  | program
  | frameRate
  | batchSize
  | flagFile
  | keymap
  | keyHold
  | seed
  | maxFrames
deriving DecidableEq, Repr

/-- The parameter an option's name stands for. Names are not shortened. -/
def Parameter.ofName? : String → Option Parameter
  | "frame-rate" => some frameRate
  | "instructions-per-frame" => some batchSize
  | "flag-file" => some flagFile
  | "keymap" => some keymap
  | "key-hold" => some keyHold
  | "seed" => some seed
  | "max-frames" => some maxFrames
  | _ => none

/-- Why there is nothing to run. -/
inductive Refusal where
  | helpRequested
  | versionRequested
  /-- A word has no meaning where it stands. -/
  | unknownArgument
  /-- A value is missing or empty, or is not among those to choose from. -/
  | invalidValue
  /-- A value is no number, or a number that is too large. -/
  | invalidNumber
  /-- An option is given a second time. -/
  | repeated
  /-- A request for help or version has a value. -/
  | unneededValue
  /-- No program is named. -/
  | missingProgram
deriving DecidableEq, Repr

/-- What to run: how a run is set up, and its limit of frames. -/
structure Invocation where
  settings : Settings
  maxFrames : Option UInt64
deriving DecidableEq, Repr

/-! ## Values -/

/-- A number of 32 bits, signs allowed. -/
def readCount (value : String) : Except Refusal Nat :=
  match Text.signed? value.toList with
  | some (.ofNat number) => if number < UInt32.size then .ok number else .error .invalidNumber
  | _ => .error .invalidNumber

/-- A number of 64 bits, a plus sign allowed. -/
def readLong (value : String) : Except Refusal UInt64 :=
  match Text.unsigned? value.toList with
  | some number => if number < UInt64.size then .ok (.ofNat number) else .error .invalidNumber
  | none => .error .invalidNumber

/-- A file name, which is never empty. -/
def readPath (value : String) : Except Refusal String :=
  if value = "" then .error .invalidValue else .ok value

/-- The name of a key layout. -/
def readKeymap : String → Except Refusal KeymapChoice
  | "conventional" => .ok .conventional
  | "literal" => .ok .literal
  | _ => .error .invalidValue

/-- What has been set so far, and by which parameters. -/
structure Draft where
  invocation : Invocation
  given : List Parameter
deriving DecidableEq, Repr

namespace Draft

/-- Nothing is set. The empty file name is no one's: a program has to be given. -/
def initial : Draft := ⟨⟨{ program := "" }, none⟩, []⟩

/-- The invocation with a parameter set to what its value says. -/
def set (invocation : Invocation) (parameter : Parameter) (value : String) :
    Except Refusal Invocation :=
  let settings := invocation.settings
  match parameter with
  | .program => do
    let path ← readPath value
    return { invocation with settings := { settings with program := path } }
  | .frameRate => do
    let count ← readCount value
    return { invocation with settings := { settings with frameRate := count } }
  | .batchSize => do
    let count ← readCount value
    return { invocation with settings := { settings with batchSize := count } }
  | .flagFile => do
    let path ← readPath value
    return { invocation with settings := { settings with flagFile := some path } }
  | .keymap => do
    let choice ← readKeymap value
    return { invocation with settings := { settings with keymap := choice } }
  | .keyHold => do
    let count ← readCount value
    return { invocation with settings := { settings with keyHold := count } }
  | .seed => do
    let seed ← readLong value
    return { invocation with settings := { settings with seed := some seed } }
  | .maxFrames => do
    let limit ← readLong value
    return { invocation with maxFrames := some limit }

/-- Set a parameter for the first and only time. -/
def assign (draft : Draft) (parameter : Parameter) (value : String) : Except Refusal Draft := do
  if parameter ∈ draft.given then throw .repeated
  let invocation ← set draft.invocation parameter value
  return ⟨invocation, parameter :: draft.given⟩

end Draft

/-! ## Words -/

/-- A word of the command line, by its form alone. -/
inductive Word where
  /-- Two hyphens and nothing else. -/
  | terminator
  /-- Two hyphens, a name, and what stands behind an equals sign. -/
  | long (name : String) (value : Option String)
  /-- A hyphen and more; only the first letter behind it matters. -/
  | short (letter : Char)
  /-- Any other word, a lone hyphen included. -/
  | plain (text : String)
deriving DecidableEq, Repr

namespace Word

/-- A long option, split at its first equals sign. -/
def splitLong (characters : List Char) : Word :=
  let name := String.ofList (characters.takeWhile (· != '='))
  match characters.dropWhile (· != '=') with
  | [] => long name none
  | _ :: value => long name (some (.ofList value))

/-- The form of a word. -/
def ofString (text : String) : Word :=
  match text.toList with
  | ['-', '-'] => terminator
  | '-' :: '-' :: rest => splitLong rest
  | '-' :: letter :: _ => short letter
  | _ => plain text

end Word

/-! ## Reading -/

/-- Where a reader of the command line stands. -/
structure State where
  draft : Draft
  /-- A parameter that waits to be looked at, with its value if that has come. -/
  waiting : Option (Parameter × Option String)
  /-- The program's file name has come. -/
  named : Bool
  /-- No further word is an option. -/
  terminated : Bool
deriving DecidableEq, Repr

namespace State

/-- No word was read. -/
def initial : State := ⟨.initial, none, false, false⟩

/-- Look at the parameter that waits. -/
def settle (state : State) : Except Refusal State :=
  match state.waiting with
  | none => .ok state
  | some (_, none) => .error .invalidValue
  | some (parameter, some value) => do
    let draft ← state.draft.assign parameter value
    return { state with draft := draft, waiting := none }

/-- Take a word for the program's file name. -/
def name (state : State) (text : String) : Except Refusal State := do
  if state.named then throw .unknownArgument
  let settled ← state.settle
  return { settled with waiting := some (.program, some text), named := true }

/-- Look at the parameter that waits, and then refuse to go on. -/
def settleAndRefuse (state : State) (refusal : Refusal) : Except Refusal State := do
  let _ ← state.settle
  throw refusal

/-- Read a long option. -/
def long (state : State) (name : String) (value : Option String) : Except Refusal State :=
  match Parameter.ofName? name, value with
  | some parameter, none => do
    let settled ← state.settle
    return { settled with waiting := some (parameter, none) }
  | some parameter, some value => do
    let settled ← state.settle
    let draft ← settled.draft.assign parameter value
    return { settled with draft := draft }
  | none, value =>
    if name = "help" ∨ name = "version" then
      match value with
      | some _ => .error .unneededValue
      | none => state.settleAndRefuse (if name = "help" then .helpRequested else .versionRequested)
    else .error .unknownArgument

/-- Read one word. -/
def read (state : State) (text : String) : Except Refusal State :=
  if state.terminated then state.name text
  else match Word.ofString text with
    | .terminator => .ok { state with terminated := true }
    | .long name value => state.long name value
    | .short letter =>
      if letter = 'h' then state.settleAndRefuse .helpRequested
      else if letter = 'V' then state.settleAndRefuse .versionRequested
      else .error .unknownArgument
    | .plain text => match state.waiting with
      | some (parameter, none) => .ok { state with waiting := some (parameter, some text) }
      | _ => state.name text

end State

/-- Read a whole command line, without the name of the command itself. -/
def parse (words : List String) : Except Refusal Invocation := do
  let state ← words.foldlM State.read .initial
  let settled ← state.settle
  if Parameter.program ∈ settled.draft.given then return settled.draft.invocation
  throw .missingProgram

end Chip8.CommandLine
