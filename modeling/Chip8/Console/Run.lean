import Chip8.Console.Devices
import Chip8.Settings

/-!
# Running programs

A console steps a machine frame by frame. A frame polls the keys, executes a
batch of instructions, and shows the picture if a sprite was drawn in that
batch. A run goes on until the program ends, the user leaves, something fails or
a limit of frames is reached; the flag registers are saved whichever it is. If
it comes to none of these it goes on forever, and there is no report of it. Frames
and instructions are counted in 64 bits, and the counters start over after that.
-/

namespace Chip8

/-- A machine with what it takes to run it. -/
structure Console (ι δ φ : Type) where
  machine : Machine
  generator : Generator
  keymap : Keymap
  /-- The number of instructions in a frame. -/
  batchSize : Nat
  keys : ι
  display : δ
  store : φ

/-! ## Batches of instructions -/

/-- How a batch ends. -/
inductive BatchEnd where
  /-- All its instructions were executed. -/
  | complete
  /-- The program ended with the instruction at this address. -/
  | halted (cause : Halt) (pc : UInt16)
  | failed (fault : Fault)
deriving DecidableEq, Repr

/-- How far a batch has come. -/
structure Batch where
  machine : Machine
  generator : Generator
  /-- Instructions executed so far. -/
  executed : UInt64
  /-- A sprite was drawn. -/
  drew : Bool

namespace Batch

/-- Execute up to the given number of instructions. -/
def run : Nat → Batch → Batch × BatchEnd
  | 0, batch => (batch, .complete)
  | remaining + 1, ⟨machine, generator, executed, drew⟩ =>
    match machine.step generator with
    | ⟨.error fault, after, later⟩ => (⟨after, later, executed, drew⟩, .failed fault)
    | ⟨.ok (.halted cause pc), after, later⟩ => (⟨after, later, executed, drew⟩, .halted cause pc)
    | ⟨.ok (.executed opcode), after, later⟩ =>
      run remaining ⟨after, later, executed + 1, drew || (Outcome.executed opcode).drew⟩

end Batch

/-! ## Frames -/

/-- How a run ends. -/
inductive RunEnd where
  /-- The limit of frames was reached. -/
  | limit
  | quit
  | halted
  | failed (failure : Failure)
deriving DecidableEq, Repr

/-- How far a run has come. -/
structure Progress (ι δ φ : Type) where
  console : Console ι δ φ
  /-- Frames so far. -/
  frames : UInt64
  /-- Instructions executed so far. -/
  executed : UInt64
  notices : List Notice

namespace Progress

variable {ι δ φ : Type}

/-- Add notices to those of the run. -/
def report (progress : Progress ι δ φ) (notices : List Notice) : Progress ι δ φ :=
  { progress with notices := progress.notices ++ notices }

/-- The batch of a frame, up to the point where the frame counts. -/
def batch (progress : Progress ι δ φ) : Batch × BatchEnd :=
  Batch.run progress.console.batchSize
    ⟨progress.console.machine, progress.console.generator, progress.executed, false⟩

/-- Show the picture. -/
def present [Display δ] (progress : Progress ι δ φ) : Except DeviceError Unit × Progress ι δ φ :=
  let (answer, display) := Display.present progress.console.display progress.console.machine.frame
  (answer, { progress with console := { progress.console with display := display } })

/-- Count a frame, and show the picture if a sprite was drawn in it. -/
def finish [Display δ] (progress : Progress ι δ φ) (drew : Bool) :
    Except DeviceError Unit × Progress ι δ φ :=
  let counted := { progress with frames := progress.frames + 1 }
  if drew then counted.present else (.ok (), counted)

/-- Execute the batch of a frame and finish the frame, unless an instruction
fails. -/
def advance [Display δ] (progress : Progress ι δ φ) : Progress ι δ φ × Option RunEnd :=
  let (batch, ending) := progress.batch
  let after := { progress with
    console := { progress.console with machine := batch.machine, generator := batch.generator }
    executed := batch.executed }
  match ending with
  | .failed fault => (after, some (.failed (.fault fault)))
  | .complete => match after.finish batch.drew with
    | (.error error, finished) => (finished, some (.failed (.device error)))
    | (.ok (), finished) => (finished, none)
  | .halted cause pc => match (after.report [.ofHalt cause pc]).finish batch.drew with
    | (.error error, finished) => (finished, some (.failed (.device error)))
    | (.ok (), finished) =>
      (finished.report [.finalFrame finished.console.machine.frame], some .halted)

/-- One frame of a run, and how the run ends if it ends there. -/
def frame [KeySource ι] [Display δ] (progress : Progress ι δ φ) :
    Progress ι δ φ × Option RunEnd :=
  let polled := KeySource.poll progress.console.keys progress.console.keymap
    progress.console.machine
  let after := { progress with
    console := { progress.console with machine := polled.machine, keys := polled.keys }
    notices := progress.notices ++ polled.notices }
  match polled.answer with
  | .error failure => (after, some (.failed failure))
  | .ok .quit => (after.report [.quitRequested progress.frames], some .quit)
  | .ok .proceed => after.advance

/-- The limit, if there is one, allows one more frame. -/
def isAllowed (progress : Progress ι δ φ) (limit : Option UInt64) : Bool :=
  limit.all fun most => progress.frames < most

/-- Frame after frame, while the limit allows it. There is no result if that goes on
forever. -/
def run [KeySource ι] [Display δ] (limit : Option UInt64) (progress : Progress ι δ φ) :
    Option (Progress ι δ φ × RunEnd) :=
  if progress.isAllowed limit then
    match progress.frame with
    | (after, some ending) => some (after, ending)
    | (after, none) => after |>.run limit
  else some (progress, .limit)
partial_fixpoint

end Progress

/-! ## Runs -/

/-- What is to be said of a run that did not fail. -/
structure Summary where
  frames : UInt64
  instructions : UInt64
  /-- The program came to its end. -/
  halted : Bool
deriving DecidableEq, Repr

/-- What a run leaves behind. -/
structure Report (ι δ φ : Type) where
  result : Except Failure Summary
  console : Console ι δ φ
  notices : List Notice

/-- What loading a program gives. -/
structure Loaded (ι δ φ : Type) where
  answer : Except Failure Unit
  console : Console ι δ φ
  notices : List Notice

namespace Console

variable {ι δ φ : Type}

/-- A new machine without a program, set up as the settings say. The spare generator
is for settings that name no seed. -/
def ofSettings (settings : Settings) (spare : Generator) (keys : ι) (display : δ) (store : φ) :
    Console ι δ φ where
  machine := .initial
  generator := (settings.seed.map Generator.ofSeed).getD spare
  keymap := settings.keymap.keymap
  batchSize := settings.batchSize
  keys := keys
  display := display
  store := store

/-- A run that has not begun. -/
def begin (console : Console ι δ φ) : Progress ι δ φ := ⟨console, 0, 0, []⟩

/-- The result of a run that ended in a certain way. -/
def result (progress : Progress ι δ φ) : RunEnd → Except Failure Summary
  | .failed failure => .error failure
  | .halted => .ok ⟨progress.frames, progress.executed, true⟩
  | _ => .ok ⟨progress.frames, progress.executed, false⟩

/-- Save the flag registers after a run. That this fails counts before anything
that happened in the run. -/
def close [FlagStore φ] (progress : Progress ι δ φ) (ending : RunEnd) : Report ι δ φ :=
  let console := progress.console
  let stopped := match ending with
    | .failed failure => [Notice.stopped failure console.machine.pc]
    | _ => []
  let (answer, store) := FlagStore.save console.store console.machine.flags
  { result := answer.bind fun () => result progress ending
    console := { console with store := store }
    notices := progress.notices ++ stopped }

/-- Run the loaded program, at most the given number of frames. There is no report
if the run never ends. -/
def run [KeySource ι] [Display δ] [FlagStore φ] (console : Console ι δ φ)
    (limit : Option UInt64) : Option (Report ι δ φ) :=
  (console.begin.run limit).map fun ended => close ended.1 ended.2

/-- Load a program, start it from the top and bring the saved flag registers
back. Should that fail the program is loaded nevertheless. -/
def load [FlagStore φ] (console : Console ι δ φ) (program : List UInt8) :
    Loaded ι δ φ :=
  let loaded := { console.machine.load program with pc := .ofNat programStart }
  let (answer, store) := FlagStore.load console.store
  let notices := [Notice.ofLoad program]
  match answer with
  | .error failure => ⟨.error failure, { console with machine := loaded, store := store }, notices⟩
  | .ok none => ⟨.ok (), { console with machine := loaded, store := store }, notices⟩
  | .ok (some flags) =>
    ⟨.ok (), { console with machine := { loaded with flags := flags }, store := store }, notices⟩

end Console

end Chip8
