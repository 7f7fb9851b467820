import Chip8.Machine.Execute
import Chip8.Machine.Timers
import Chip8.Instruction.Opcode

/-!
# Single steps

A step fetches the opcode at the program counter, moves the counter past it,
and executes it. A program ends by leaving its own bytes or by a jump to the
very address it stands at; both are found before anything is executed, and the
second one only after the counter has moved.
-/

namespace Chip8

/-- How a program comes to its end. -/
inductive Halt where
  /-- The program counter is not within the program. -/
  | outside
  /-- The program jumps to where it is. -/
  | selfJump
deriving DecidableEq, Repr

/-- What a step did when nothing was wrong. -/
inductive Outcome where
  | executed (opcode : UInt16)
  /-- The program has ended with the instruction at this address. -/
  | halted (cause : Halt) (pc : UInt16)
deriving DecidableEq, Repr

namespace Outcome

/-- The executed opcode as a number; minus one for the end of the program. -/
def code : Outcome → Int
  | executed opcode => opcode.toNat
  | halted _ _ => -1

/-- A sprite was drawn, so the picture may have changed. -/
def drew : Outcome → Bool
  | executed opcode => opcode.toNat / 4096 == 0xD
  | halted _ _ => false

end Outcome

/-- What a step gives: its outcome, the machine and the generator after it. -/
structure Stepped where
  outcome : Except Fault Outcome
  machine : Machine
  generator : Generator

namespace Machine

/-- Read the opcode at the program counter and move the counter past it. There
is none when the counter is not within the program. -/
def fetch (machine : Machine) : Except Fault (Option UInt16) × Machine :=
  match machine.programSize with
  | none => (.error .noProgram, machine)
  | some size =>
    if programStart ≤ machine.pc.toNat ∧ machine.pc.toNat < programStart + size then
      (.ok (some (machine.memory.word machine.pc.toNat)), { machine with pc := machine.pc + 2 })
    else (.ok none, machine)

/-- The opcode is a jump to the given address. -/
def jumpsTo (opcode : UInt16) (address : UInt16) : Bool :=
  opcode.toNat / 4096 == 1 && opcode.toNat % 4096 == address.toNat

/-- Execute one instruction. The opcode lies two bytes before the counter once it was
fetched. -/
def step (machine : Machine) (generator : Generator) : Stepped :=
  match machine.fetch with
  | (.error fault, fetched) => ⟨.error fault, fetched, generator⟩
  | (.ok none, fetched) => ⟨.ok (.halted .outside fetched.pc), fetched, generator⟩
  | (.ok (some opcode), fetched) =>
    let place := fetched.pc - 2
    if jumpsTo opcode place then ⟨.ok (.halted .selfJump place), fetched, generator⟩
    else match Instruction.decode? opcode with
      | none => ⟨.error (.invalidOpcode opcode), fetched, generator⟩
      | some instruction => match fetched.execute generator instruction with
        | (.error fault, failed, later) => ⟨.error fault, failed, later⟩
        | (.ok (), executed, later) => ⟨.ok (.executed opcode), executed.tick, later⟩

end Machine

end Chip8
