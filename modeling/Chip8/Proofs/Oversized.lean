import Chip8.Proofs.Cadence
import Chip8.Proofs.Reloading

/-!
# Programs that are too long

A program that would reach the picture is not copied. Its length is noted all the same, so
the machine runs through memory that the program does not fill: behind the font every byte
of a new machine is zero, and so is every byte past the end of memory. Two zeros are the
instruction that does nothing. The program counter therefore moves on by two with each
step until it is no longer within the noted length. If that reaches further than the
program counter does, the counter wraps around to zero, which lies before the program. In
either case the program ends, after a number of steps that its length alone determines.
-/

namespace Chip8

/-- Memory as a new machine finds it is zero behind the font. -/
theorem Memory.read_initial_eq_zero (address : Nat) (behind : fontStart + font.length ≤ address) :
    Memory.initial.read address = 0 := by
  have unwritten : ¬ address - fontStart < font.length := by omega
  rw [initial, read_writeList, List.getElem?_eq_none (Nat.le_of_not_lt unwritten),
    Option.getD_none, ite_self, read, Vector.getElem?_replicate]
  split <;> rfl

namespace Machine

/-- Of a program that is too long nothing but its length matters, whatever the machine it is
loaded into. -/
theorem load_of_length (machine : Machine) (program other : List UInt8)
    (long : programLimit ≤ program.length) (same : other.length = program.length) :
    machine.load other = machine.load program := by
  have otherLong : programLimit ≤ other.length := by
    rw [same]
    exact long
  cases first : machine.programSize.isNone with
  | true =>
    rw [load_of_first machine program first, load_of_first machine other first, same,
      place_of_long _ _ long, place_of_long _ _ otherLong]
  | false =>
    rw [load_of_later machine program first, load_of_later machine other first, same,
      place_of_long _ _ long, place_of_long _ _ otherLong]

/-- How many instructions are executed of a program that is too long: one for every two
bytes of its length, until the program counter has wrapped around. -/
def zerosExecuted (length : Nat) : Nat := min ((length + 1) / 2) 32512

/-- A new machine that executed some instructions of a program that is too long. -/
def adrift (program : List UInt8) (steps : Nat) : Machine :=
  { initial.load program with
    pc := .ofNat (programStart + 2 * steps)
    ticks := .ofNat steps }

/-- The program counter wraps around. -/
theorem toNat_pc_adrift (program : List UInt8) (steps : Nat) :
    (adrift program steps).pc.toNat = (programStart + 2 * steps) % 65536 := by
  rw [adrift, UInt16.toNat_ofNat']

/-- Memory is what it was before the program was loaded. -/
theorem read_adrift (program : List UInt8) (long : programLimit ≤ program.length)
    (steps address : Nat) : (adrift program steps).memory.read address =
      Memory.initial.read address := by
  have loaded := load_of_first initial program rfl
  rw [place_of_long _ _ long] at loaded
  simp only [adrift, loaded]
  rfl

/-- There are zeros wherever the program counter is within the program. -/
theorem opcode_adrift (program : List UInt8) (long : programLimit ≤ program.length)
    (steps : Nat) (inside : programStart ≤ (adrift program steps).pc.toNat) :
    (adrift program steps).opcode = 0 := by
  have font : fontStart + font.length ≤ programStart := by decide
  rw [opcode, Memory.word, read_adrift program long, read_adrift program long,
    Memory.read_initial_eq_zero _ (by omega), Memory.read_initial_eq_zero _ (by omega)]
  rfl

/-- As long as there is something to execute the program counter is within the program. -/
theorem inProgram_adrift (program : List UInt8) (steps : Nat)
    (more : steps < zerosExecuted program.length) : (adrift program steps).InProgram := by
  obtain ⟨beforeEnd, beforeWrap⟩ := Nat.lt_min.mp more
  have counter : (adrift program steps).pc.toNat = programStart + 2 * steps := by
    rw [toNat_pc_adrift]
    apply Nat.mod_eq_of_lt
    simp only [programStart]
    omega
  refine ⟨program.length, rfl, ?_⟩
  rw [counter]
  omega

/-- Then the program counter is behind the program, or before it. -/
theorem not_inProgram_adrift (program : List UInt8) :
    ¬ (adrift program (zerosExecuted program.length)).InProgram := by
  have counter := toNat_pc_adrift program (zerosExecuted program.length)
  rintro ⟨size, loaded, within⟩
  obtain rfl : program.length = size := Option.some.inj loaded
  rw [counter] at within
  -- Of the two bounds the smaller one was reached: the length is used up, or the counter is
  -- zero, which is before the program.
  simp only [zerosExecuted, programStart] at within
  omega

/-- Nothing is done, and it is counted. -/
theorem tick_fetched_adrift (program : List UInt8) (steps : Nat) :
    (adrift program steps).fetched.tick = adrift program (steps + 1) := by
  have counter : (adrift program steps).pc + 2 = .ofNat (programStart + 2 * (steps + 1)) :=
    (UInt16.ofNat_add (programStart + 2 * steps) 2).symm
  have counted : (adrift program steps).ticks + 1 = .ofNat (steps + 1) :=
    System.ofNat_ticks_succ steps
  rw [tick_of_zero _ rfl rfl]
  simp only [fetched, counter, counted]
  rfl

/-- Within the program two zeros are executed. -/
theorem step_adrift (program : List UInt8) (long : programLimit ≤ program.length) (steps : Nat)
    (more : steps < zerosExecuted program.length) (generator : Generator) :
    (adrift program steps).step generator =
      ⟨.ok (.executed 0), adrift program (steps + 1), generator⟩ := by
  have inside := inProgram_adrift program steps more
  have start : programStart ≤ (adrift program steps).pc.toNat := by
    obtain ⟨_, _, start, _⟩ := inside
    exact start
  have stands := opcode_adrift program long steps start
  rw [step_of_opcode _ generator 0 inside stands (by decide) .nop rfl _ _ rfl,
    tick_fetched_adrift]

/-- Outside the program nothing is. -/
theorem step_aground (program : List UInt8) (generator : Generator) :
    let machine := adrift program (zerosExecuted program.length)
    machine.step generator = ⟨.ok (.halted .outside machine.pc), machine, generator⟩ :=
  step_of_outside _ generator nofun (not_inProgram_adrift program)

end Machine

namespace System

/-- The same machine with its generator. -/
def adrift (program : List UInt8) (generator : Generator) (steps : Nat) : System :=
  ⟨.adrift program steps, generator⟩

/-- As long as there are instructions each step executes one, and afterwards none does
anything. -/
theorem next_adrift (program : List UInt8) (long : programLimit ≤ program.length)
    (generator : Generator) (steps : Nat) (upTo : steps ≤ Machine.zerosExecuted program.length) :
    (adrift program generator steps).next =
      adrift program generator (min (steps + 1) (Machine.zerosExecuted program.length)) := by
  rcases Nat.lt_or_eq_of_le upTo with more | rfl
  · rw [next, stepped, adrift, Machine.step_adrift program long steps more, Nat.min_eq_left more]
    rfl
  · rw [next, stepped, adrift, Machine.step_aground program, Nat.min_eq_right (Nat.le_succ _)]
    rfl

/-- A run of steps executes as many instructions as there are, and no more. -/
theorem play_adrift (program : List UInt8) (long : programLimit ≤ program.length)
    (generator : Generator) (steps count : Nat)
    (upTo : steps ≤ Machine.zerosExecuted program.length) :
    (adrift program generator steps).play (.replicate count .step) =
      adrift program generator (min (steps + count) (Machine.zerosExecuted program.length)) := by
  -- A step at the end leaves the number of executed instructions, so the bound is kept.
  induction count generalizing steps with
  | zero =>
    rw [Nat.add_zero, Nat.min_eq_left upTo]
    rfl
  | succ count inductionHypothesis =>
    have next := next_adrift program long generator steps upTo
    have later := inductionHypothesis (min (steps + 1) (Machine.zerosExecuted program.length))
      (Nat.min_le_right _ _)
    have total : min (min (steps + 1) (Machine.zerosExecuted program.length) + count)
        (Machine.zerosExecuted program.length) =
          min (steps + (count + 1)) (Machine.zerosExecuted program.length) := by
      omega
    rw [List.replicate_succ, play, turn, next, later, total]

/-- A program that is too long is never run and always comes to an end. On a new machine the
steps execute two zeros each, once for every two bytes of the program's length but at most
32512 times, since then the program counter has wrapped around; all further steps tell of
the end. Throughout, nothing but the program counter and the count of ticks differs from
the machine as it was after loading. And nothing but the length matters: another program of
the same length gives the same machine, whichever machine it is loaded into. -/
theorem oversized_runs_out (program : List UInt8) (long : programLimit ≤ program.length)
    (generator : Generator) :
    let start := starting program generator
    let executions := min ((program.length + 1) / 2) 32512
    (∀ count, count < executions →
      (start.play (.replicate count .step)).stepped.outcome = .ok (.executed 0)) ∧
    (∀ count, executions ≤ count →
      ∃ pc, (start.play (.replicate count .step)).stepped.outcome = .ok (.halted .outside pc)) ∧
    (∀ count, start.play (.replicate count .step) = { start with
      machine := { start.machine with
        pc := .ofNat (programStart + 2 * min count executions)
        ticks := .ofNat (min count executions) } }) ∧
    (∀ (machine : Machine) (other : List UInt8), other.length = program.length →
      machine.load other = machine.load program) := by
  intro start executions
  have played (count : Nat) : start.play (.replicate count .step) =
      adrift program generator (min count executions) := by
    have run := play_adrift program long generator 0 count (Nat.zero_le _)
    rw [Nat.zero_add] at run
    exact run
  refine ⟨?_, ?_, played, fun machine other => machine.load_of_length program other long⟩
  · intro count more
    rw [played, Nat.min_eq_left (Nat.le_of_lt more), stepped, adrift,
      Machine.step_adrift program long count more]
  · intro count enough
    refine ⟨(Machine.adrift program executions).pc, ?_⟩
    rw [played, Nat.min_eq_right enough, stepped, adrift]
    exact congrArg Stepped.outcome (Machine.step_aground program generator)

/-- A new machine with a program that has this length and is too long to be copied. -/
def overlong (length : Nat) : System := starting (.replicate length 0xFF) (.ofSeed 0)

/-- The last byte of a program counts as two if its length is odd. A program that reaches
further than the program counter does ends where the counter has wrapped around. -/
theorem oversized_runs_out_wrapping :
    programLimit ≤ (List.replicate 3329 (0xFF : UInt8)).length ∧
      programLimit ≤ (List.replicate 70000 (0xFF : UInt8)).length ∧
      ((overlong 3329).play (.replicate 1664 .step)).stepped.outcome = .ok (.executed 0) ∧
      (∃ pc, ((overlong 3329).play (.replicate 1665 .step)).stepped.outcome =
        .ok (.halted .outside pc)) ∧
      ((overlong 70000).play (.replicate 32511 .step)).stepped.outcome = .ok (.executed 0) ∧
      ((overlong 70000).play (.replicate 100000 .step)).machine.pc = 0 := by
  have long : programLimit ≤ (List.replicate 3329 (0xFF : UInt8)).length := by
    rw [List.length_replicate]
    decide
  have longer : programLimit ≤ (List.replicate 70000 (0xFF : UInt8)).length := by
    rw [List.length_replicate]
    decide
  obtain ⟨executes, halts, _⟩ := oversized_runs_out (.replicate 3329 0xFF) long (.ofSeed 0)
  obtain ⟨executesLonger, _, state, _⟩ :=
    oversized_runs_out (.replicate 70000 0xFF) longer (.ofSeed 0)
  rw [List.length_replicate] at executes halts executesLonger state
  refine ⟨long, longer, executes 1664 (by decide), halts 1665 (by decide),
    executesLonger 32511 (by decide), ?_⟩
  rw [overlong, state 100000]
  decide

end System

end Chip8
