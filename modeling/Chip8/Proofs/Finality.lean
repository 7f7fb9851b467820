import Chip8.Proofs.Loading

/-!
# When the end of a program is final

A host that is told of the end of a program may step the machine again. Outside the
program nothing moves, so every further step tells of the end, too. A jump to itself
is found only after the counter has moved past it: the machine then stands behind
the jump, and the next step takes up whatever lies there. The end is final unless
that is program again.
-/

namespace Chip8.Machine

/-- The next step tells that the program has ended. -/
def Halts (machine : Machine) (generator : Generator) : Prop :=
  ∃ cause pc, (machine.step generator).outcome = .ok (.halted cause pc)

/-- The machine after further steps, each of them with a generator of its own. -/
def stepAll (machine : Machine) : List Generator → Machine
  | [] => machine
  | generator :: rest => (machine.step generator).machine.stepAll rest

/-- However often the machine is stepped, every step tells of the end and leaves
everything as it is. -/
def Final (machine : Machine) : Prop :=
  ∀ (generators : List Generator) (generator : Generator),
    (machine.stepAll generators).Halts generator ∧
      ((machine.stepAll generators).step generator).machine = machine ∧
      ((machine.stepAll generators).step generator).generator = generator

/-- Outside the program no number of steps moves anything. -/
theorem stepAll_of_outside (machine : Machine) (generators : List Generator)
    (loaded : machine.programSize ≠ none) (left : ¬ machine.InProgram) :
    machine.stepAll generators = machine := by
  induction generators with
  | nil => rfl
  | cons generator rest inductionHypothesis =>
    rw [stepAll, step_of_outside machine generator loaded left]
    exact inductionHypothesis

/-- A machine outside its program is at its end for good. -/
theorem final_of_outside (machine : Machine) (loaded : machine.programSize ≠ none)
    (left : ¬ machine.InProgram) : machine.Final := by
  intro generators generator
  rw [stepAll_of_outside machine generators loaded left,
    Halts, step_of_outside machine generator loaded left]
  exact ⟨⟨.outside, machine.pc, rfl⟩, rfl, rfl⟩

/-- Fetching an opcode never leaves the machine as it is. -/
theorem fetched_ne (machine : Machine) : machine.fetched ≠ machine := by
  intro same
  have counter : machine.pc + 2 = machine.pc := congrArg Machine.pc same
  have moved : (machine.pc + 2).toNat = machine.pc.toNat := congrArg UInt16.toNat counter
  have bound : machine.pc.toNat < 65536 := machine.pc.toNat_lt
  rw [UInt16.toNat_add] at moved
  have two : (2 : UInt16).toNat = 2 := rfl
  omega

/-- Within the program a step moves the counter or executes something, so a machine
there is not at its end for good. -/
theorem not_final_of_inside (machine : Machine) (generator : Generator)
    (inside : machine.InProgram) : ¬ machine.Final := by
  intro final
  obtain ⟨halts, stays, _⟩ := final [] generator
  have still : machine.AtSelfJump :=
    ((halts_iff machine generator).mp halts).2.resolve_left fun left => left inside
  rw [stepAll, step_of_selfJump machine generator inside still] at stays
  exact machine.fetched_ne stays

/-- A machine that has its program is at its end for good exactly where the program
counter is outside the program. -/
theorem final_iff (machine : Machine) (loaded : machine.programSize ≠ none)
    (generator : Generator) : machine.Final ↔ ¬ machine.InProgram := by
  constructor
  · intro final inside
    exact machine.not_final_of_inside generator inside final
  · exact machine.final_of_outside loaded

/-- Whenever a step tells of the end of a program, the end is final, with one
exception: a jump to itself with more of the program behind it. -/
theorem halt_final_iff (machine : Machine) (generator : Generator) :
    (machine.Halts generator → (machine.step generator).machine.Final) ↔
      ¬ (machine.InProgram ∧ machine.AtSelfJump ∧ machine.fetched.InProgram) := by
  constructor
  · rintro final ⟨inside, still, behind⟩
    have halts : machine.Halts generator :=
      (halts_iff machine generator).mpr ⟨inside.loaded, .inr still⟩
    have atEnd := final halts
    rw [step_of_selfJump machine generator inside still] at atEnd
    exact (final_iff machine.fetched behind.loaded generator).mp atEnd behind
  · intro nothing halts
    obtain ⟨loaded, ended⟩ := (halts_iff machine generator).mp halts
    by_cases inside : machine.InProgram
    · have still : machine.AtSelfJump := ended.resolve_left fun left => left inside
      have behind : ¬ machine.fetched.InProgram :=
        fun within => nothing ⟨inside, still, within⟩
      rw [step_of_selfJump machine generator inside still]
      exact (final_iff machine.fetched loaded generator).mpr behind
    · rw [step_of_outside machine generator loaded inside]
      exact (final_iff machine loaded generator).mpr inside

/-- A machine at a jump to itself that is followed by `V0 := 5`. -/
def resuming : Machine := initial.load [0x12, 0x00, 0x60, 0x05]

/-- The two opcodes of its program. -/
theorem word_resuming :
    resuming.memory.word 0x200 = 0x1200 ∧ resuming.memory.word 0x202 = 0x6005 := by
  have copied : [0x12, 0x00, 0x60, 0x05].length < programLimit := by decide
  constructor
  · exact (word_load_initial _ copied 0 0x12 0x00 rfl rfl).trans (by decide)
  · exact (word_load_initial _ copied 2 0x60 0x05 rfl rfl).trans (by decide)

/-- At the jump the program ends, and the next step goes on behind it. -/
theorem resuming_after_halt :
    (resuming.step (.ofSeed 0)).outcome = .ok (.halted .selfJump 0x200) ∧
      ((resuming.step (.ofSeed 0)).machine.step (.ofSeed 0)).outcome =
        .ok (.executed 0x6005) ∧
      ((resuming.step (.ofSeed 0)).machine.step (.ofSeed 0)).machine.v.get 0 = 5 := by
  have jump : resuming.opcode = 0x1200 := word_resuming.1
  have inside : resuming.InProgram := ⟨4, rfl, by decide⟩
  have still : resuming.AtSelfJump := by
    rw [AtSelfJump, jump]
    decide
  have behind : resuming.fetched.InProgram := ⟨4, rfl, by decide⟩
  have resumes := step_of_opcode resuming.fetched (.ofSeed 0) 0x6005 behind word_resuming.2
    (by decide) (.setByte 0 5) rfl _ _ rfl
  rw [step_of_selfJump resuming _ inside still, resumes]
  exact ⟨rfl, rfl, rfl⟩

end Chip8.Machine
