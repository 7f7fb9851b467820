import Chip8.Machine.Step
import Chip8.Proofs.Opcodes

/-!
# How a step ends

A step asks four questions in turn: is a program loaded and the program counter
within it, does the opcode there jump to itself, does it mean an instruction, and
can that instruction be executed. `Stepping` lists the answers with what the step
then gives, and everything else about single steps is read off that list. Only
an executed instruction changes more than the program counter.
-/

namespace Chip8.Machine

/-- The opcode at the program counter. -/
def opcode (machine : Machine) : UInt16 := machine.memory.word machine.pc.toNat

/-- A program is loaded and the program counter is within it. -/
def InProgram (machine : Machine) : Prop :=
  ∃ size, machine.programSize = some size ∧
    programStart ≤ machine.pc.toNat ∧ machine.pc.toNat < programStart + size

/-- Whatever is within a program was loaded. -/
theorem InProgram.loaded {machine : Machine} (inside : machine.InProgram) :
    machine.programSize ≠ none := by
  obtain ⟨size, known, _⟩ := inside
  rw [known]
  exact nofun

/-- The opcode at the program counter is a jump to the program counter. -/
def AtSelfJump (machine : Machine) : Prop :=
  machine.opcode.toNat / 4096 = 0x1 ∧ machine.opcode.toNat % 4096 = machine.pc.toNat

/-- There is an opcode that does not end the program. -/
def Proceeds (machine : Machine) : Prop := machine.InProgram ∧ ¬ machine.AtSelfJump

/-- Only opcodes of one family jump to where they are. -/
theorem Proceeds.of_opcode {machine : Machine} (inside : machine.InProgram)
    (moves : machine.opcode.toNat / 4096 ≠ 0x1) : machine.Proceeds :=
  ⟨inside, fun still => moves still.1⟩

/-- The machine after its opcode was fetched. -/
def fetched (machine : Machine) : Machine := { machine with pc := machine.pc + 2 }

/-- A fetch that moved the counter took it past the opcode. -/
theorem fetched_pc (machine : Machine) : machine.fetched.pc - 2 = machine.pc :=
  UInt16.add_sub_cancel machine.pc 2

/-- Calls fail on a full stack and returns on an empty one; nothing else fails. -/
theorem execute_error_iff (machine : Machine) (generator : Generator)
    (instruction : Instruction) (fault : Fault) :
    (machine.execute generator instruction).1 = .error fault ↔
      ((∃ target, instruction = .call target) ∧ stackSlots ≤ machine.sp ∧
        fault = .stackOverflow) ∨
      (instruction = .ret ∧ machine.sp = 0 ∧ fault = .stackUnderflow) := by
  cases instruction with
  | call target =>
    by_cases full : stackSlots ≤ machine.sp
    · simp [execute, push_of_full _ _ full, full, eq_comm]
    · simp [execute, push_of_free _ _ (Nat.lt_of_not_le full), full]
  | ret =>
    cases depth : machine.sp with
    | zero => simp [execute, pop_of_empty _ depth, eq_comm]
    | succ below => simp [execute, pop_of_depth _ _ depth]
  | _ => simp [execute]

/-- An instruction that fails has changed nothing: neither the push of a call nor the pop
of a return has, and nothing comes after them. -/
theorem execute_failed (machine : Machine) (generator : Generator) (instruction : Instruction)
    (fault : Fault) (failed : (machine.execute generator instruction).1 = .error fault) :
    (machine.execute generator instruction).2 = (machine, generator) := by
  cases instruction with
  | call target =>
    have still := machine.push_failed machine.pc
    rw [execute] at failed ⊢
    rcases pushing : machine.push machine.pc with ⟨refused | done, pushed⟩
    · rw [pushing] at still
      exact congrArg (·, generator) (still refused rfl)
    · rw [pushing] at failed
      cases failed
  | ret =>
    have still := machine.pop_failed
    rw [execute] at failed ⊢
    rcases popping : machine.pop with ⟨refused | address, popped⟩
    · rw [popping] at still
      exact congrArg (·, generator) (still refused rfl)
    · rw [popping] at failed
      cases failed
  | _ => cases failed

/-- A call with a free slot puts the program counter there and goes to its target. -/
theorem execute_call (machine : Machine) (generator : Generator) (target : Address)
    (free : machine.sp < stackSlots) :
    machine.execute generator (.call target) = (.ok (), { machine with
      memory := machine.memory.setSlot machine.sp machine.pc
      sp := machine.sp + 1
      pc := .ofNat target.val }, generator) := by
  simp only [execute, push_of_free _ _ free]

/-- A return with a slot in use goes to the address there and frees it. -/
theorem execute_ret (machine : Machine) (generator : Generator) (below : Nat)
    (depth : machine.sp = below + 1) :
    machine.execute generator .ret =
      (.ok (), { machine with sp := below, pc := machine.memory.slot below }, generator) := by
  simp only [execute, pop_of_depth _ _ depth]

/-- A call that is executed found a free slot. -/
theorem execute_call_ok (machine : Machine) (generator : Generator) (target : Address)
    (after : Machine) (later : Generator)
    (done : machine.execute generator (.call target) = (.ok (), after, later)) :
    machine.sp < stackSlots ∧ later = generator ∧ after = { machine with
      memory := machine.memory.setSlot machine.sp machine.pc
      sp := machine.sp + 1
      pc := .ofNat target.val } := by
  by_cases free : machine.sp < stackSlots
  · rw [execute_call machine generator target free] at done
    cases done
    exact ⟨free, rfl, rfl⟩
  · simp [execute, push_of_full _ _ (Nat.le_of_not_lt free)] at done

/-- A return that is executed found a slot in use. -/
theorem execute_ret_ok (machine : Machine) (generator : Generator)
    (after : Machine) (later : Generator)
    (done : machine.execute generator .ret = (.ok (), after, later)) :
    ∃ below, machine.sp = below + 1 ∧ later = generator ∧
      after = { machine with sp := below, pc := machine.memory.slot below } := by
  cases depth : machine.sp with
  | zero => simp [execute, pop_of_empty _ depth] at done
  | succ below =>
    rw [execute_ret machine generator below depth] at done
    cases done
    exact ⟨below, rfl, rfl, rfl⟩

/-- The ways a step can go, each with what leads to it and what it gives. -/
inductive Stepping (machine : Machine) (generator : Generator) : Stepped → Prop where
  | noProgram (missing : machine.programSize = none) :
      Stepping machine generator ⟨.error .noProgram, machine, generator⟩
  | outside (loaded : machine.programSize ≠ none) (left : ¬ machine.InProgram) :
      Stepping machine generator ⟨.ok (.halted .outside machine.pc), machine, generator⟩
  | selfJump (inside : machine.InProgram) (still : machine.AtSelfJump) :
      Stepping machine generator ⟨.ok (.halted .selfJump machine.pc), machine.fetched, generator⟩
  | unknown (proceeds : machine.Proceeds) (means : Instruction.decode? machine.opcode = none) :
      Stepping machine generator
        ⟨.error (.invalidOpcode machine.opcode), machine.fetched, generator⟩
  | overflow (proceeds : machine.Proceeds) (target : Address)
      (means : Instruction.decode? machine.opcode = some (.call target))
      (full : stackSlots ≤ machine.sp) :
      Stepping machine generator ⟨.error .stackOverflow, machine.fetched, generator⟩
  | underflow (proceeds : machine.Proceeds)
      (means : Instruction.decode? machine.opcode = some .ret) (empty : machine.sp = 0) :
      Stepping machine generator ⟨.error .stackUnderflow, machine.fetched, generator⟩
  | executed (proceeds : machine.Proceeds) (instruction : Instruction)
      (means : Instruction.decode? machine.opcode = some instruction)
      (after : Machine) (later : Generator)
      (done : machine.fetched.execute generator instruction = (.ok (), after, later)) :
      Stepping machine generator ⟨.ok (.executed machine.opcode), after.tick, later⟩

/-- Within the program there is an opcode, and the counter moves past it. -/
theorem fetch_inside (machine : Machine) (inside : machine.InProgram) :
    machine.fetch = (.ok (some machine.opcode), machine.fetched) := by
  obtain ⟨size, loaded, within⟩ := inside
  simp only [fetch, opcode, fetched, loaded, if_pos within]

/-- Outside the program there is nothing to fetch. -/
theorem fetch_outside (machine : Machine) (loaded : machine.programSize ≠ none)
    (left : ¬ machine.InProgram) : machine.fetch = (.ok none, machine) := by
  obtain ⟨size, known⟩ := Option.ne_none_iff_exists'.mp loaded
  have beyond : ¬ (programStart ≤ machine.pc.toNat ∧ machine.pc.toNat < programStart + size) :=
    fun within => left ⟨size, known, within⟩
  simp only [fetch, known, if_neg beyond]

/-- The step's test for a jump to itself. -/
theorem jumpsTo_eq_true_iff (machine : Machine) :
    jumpsTo machine.opcode machine.pc = true ↔ machine.AtSelfJump := by
  simp [jumpsTo, AtSelfJump]

/-- Without a program a step fails before anything else. -/
theorem step_of_missing (machine : Machine) (generator : Generator)
    (missing : machine.programSize = none) :
    machine.step generator = ⟨.error .noProgram, machine, generator⟩ := by
  have nothing : machine.fetch = (.error .noProgram, machine) := by simp only [fetch, missing]
  rw [step, nothing]

/-- Outside the program a step does nothing. -/
theorem step_of_outside (machine : Machine) (generator : Generator)
    (loaded : machine.programSize ≠ none) (left : ¬ machine.InProgram) :
    machine.step generator = ⟨.ok (.halted .outside machine.pc), machine, generator⟩ := by
  rw [step, fetch_outside machine loaded left]

/-- Behind the last byte of the program a step does nothing. -/
theorem step_of_past (machine : Machine) (generator : Generator) (size : Nat)
    (loaded : machine.programSize = some size) (past : programStart + size ≤ machine.pc.toNat) :
    machine.step generator = ⟨.ok (.halted .outside machine.pc), machine, generator⟩ := by
  refine machine.step_of_outside generator (by simp [loaded]) ?_
  rintro ⟨known, found, within⟩
  obtain rfl : size = known := Option.some.inj (loaded.symm.trans found)
  omega

/-- At a jump to itself a step moves past the jump and no further. -/
theorem step_of_selfJump (machine : Machine) (generator : Generator)
    (inside : machine.InProgram) (still : machine.AtSelfJump) :
    machine.step generator =
      ⟨.ok (.halted .selfJump machine.pc), machine.fetched, generator⟩ := by
  simp only [step, fetch_inside machine inside, fetched_pc]
  exact if_pos ((jumpsTo_eq_true_iff machine).mpr still)

/-- An opcode that does not end the program is read and, if it means anything,
executed on the machine that fetched it. -/
theorem step_of_proceeds (machine : Machine) (generator : Generator)
    (proceeds : machine.Proceeds) :
    machine.step generator = match Instruction.decode? machine.opcode with
      | none => ⟨.error (.invalidOpcode machine.opcode), machine.fetched, generator⟩
      | some instruction => match machine.fetched.execute generator instruction with
        | (.error fault, failed, later) => ⟨.error fault, failed, later⟩
        | (.ok (), after, later) => ⟨.ok (.executed machine.opcode), after.tick, later⟩ := by
  have moves : ¬ jumpsTo machine.opcode machine.pc = true :=
    fun jumps => proceeds.2 ((jumpsTo_eq_true_iff machine).mp jumps)
  simp only [step, fetch_inside machine proceeds.1, fetched_pc]
  exact if_neg moves

/-- What means nothing fails. -/
theorem step_of_unknown (machine : Machine) (generator : Generator)
    (proceeds : machine.Proceeds) (means : Instruction.decode? machine.opcode = none) :
    machine.step generator =
      ⟨.error (.invalidOpcode machine.opcode), machine.fetched, generator⟩ := by
  simp only [step_of_proceeds machine generator proceeds, means]

/-- What cannot be executed fails, and leaves the machine as the fetch left it. -/
theorem step_of_fault (machine : Machine) (generator : Generator)
    (proceeds : machine.Proceeds) (instruction : Instruction)
    (means : Instruction.decode? machine.opcode = some instruction) (fault : Fault)
    (failed : (machine.fetched.execute generator instruction).1 = .error fault) :
    machine.step generator = ⟨.error fault, machine.fetched, generator⟩ := by
  have still := machine.fetched.execute_failed generator instruction fault failed
  have result : machine.fetched.execute generator instruction =
      (.error fault, machine.fetched, generator) := Prod.ext failed still
  simp only [step_of_proceeds machine generator proceeds, means, result]

/-- What can be executed is executed. -/
theorem step_of_execute (machine : Machine) (generator : Generator)
    (proceeds : machine.Proceeds) (instruction : Instruction)
    (means : Instruction.decode? machine.opcode = some instruction)
    (after : Machine) (later : Generator)
    (done : machine.fetched.execute generator instruction = (.ok (), after, later)) :
    machine.step generator = ⟨.ok (.executed machine.opcode), after.tick, later⟩ := by
  simp only [step_of_proceeds machine generator proceeds, means, done]

/-- A known opcode that can be executed is executed. -/
theorem step_of_opcode (machine : Machine) (generator : Generator) (opcode : UInt16)
    (inside : machine.InProgram) (stands : machine.opcode = opcode)
    (moves : opcode.toNat / 4096 ≠ 0x1) (instruction : Instruction)
    (means : Instruction.decode? opcode = some instruction) (after : Machine) (later : Generator)
    (done : machine.fetched.execute generator instruction = (.ok (), after, later)) :
    machine.step generator = ⟨.ok (.executed opcode), after.tick, later⟩ := by
  subst stands
  exact step_of_execute machine generator (.of_opcode inside moves) instruction means after later
    done

/-- At the opcode that is written for an instruction, the instruction is executed if it
can be. A jump may be one that ends the program. -/
theorem step_of_instruction (machine : Machine) (generator : Generator)
    (instruction : Instruction) (inside : machine.InProgram)
    (stands : machine.opcode = instruction.encode) (moves : instruction.family ≠ 0x1)
    (after : Machine) (later : Generator)
    (done : machine.fetched.execute generator instruction = (.ok (), after, later)) :
    machine.step generator = ⟨.ok (.executed instruction.encode), after.tick, later⟩ := by
  have means := Instruction.decode?_encode instruction
  have digit := Instruction.family_of_decode? _ instruction means
  exact machine.step_of_opcode generator instruction.encode inside stands (digit ▸ moves)
    instruction means after later done

/-- What does not end the program is unknown, finds the stack full or empty, or is
executed. -/
theorem stepping_of_proceeds (machine : Machine) (generator : Generator)
    (proceeds : machine.Proceeds) :
    Stepping machine generator (machine.step generator) := by
  -- Reading and executing are the two places where a step can still fail.
  cases means : Instruction.decode? machine.opcode with
  | none =>
    rw [step_of_unknown machine generator proceeds means]
    exact .unknown proceeds means
  | some instruction =>
    rcases result : machine.fetched.execute generator instruction with ⟨fault | done, after, later⟩
    · have failed := congrArg Prod.fst result
      rw [step_of_fault machine generator proceeds instruction means fault failed]
      rcases (execute_error_iff _ _ _ _).mp failed with
        ⟨⟨target, rfl⟩, full, rfl⟩ | ⟨rfl, empty, rfl⟩
      · exact .overflow proceeds target means full
      · exact .underflow proceeds means empty
    · rw [step_of_execute machine generator proceeds instruction means after later result]
      exact .executed proceeds instruction means after later result

/-- Every step goes one of these ways. -/
theorem step_cases (machine : Machine) (generator : Generator) :
    Stepping machine generator (machine.step generator) := by
  by_cases missing : machine.programSize = none
  · rw [step_of_missing machine generator missing]
    exact .noProgram missing
  · by_cases inside : machine.InProgram
    · by_cases still : machine.AtSelfJump
      · rw [step_of_selfJump machine generator inside still]
        exact .selfJump inside still
      · exact stepping_of_proceeds machine generator ⟨inside, still⟩
    · rw [step_of_outside machine generator missing inside]
      exact .outside missing inside

/-! ## Outcomes -/

/-- The opcode at the program counter is a call, and no stack slot is free. -/
def Overflows (machine : Machine) : Prop :=
  machine.opcode.toNat / 4096 = 0x2 ∧ stackSlots ≤ machine.sp

/-- The opcode at the program counter is a return, and no stack slot is in use. -/
def Underflows (machine : Machine) : Prop :=
  machine.opcode.toNat / 4096 = 0x0 ∧ machine.opcode.toNat % 256 = 0xEE ∧ machine.sp = 0

/-- The stack overflows where the opcode is read as a call. -/
theorem overflows_iff (machine : Machine) :
    machine.Overflows ↔ (∃ target, Instruction.decode? machine.opcode = some (.call target)) ∧
      stackSlots ≤ machine.sp := by
  rw [Instruction.decode?_eq_call, Overflows]

/-- The stack underflows where the opcode is read as a return. -/
theorem underflows_iff (machine : Machine) :
    machine.Underflows ↔ Instruction.decode? machine.opcode = some .ret ∧ machine.sp = 0 := by
  rw [Instruction.decode?_eq_ret, Underflows, and_assoc]

/-- What was executed found the stack as it needs it. -/
theorem stack_serves (machine : Machine) (generator : Generator) (instruction : Instruction)
    (means : Instruction.decode? machine.opcode = some instruction)
    (result : Machine × Generator)
    (done : machine.fetched.execute generator instruction = (.ok (), result)) :
    ¬ machine.Overflows ∧ ¬ machine.Underflows := by
  have succeeds (fault : Fault) :
      (machine.fetched.execute generator instruction).1 ≠ .error fault := by
    rw [done]
    exact nofun
  rw [overflows_iff, underflows_iff, means]
  constructor
  · rintro ⟨⟨target, same⟩, full⟩
    exact succeeds .stackOverflow
      ((execute_error_iff _ _ _ _).mpr (.inl ⟨⟨target, Option.some.inj same⟩, full, rfl⟩))
  · rintro ⟨same, empty⟩
    exact succeeds .stackUnderflow
      ((execute_error_iff _ _ _ _).mpr (.inr ⟨Option.some.inj same, empty, rfl⟩))

/-- What finds the stack as it needs it is executed. -/
theorem executes_of_serves (machine : Machine) (generator : Generator)
    (instruction : Instruction) (means : Instruction.decode? machine.opcode = some instruction)
    (free : ¬ machine.Overflows) (inUse : ¬ machine.Underflows) :
    ∃ after later, machine.fetched.execute generator instruction = (.ok (), after, later) := by
  rcases result : machine.fetched.execute generator instruction with ⟨fault | done, after, later⟩
  · rcases (execute_error_iff _ _ _ _).mp (congrArg Prod.fst result) with
      ⟨⟨target, rfl⟩, full, rfl⟩ | ⟨rfl, empty, rfl⟩
    · exact absurd ((overflows_iff machine).mpr ⟨⟨target, means⟩, full⟩) free
    · exact absurd ((underflows_iff machine).mpr ⟨means, empty⟩) inUse
  · exact ⟨after, later, rfl⟩

/-- Only a machine without a program fails for want of one. -/
theorem outcome_noProgram_iff (machine : Machine) (generator : Generator) :
    (machine.step generator).outcome = .error .noProgram ↔ machine.programSize = none := by
  constructor
  · intro failed
    have way := machine.step_cases generator
    generalize machine.step generator = stepped at way failed
    cases way with
    | noProgram missing => exact missing
    | _ => cases failed
  · intro missing
    rw [step_of_missing machine generator missing]

/-- A loaded program ends outside itself and at a jump to itself. -/
theorem halts_iff (machine : Machine) (generator : Generator) :
    (∃ cause pc, (machine.step generator).outcome = .ok (.halted cause pc)) ↔
      machine.programSize ≠ none ∧ (¬ machine.InProgram ∨ machine.AtSelfJump) := by
  constructor
  · rintro ⟨cause, pc, halted⟩
    have way := machine.step_cases generator
    generalize machine.step generator = stepped at way halted
    cases way with
    | outside loaded left => exact ⟨loaded, .inl left⟩
    | selfJump inside still => exact ⟨inside.loaded, .inr still⟩
    | _ => cases halted
  · rintro ⟨loaded, ended⟩
    by_cases inside : machine.InProgram
    · have still : machine.AtSelfJump := ended.resolve_left fun left => left inside
      rw [step_of_selfJump machine generator inside still]
      exact ⟨_, _, rfl⟩
    · rw [step_of_outside machine generator loaded inside]
      exact ⟨_, _, rfl⟩

/-- An opcode is reported as invalid when it is the one to execute and means nothing. -/
theorem outcome_invalidOpcode_iff (machine : Machine) (generator : Generator)
    (opcode : UInt16) :
    (machine.step generator).outcome = .error (.invalidOpcode opcode) ↔
      machine.Proceeds ∧ opcode = machine.opcode ∧ Instruction.decode? opcode = none := by
  constructor
  · intro failed
    have way := machine.step_cases generator
    generalize machine.step generator = stepped at way failed
    cases way with
    | unknown proceeds means =>
      obtain rfl : machine.opcode = opcode := Fault.invalidOpcode.inj (Except.error.inj failed)
      exact ⟨proceeds, rfl, means⟩
    | _ => cases failed
  · rintro ⟨proceeds, rfl, means⟩
    rw [step_of_unknown machine generator proceeds means]

/-- Only a call can find the stack full. -/
theorem outcome_stackOverflow_iff (machine : Machine) (generator : Generator) :
    (machine.step generator).outcome = .error .stackOverflow ↔
      machine.Proceeds ∧ machine.Overflows := by
  rw [overflows_iff]
  constructor
  · intro failed
    have way := machine.step_cases generator
    generalize machine.step generator = stepped at way failed
    cases way with
    | overflow proceeds target means full => exact ⟨proceeds, ⟨target, means⟩, full⟩
    | _ => cases failed
  · rintro ⟨proceeds, ⟨target, means⟩, full⟩
    have failed : (machine.fetched.execute generator (.call target)).1 = .error .stackOverflow :=
      (execute_error_iff _ _ _ _).mpr (.inl ⟨⟨target, rfl⟩, full, rfl⟩)
    rw [step_of_fault machine generator proceeds _ means _ failed]

/-- Only a return can find the stack empty. -/
theorem outcome_stackUnderflow_iff (machine : Machine) (generator : Generator) :
    (machine.step generator).outcome = .error .stackUnderflow ↔
      machine.Proceeds ∧ machine.Underflows := by
  rw [underflows_iff]
  constructor
  · intro failed
    have way := machine.step_cases generator
    generalize machine.step generator = stepped at way failed
    cases way with
    | underflow proceeds means empty => exact ⟨proceeds, means, empty⟩
    | _ => cases failed
  · rintro ⟨proceeds, means, empty⟩
    have failed : (machine.fetched.execute generator .ret).1 = .error .stackUnderflow :=
      (execute_error_iff _ _ _ _).mpr (.inr ⟨rfl, empty, rfl⟩)
    rw [step_of_fault machine generator proceeds _ means _ failed]

/-- Everything else is executed. -/
theorem outcome_executed_iff (machine : Machine) (generator : Generator) (opcode : UInt16) :
    (machine.step generator).outcome = .ok (.executed opcode) ↔
      machine.Proceeds ∧ opcode = machine.opcode ∧ Instruction.decode? opcode ≠ none ∧
        ¬ machine.Overflows ∧ ¬ machine.Underflows := by
  constructor
  · intro executed
    have way := machine.step_cases generator
    generalize machine.step generator = stepped at way executed
    cases way with
    | executed proceeds instruction means after later done =>
      obtain rfl : machine.opcode = opcode := Outcome.executed.inj (Except.ok.inj executed)
      have known : Instruction.decode? machine.opcode ≠ none := by
        rw [means]
        exact nofun
      exact ⟨proceeds, rfl, known, stack_serves machine generator instruction means _ done⟩
    | _ => cases executed
  · rintro ⟨proceeds, rfl, known, free, inUse⟩
    obtain ⟨instruction, means⟩ := Option.ne_none_iff_exists'.mp known
    obtain ⟨after, later, done⟩ :=
      executes_of_serves machine generator instruction means free inUse
    rw [step_of_execute machine generator proceeds instruction means after later done]

/-- A step that executes nothing moves at most the program counter, and only past an
opcode. -/
theorem executes_or_stays (machine : Machine) (generator : Generator) :
    (∃ opcode, (machine.step generator).outcome = .ok (.executed opcode)) ∨
      ((machine.step generator).generator = generator ∧
        ((¬ machine.InProgram ∧ (machine.step generator).machine = machine) ∨
          (machine.InProgram ∧ (machine.step generator).machine = machine.fetched))) := by
  have way := machine.step_cases generator
  generalize machine.step generator = stepped at way
  cases way with
  | noProgram missing => exact .inr ⟨rfl, .inl ⟨fun inside => inside.loaded missing, rfl⟩⟩
  | outside loaded left => exact .inr ⟨rfl, .inl ⟨left, rfl⟩⟩
  | selfJump inside still => exact .inr ⟨rfl, .inr ⟨inside, rfl⟩⟩
  | unknown proceeds means => exact .inr ⟨rfl, .inr ⟨proceeds.1, rfl⟩⟩
  | overflow proceeds target means full => exact .inr ⟨rfl, .inr ⟨proceeds.1, rfl⟩⟩
  | underflow proceeds means empty => exact .inr ⟨rfl, .inr ⟨proceeds.1, rfl⟩⟩
  | executed proceeds instruction means after later done => exact .inl ⟨_, rfl⟩

/-- Each outcome of a step has its exact condition, and only an executed
instruction has effects: any other step changes nothing but the program counter,
which stays when there was nothing to fetch and else lies behind the opcode. -/
theorem step_outcome_iff (machine : Machine) (generator : Generator) :
    let stepped := machine.step generator
    (stepped.outcome = .error .noProgram ↔ machine.programSize = none) ∧
    ((∃ cause pc, stepped.outcome = .ok (.halted cause pc)) ↔
      machine.programSize ≠ none ∧ (¬ machine.InProgram ∨ machine.AtSelfJump)) ∧
    (∀ opcode, stepped.outcome = .error (.invalidOpcode opcode) ↔
      machine.Proceeds ∧ opcode = machine.opcode ∧ Instruction.decode? opcode = none) ∧
    (stepped.outcome = .error .stackOverflow ↔ machine.Proceeds ∧ machine.Overflows) ∧
    (stepped.outcome = .error .stackUnderflow ↔ machine.Proceeds ∧ machine.Underflows) ∧
    (∀ opcode, stepped.outcome = .ok (.executed opcode) ↔
      machine.Proceeds ∧ opcode = machine.opcode ∧ Instruction.decode? opcode ≠ none ∧
        ¬ machine.Overflows ∧ ¬ machine.Underflows) ∧
    ((∃ opcode, stepped.outcome = .ok (.executed opcode)) ∨
      (stepped.generator = generator ∧
        ((¬ machine.InProgram ∧ stepped.machine = machine) ∨
          (machine.InProgram ∧ stepped.machine = { machine with pc := machine.pc + 2 })))) := by
  intro stepped
  exact ⟨outcome_noProgram_iff machine generator, halts_iff machine generator,
    outcome_invalidOpcode_iff machine generator, outcome_stackOverflow_iff machine generator,
    outcome_stackUnderflow_iff machine generator, outcome_executed_iff machine generator,
    executes_or_stays machine generator⟩

end Chip8.Machine
