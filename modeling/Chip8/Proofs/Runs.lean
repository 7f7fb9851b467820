import Chip8.Proofs.Footprints

/-!
# What a run leaves alone

A system is a machine with the generator it draws from. A run is a list of turns:
the system takes a step, whatever comes of it, or the host moves a key. What every
step keeps under some condition a run keeps whose steps all meet that condition;
`play_keeps` is the one induction over runs. It carries single bytes along:
a byte that no executed instruction writes is after a run what it was before.
-/

namespace Chip8

/-- A machine and the generator its random instructions draw from. -/
structure System where
  machine : Machine
  generator : Generator

/-- What happens between two looks at a system. -/
inductive Turn where
  /-- The system takes a step. -/
  | step
  /-- The host presses or releases a key. -/
  | key (number : Nat) (down : Bool)

namespace System

/-- What the next step gives. -/
def stepped (system : System) : Stepped := system.machine.step system.generator

/-- The system after its next step. -/
def next (system : System) : System := ⟨system.stepped.machine, system.stepped.generator⟩

/-- The instruction that the next step executes, if it executes one. -/
def executes? (system : System) : Option Instruction :=
  match system.stepped.outcome with
  | .ok (.executed opcode) => Instruction.decode? opcode
  | _ => none

/-- The next step executes an instruction that may change the byte at an address. -/
def writesAt (system : System) (address : Nat) : Bool :=
  system.executes?.any fun instruction => instruction.writes system.machine address

/-- The next step executes a store to the byte at an address. -/
def storesAt (system : System) (address : Nat) : Bool :=
  system.executes?.any fun instruction =>
    instruction.stores system.machine.index.toNat address

/-- The system after a turn. -/
def turn (system : System) : Turn → System
  | .step => system.next
  | .key number down => { system with machine := system.machine.setKey number down }

/-- The system after a run. -/
def play (system : System) : List Turn → System
  | [] => system
  | turn :: rest => (system.turn turn).play rest

/-- In a run, whatever takes a step is allowed to. -/
def Throughout (Allowed : System → Prop) (system : System) : List Turn → Prop
  | [] => True
  | turn :: rest => (turn = .step → Allowed system) ∧ (system.turn turn).Throughout Allowed rest

/-! ## Steps of a system -/

/-- The two kinds of steps, with what they execute and where they lead. -/
inductive Advance (system : System) : Option Instruction → System → Prop where
  /-- An instruction is executed, and a tick counted after it. -/
  | executed (instruction : Instruction) (after : Machine) (later : Generator)
      (done : system.machine.fetched.execute system.generator instruction = (.ok (), after, later)) :
      Advance system (some instruction) ⟨after.tick, later⟩
  /-- Nothing is executed; the program counter may have moved. -/
  | idle (pc : UInt16) :
      Advance system none ⟨{ system.machine with pc := pc }, system.generator⟩

/-- Every step is of one of these kinds. -/
theorem next_cases (system : System) : Advance system system.executes? system.next := by
  have way := system.machine.step_cases system.generator
  unfold executes? next stepped
  generalize system.machine.step system.generator = stepped at way
  cases way with
  | noProgram missing => exact .idle system.machine.pc
  | outside loaded left => exact .idle system.machine.pc
  | selfJump inside still => exact .idle (system.machine.pc + 2)
  | unknown proceeds means => exact .idle (system.machine.pc + 2)
  | overflow proceeds target means full => exact .idle (system.machine.pc + 2)
  | underflow proceeds means empty => exact .idle (system.machine.pc + 2)
  | executed proceeds instruction means after later done =>
    have kind : Advance system (some instruction) ⟨after.tick, later⟩ :=
      .executed instruction after later done
    rwa [← means] at kind

/-- What can be executed is executed, and a tick counted after it. -/
theorem next_of_execute (system : System) (proceeds : system.machine.Proceeds)
    (instruction : Instruction)
    (means : Instruction.decode? system.machine.opcode = some instruction)
    (after : Machine) (later : Generator)
    (done : system.machine.fetched.execute system.generator instruction = (.ok (), after, later)) :
    system.executes? = some instruction ∧ system.next = ⟨after.tick, later⟩ := by
  have step := system.machine.step_of_execute system.generator proceeds instruction means
    after later done
  rw [executes?, next, stepped, step]
  exact ⟨means, rfl⟩

/-- A known opcode that can be executed is executed, and a tick counted after it. -/
theorem next_of_opcode (system : System) (opcode : UInt16) (inside : system.machine.InProgram)
    (stands : system.machine.opcode = opcode) (moves : opcode.toNat / 4096 ≠ 0x1)
    (instruction : Instruction) (means : Instruction.decode? opcode = some instruction)
    (after : Machine) (later : Generator)
    (done : system.machine.fetched.execute system.generator instruction = (.ok (), after, later)) :
    system.executes? = some instruction ∧ system.next = ⟨after.tick, later⟩ := by
  subst stands
  exact system.next_of_execute (.of_opcode inside moves) instruction means after later done

/-- The opcode of an executed step means the instruction that is executed. -/
theorem executes?_of_outcome (system : System) (opcode : UInt16)
    (executed : system.stepped.outcome = .ok (.executed opcode)) :
    ∃ instruction, Instruction.decode? opcode = some instruction ∧
      system.executes? = some instruction := by
  have known : system.executes? = Instruction.decode? opcode := by rw [executes?, executed]
  have way := system.machine.step_cases system.generator
  unfold stepped at executed
  generalize system.machine.step system.generator = stepped at way executed
  cases way with
  | executed proceeds instruction means after later done =>
    obtain rfl : system.machine.opcode = opcode := Outcome.executed.inj (Except.ok.inj executed)
    exact ⟨instruction, means, known.trans means⟩
  | _ => cases executed

/-- A step that executes an instruction executed an opcode that means it. -/
theorem outcome_of_executes (system : System) (instruction : Instruction)
    (executes : system.executes? = some instruction) :
    ∃ opcode, system.stepped.outcome = .ok (.executed opcode) ∧
      Instruction.decode? opcode = some instruction := by
  unfold executes? at executes
  split at executes
  · rename_i opcode told
    exact ⟨opcode, told, executes⟩
  · cases executes

/-- A step that executes an instruction, taken apart. -/
theorem next_of_executes (system : System) (instruction : Instruction)
    (executes : system.executes? = some instruction) :
    ∃ after later, system.machine.fetched.execute system.generator instruction =
      (.ok (), after, later) ∧ system.next = ⟨after.tick, later⟩ := by
  have kind := system.next_cases
  rw [executes] at kind
  generalize system.next = next at kind
  cases kind with
  | executed _ after later done => exact ⟨after, later, done, rfl⟩

/-- A step that executes nothing changes nothing but the program counter. -/
theorem next_of_idle (system : System) (executes : system.executes? = none) :
    ∃ pc, system.next = ⟨{ system.machine with pc := pc }, system.generator⟩ := by
  have kind := system.next_cases
  rw [executes] at kind
  generalize system.next = next at kind
  cases kind with
  | idle pc => exact ⟨pc, rfl⟩

/-- A step that executes an instruction stays within its footprint, apart from the
timers. -/
theorem next_confined (system : System) (instruction : Instruction)
    (executes : system.executes? = some instruction) :
    instruction.Confined system.machine system.next.machine := by
  obtain ⟨after, later, done, same⟩ := system.next_of_executes instruction executes
  have untimed := Machine.execute_untimed _ _ _ _ _ done
  rw [same]
  exact Machine.confined_tick { untimed.toConfined with }

/-- Timers that the instruction does not set go on as if only the tick had been. -/
theorem next_timers (system : System) (instruction : Instruction)
    (executes : system.executes? = some instruction) :
    (instruction.setsDelay = false →
      system.next.machine.delay = system.machine.tick.delay) ∧
    (instruction.setsSound = false →
      system.next.machine.sound = system.machine.tick.sound) := by
  obtain ⟨after, later, done, same⟩ := system.next_of_executes instruction executes
  have untimed := Machine.execute_untimed _ _ _ _ _ done
  rw [same]
  constructor
  · intro unset
    rw [Machine.tick_delay, Machine.tick_delay, untimed.ticks, untimed.delay unset]
    rfl
  · intro unset
    rw [Machine.tick_sound, Machine.tick_sound, untimed.ticks, untimed.sound unset]
    rfl

/-- Only the random instruction takes a byte from the generator. -/
theorem next_generator (system : System) (instruction : Instruction)
    (executes : system.executes? = some instruction) (unused : instruction.drawsByte = false) :
    system.next.generator = system.generator := by
  obtain ⟨after, later, done, same⟩ := system.next_of_executes instruction executes
  rw [same]
  exact Machine.execute_generator _ _ _ _ _ done unused

/-- No step changes which program is loaded. -/
theorem next_programSize (system : System) :
    system.next.machine.programSize = system.machine.programSize := by
  cases executes : system.executes? with
  | none =>
    obtain ⟨pc, same⟩ := system.next_of_idle executes
    rw [same]
  | some instruction => exact (system.next_confined instruction executes).programSize

/-- No step moves the screen into memory or out of it. -/
theorem next_isDetached (system : System) :
    system.next.machine.memory.isDetached = system.machine.memory.isDetached := by
  cases executes : system.executes? with
  | none =>
    obtain ⟨pc, same⟩ := system.next_of_idle executes
    rw [same]
  | some instruction => exact (system.next_confined instruction executes).place

/-- A byte that the executed instruction does not write is after a step what it
was before, also when nothing is executed. -/
theorem read_next (system : System) (address : Nat)
    (unwritten : system.writesAt address = false) :
    system.next.machine.memory.read address = system.machine.memory.read address := by
  cases executes : system.executes? with
  | none =>
    obtain ⟨pc, same⟩ := system.next_of_idle executes
    rw [same]
  | some instruction =>
    have outside : instruction.writes system.machine address = false := by
      simpa [writesAt, executes] using unwritten
    exact (system.next_confined instruction executes).byte address outside

/-- Below the first free stack slot and the picture only stores write. -/
theorem writesAt_eq_storesAt (system : System) (address : Nat)
    (unfree : address < Memory.slotAddress system.machine.sp)
    (unpainted : address < screenStart) :
    system.writesAt address = system.storesAt address := by
  unfold writesAt storesAt
  congr 1
  funext instruction
  exact instruction.writes_eq_stores system.machine address unfree unpainted

/-! ## Runs -/

/-- What allowed steps keep, and key changes too, a run of allowed steps keeps. The
induction is on the turns, for whatever system takes the first of them. -/
theorem play_keeps (Allowed Kept : System → Prop)
    (onStep : ∀ system : System, Allowed system → Kept system → Kept system.next)
    (onKey : ∀ (system : System) (number : Nat) (down : Bool),
      Kept system → Kept (system.turn (.key number down)))
    (system : System) (turns : List Turn) (allowed : system.Throughout Allowed turns)
    (kept : Kept system) : Kept (system.play turns) := by
  induction turns generalizing system with
  | nil => exact kept
  | cons turn rest inductionHypothesis =>
    have keptOnce : Kept (system.turn turn) := by
      cases turn with
      | step => exact onStep system (allowed.1 rfl) kept
      | key number down => exact onKey system number down kept
    exact inductionHypothesis (system.turn turn) allowed.2 keptOnce

/-- A byte that no executed instruction writes stays through the run. -/
theorem read_play (system : System) (turns : List Turn) (address : Nat)
    (unwritten : system.Throughout (fun running => running.writesAt address = false) turns) :
    (system.play turns).machine.memory.read address = system.machine.memory.read address :=
  play_keeps _
    (fun later => later.machine.memory.read address = system.machine.memory.read address)
    (fun running outside kept => (running.read_next address outside).trans kept)
    (fun _ _ _ kept => kept) system turns unwritten rfl

/-- A run that may do more may do less. -/
theorem Throughout.mono {Allowed Admitted : System → Prop}
    (weaker : ∀ system, Allowed system → Admitted system) (system : System)
    (turns : List Turn) (allowed : system.Throughout Allowed turns) :
    system.Throughout Admitted turns := by
  induction turns generalizing system with
  | nil => trivial
  | cons turn rest inductionHypothesis =>
    exact ⟨fun steps => weaker system (allowed.1 steps), inductionHypothesis _ allowed.2⟩

/-- What may happen always may happen in every run. -/
theorem Throughout.of_forall {Allowed : System → Prop} (always : ∀ system, Allowed system)
    (system : System) (turns : List Turn) : system.Throughout Allowed turns := by
  induction turns generalizing system with
  | nil => trivial
  | cons turn rest inductionHypothesis =>
    exact ⟨fun _ => always system, inductionHypothesis _⟩

/-- No run moves the screen into memory or out of it. -/
theorem isDetached_play (system : System) (turns : List Turn) :
    (system.play turns).machine.memory.isDetached = system.machine.memory.isDetached :=
  play_keeps (fun _ => True)
    (fun later => later.machine.memory.isDetached = system.machine.memory.isDetached)
    (fun running _ kept => running.next_isDetached.trans kept)
    (fun _ _ _ kept => kept) system turns (.of_forall (fun _ => trivial) system turns) rfl

/-- Two allowances together are one. -/
theorem Throughout.and {Allowed Admitted : System → Prop} (system : System)
    (turns : List Turn) (allowed : system.Throughout Allowed turns)
    (admitted : system.Throughout Admitted turns) :
    system.Throughout (fun running => Allowed running ∧ Admitted running) turns := by
  induction turns generalizing system with
  | nil => trivial
  | cons turn rest inductionHypothesis =>
    exact ⟨fun steps => ⟨allowed.1 steps, admitted.1 steps⟩,
      inductionHypothesis _ allowed.2 admitted.2⟩

/-- Before the call stack, stores alone change memory: every byte that no executed
store addresses stays through the run. -/
theorem read_play_before_stack (system : System) (turns : List Turn) (address : Nat)
    (before : address < stackStart)
    (unstored : system.Throughout (fun running => running.storesAt address = false) turns) :
    (system.play turns).machine.memory.read address = system.machine.memory.read address := by
  apply read_play
  refine Throughout.mono (fun running outside => ?_) system turns unstored
  have unfree : address < Memory.slotAddress running.machine.sp := by
    rw [Memory.slotAddress]
    omega
  rw [writesAt_eq_storesAt running address unfree (Nat.lt_trans before (by decide))]
  exact outside

/-- What an executed instruction changes lies within its footprint, the timers and
the generator included, and what a run changes before the call stack was stored
there by an executed instruction. -/
theorem changes_within_footprints :
    (∀ (system : System) (opcode : UInt16),
      system.stepped.outcome = .ok (.executed opcode) →
      ∃ instruction, Instruction.decode? opcode = some instruction ∧
        instruction.Confined system.machine system.next.machine ∧
        (instruction.setsDelay = false →
          system.next.machine.delay = system.machine.tick.delay) ∧
        (instruction.setsSound = false →
          system.next.machine.sound = system.machine.tick.sound) ∧
        (instruction.drawsByte = false → system.next.generator = system.generator)) ∧
    (∀ (system : System) (turns : List Turn) (address : Nat), address < stackStart →
      system.Throughout (fun running => running.storesAt address = false) turns →
      (system.play turns).machine.memory.read address =
        system.machine.memory.read address) := by
  refine ⟨fun system opcode executed => ?_, read_play_before_stack⟩
  obtain ⟨instruction, means, executes⟩ := system.executes?_of_outcome opcode executed
  have timers := system.next_timers instruction executes
  exact ⟨instruction, means, system.next_confined instruction executes, timers.1, timers.2,
    system.next_generator instruction executes⟩

/-- A system about to store the registers `V0` and `V1` at `0x300`. -/
def storing : System where
  machine := { Machine.initial with
    memory := Memory.initial.loadProgram [0xF1, 0x55]
    index := 0x300
    programSize := some 2 }
  generator := ⟨.replicate 8 0, 0⟩

/-- It does so in its next step. -/
theorem storing_outcome : storing.stepped.outcome = .ok (.executed 0xF155) := by
  have opcode : storing.machine.opcode = 0xF155 := by
    simp [storing, Machine.opcode, Machine.initial, Memory.loadProgram, Memory.word,
      Memory.read_writeList, programStart, memorySize]
  have proceeds : storing.machine.Proceeds :=
    .of_opcode ⟨2, rfl, by decide⟩ (by rw [opcode]; decide)
  have means : Instruction.decode? storing.machine.opcode = some (.storeRegisters 1) := by
    rw [opcode]
    rfl
  have step := storing.machine.step_of_execute storing.generator proceeds _ means _ _ rfl
  rw [stepped, step, opcode]

/-- The store stays within its footprint, and the byte behind the two that it
addresses stays. -/
theorem changes_within_footprints_storing :
    (∃ instruction, Instruction.decode? 0xF155 = some instruction ∧
      instruction.Confined storing.machine storing.next.machine) ∧
    (storing.play [.step]).machine.memory.read 0x302 = storing.machine.memory.read 0x302 := by
  obtain ⟨instruction, means, confined, _⟩ :=
    changes_within_footprints.1 storing 0xF155 storing_outcome
  have unstored : storing.storesAt 0x302 = false := by
    obtain ⟨executed, known, executes⟩ := storing.executes?_of_outcome 0xF155 storing_outcome
    obtain rfl : executed = .storeRegisters 1 := Option.some.inj (known.symm.trans rfl)
    rw [storesAt, executes]
    rfl
  exact ⟨⟨instruction, means, confined⟩,
    changes_within_footprints.2 storing [.step] 0x302 (by decide) ⟨fun _ => unstored, trivial⟩⟩

end System

end Chip8
