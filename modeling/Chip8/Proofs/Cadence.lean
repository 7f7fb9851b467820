import Chip8.Proofs.Loading

/-!
# The beat of the timers

Both timers go down with every sixth instruction that is executed. A machine does not
number its instructions: it keeps a count of ticks, which starts anew in two cases. When
a timer went down it starts anew at a multiple of six, and the beat stays where it was.
When it wraps around it starts anew after `2 ^ 32` ticks, which six does not divide, and
the beat moves. Here the instructions of a run are numbered from the first one on, and
the beat is stated by these numbers.
-/

namespace Chip8

namespace Machine

/-- How many counts of ticks there are. -/
abbrev tickCounts : Nat := 4294967296

/-- The count of ticks wraps around. -/
theorem toNat_ticks_succ (ticks : UInt32) :
    (ticks + 1).toNat = (ticks.toNat + 1) % tickCounts := by
  rw [UInt32.toNat_add]
  rfl

/-- The timers are due at ticks that six divides. -/
theorem due_iff (ticks : UInt32) :
    (ticks + 1) % 6 = 0 ↔ (ticks.toNat + 1) % tickCounts % 6 = 0 := by
  have six : (6 : UInt32).toNat = 6 := rfl
  have zero : (0 : UInt32).toNat = 0 := rfl
  rw [← UInt32.toNat_inj, UInt32.toNat_mod, toNat_ticks_succ, six, zero]

/-- A tick is counted, or the count starts anew where the timers were due. -/
theorem tick_ticks (machine : Machine) :
    machine.tick.ticks.toNat = (machine.ticks.toNat + 1) % tickCounts ∨
      (machine.tick.ticks.toNat = 0 ∧ (machine.ticks.toNat + 1) % tickCounts % 6 = 0) := by
  rw [← due_iff, ← toNat_ticks_succ]
  by_cases due : (machine.ticks + 1) % 6 = 0
  · simp only [tick, if_neg (not_not_intro due)]
    split
    · exact .inl rfl
    · exact .inr ⟨rfl, due⟩
  · exact .inl (congrArg (UInt32.toNat ∘ Machine.ticks) (tick_between machine due))

/-- Where the timers were due the count is a multiple of six, whether or not it starts
anew. -/
theorem due_iff_tick (machine : Machine) :
    (machine.ticks + 1) % 6 = 0 ↔ machine.tick.ticks.toNat % 6 = 0 := by
  rw [due_iff]
  rcases machine.tick_ticks with counted | ⟨anew, due⟩
  · rw [counted]
  · rw [anew]
    exact iff_of_true due rfl

/-- While both timers are zero a tick is only counted. -/
theorem tick_of_zero (machine : Machine) (delay : machine.delay = 0) (sound : machine.sound = 0) :
    machine.tick = { machine with ticks := machine.ticks + 1 } := by
  by_cases due : (machine.ticks + 1) % 6 = 0
  · have resting : countDown 0 = 0 := rfl
    have counted : machine.tick.ticks = machine.ticks + 1 := by
      simp only [tick, if_neg (not_not_intro due), if_pos (And.intro delay sound)]
    rw [tick_eq, tick_delay, tick_sound, counted, if_neg (not_not_intro due),
      if_neg (not_not_intro due), delay, sound, resting]
  · exact tick_between machine due

end Machine

namespace System

/-! ## Numbers -/

/-- How many steps of a run are of some kind. -/
def count (kind : System → Bool) (system : System) : List Turn → Nat
  | [] => 0
  | .step :: rest => (kind system).toNat + system.next.count kind rest
  | .key number down :: rest => (system.turn (.key number down)).count kind rest

/-- The next step executes an instruction. -/
def executes (system : System) : Bool := system.executes?.isSome

/-- In the next step the count of ticks wraps around. -/
def wraps (system : System) : Bool :=
  system.executes && system.machine.ticks.toNat + 1 == Machine.tickCounts

/-- What parts of a run count, the run counts. -/
theorem count_append (kind : System → Bool) (system : System) (turns later : List Turn) :
    system.count kind (turns ++ later) =
      system.count kind turns + (system.play turns).count kind later := by
  induction turns generalizing system with
  | nil => exact (Nat.zero_add _).symm
  | cons turn rest inductionHypothesis =>
    cases turn with
    | step =>
      rw [List.cons_append, count, inductionHypothesis, ← Nat.add_assoc]
      rfl
    | key number down => exact inductionHypothesis _

/-- A run can be played in parts. -/
theorem play_append (system : System) (turns later : List Turn) :
    system.play (turns ++ later) = (system.play turns).play later := by
  induction turns generalizing system with
  | nil => rfl
  | cons turn rest inductionHypothesis => exact inductionHypothesis (system.turn turn)

/-- An executed instruction is counted. -/
theorem executes_eq_true (system : System) (instruction : Instruction)
    (known : system.executes? = some instruction) : system.executes = true := by
  rw [executes, known]
  rfl

/-- With an executed instruction the count of ticks wraps around where it is at its end. -/
theorem wraps_of_executes (system : System) (instruction : Instruction)
    (known : system.executes? = some instruction) :
    system.wraps = (system.machine.ticks.toNat + 1 == Machine.tickCounts) := by
  rw [wraps, system.executes_eq_true instruction known, Bool.true_and]

/-- Where nothing is executed nothing is counted. -/
theorem wraps_of_idle (system : System) (idle : system.executes? = none) :
    system.executes = false ∧ system.wraps = false := by
  have uncounted : system.executes = false := by
    rw [executes, idle]
    rfl
  exact ⟨uncounted, by rw [wraps, uncounted, Bool.false_and]⟩

/-! ## The phase -/

/-- The count of ticks fits a number of executed instructions and of wraps. -/
structure InStep (system : System) (number wraps : Nat) : Prop where
  /-- Divided by six, `2 ^ 32` leaves four. -/
  phase : number % 6 = (system.machine.ticks.toNat + 4 * wraps) % 6
  bound : system.machine.ticks.toNat + Machine.tickCounts * wraps ≤ number

/-- A machine with its first program has executed nothing. -/
theorem inStep_starting (program : List UInt8) (generator : Generator) :
    (starting program generator).InStep 0 0 :=
  have fresh : (starting program generator).machine.ticks = 0 := rfl
  { phase := by rw [fresh]; rfl
    bound := by rw [fresh]; exact Nat.le_refl 0 }

/-- A step stays in step. -/
theorem InStep.next {system : System} {number wraps : Nat} (inStep : system.InStep number wraps) :
    system.next.InStep (number + system.executes.toNat) (wraps + system.wraps.toNat) := by
  obtain ⟨phase, bound⟩ := inStep
  cases kind : system.executes? with
  | none =>
    obtain ⟨pc, same⟩ := system.next_of_idle kind
    obtain ⟨uncounted, unwrapped⟩ := system.wraps_of_idle kind
    rw [same, uncounted, unwrapped]
    exact ⟨phase, bound⟩
  | some instruction =>
    obtain ⟨after, later, done, same⟩ := system.next_of_executes instruction kind
    have counted := system.executes_eq_true instruction kind
    have wrapped := system.wraps_of_executes instruction kind
    have untouched : after.ticks = system.machine.ticks :=
      (Machine.execute_untimed _ _ _ _ _ done).ticks
    have below : system.machine.ticks.toNat < 4294967296 := system.machine.ticks.toNat_lt
    have ticked := after.tick_ticks
    rw [untouched] at ticked
    rw [same, counted, wrapped]
    simp only [Machine.tickCounts] at ticked bound
    by_cases last : system.machine.ticks.toNat + 1 = 4294967296
    · have anew : after.tick.ticks.toNat = 0 := by
        rw [last] at ticked
        omega
      rw [beq_iff_eq.mpr last]
      constructor <;> simp only [anew, Bool.toNat_true, Machine.tickCounts] <;> omega
    · rw [Nat.mod_eq_of_lt (by omega)] at ticked
      rw [beq_eq_false_iff_ne.mpr last]
      constructor <;> simp only [Bool.toNat_true, Bool.toNat_false, Machine.tickCounts] <;> omega

/-- A run stays in step. -/
theorem InStep.play {system : System} {number wraps : Nat} (inStep : system.InStep number wraps)
    (turns : List Turn) :
    (system.play turns).InStep (number + system.count executes turns)
      (wraps + system.count System.wraps turns) := by
  induction turns generalizing system number wraps with
  | nil => exact inStep
  | cons turn rest inductionHypothesis =>
    cases turn with
    | step =>
      have played := inductionHypothesis inStep.next
      rw [Nat.add_assoc, Nat.add_assoc] at played
      exact played
    | key number down => exact inductionHypothesis ⟨inStep.phase, inStep.bound⟩

/-- A count that is in step is a multiple of six where the number is, once the wraps are
allowed for. -/
theorem InStep.due {system : System} {number wraps : Nat} (inStep : system.InStep number wraps) :
    system.machine.ticks.toNat % 6 = 0 ↔ (number + 2 * wraps) % 6 = 0 := by
  have phase := inStep.phase
  omega

/-- The count cannot wrap around before as many instructions were executed. -/
theorem InStep.wraps_eq_zero {system : System} {number wraps : Nat}
    (inStep : system.InStep number wraps) (few : number < Machine.tickCounts) : wraps = 0 := by
  have bound := inStep.bound
  simp only [Machine.tickCounts] at bound few
  omega

/-! ## The beat of a run -/

/-- Whatever a program executes, both timers go down by one, unless they are zero, at
exactly the instructions whose number six divides, where every time that the count of
ticks wrapped around adds two to the number. It does not wrap around among the first
`2 ^ 32 - 1` instructions. -/
theorem timers_keep_time (program : List UInt8) (generator : Generator) (turns : List Turn)
    (instruction : Instruction)
    (running : ((starting program generator).play turns).executes? = some instruction) :
    let start := starting program generator
    let before := start.play turns
    let number := start.count executes (turns ++ [.step])
    let wraps := start.count wraps (turns ++ [.step])
    ∃ after later,
      before.machine.fetched.execute before.generator instruction = (.ok (), after, later) ∧
      before.next.machine.delay = (if (number + 2 * wraps) % 6 = 0
        then Machine.countDown after.delay else after.delay) ∧
      before.next.machine.sound = (if (number + 2 * wraps) % 6 = 0
        then Machine.countDown after.sound else after.sound) ∧
      (number < Machine.tickCounts → wraps = 0) := by
  intro start before number wraps
  obtain ⟨after, later, done, same⟩ := before.next_of_executes instruction running
  have inStep : before.next.InStep number wraps := by
    have played := (inStep_starting program generator).play (turns ++ [.step])
    rw [Nat.zero_add, Nat.zero_add, play_append] at played
    exact played
  have due : (after.ticks + 1) % 6 = 0 ↔ (number + 2 * wraps) % 6 = 0 := by
    rw [Machine.due_iff_tick, ← inStep.due, same]
  refine ⟨after, later, done, ?_, ?_, inStep.wraps_eq_zero⟩
  · rw [same, Machine.tick_delay, ite_not, ite_cond_congr (propext due)]
  · rw [same, Machine.tick_sound, ite_not, ite_cond_congr (propext due)]

/-! ## Waiting for a key -/

/-- A new machine that waits for a key, and with the key sets the delay timer to one. -/
def waiting : System := starting [0xF0, 0x0A, 0xF0, 0x15] (.ofSeed 0)

/-- The machine after so many steps without a key. -/
def polled (polls : Nat) : System :=
  { waiting with machine := { waiting.machine with ticks := .ofNat polls } }

/-- The machine after one step with a key. -/
def awake (polls : Nat) : System :=
  { waiting with machine := { waiting.machine with
    v := waiting.machine.v.set 0 1
    pc := 0x202
    keys := waiting.machine.keys.setIfInBounds 0 true
    ticks := .ofNat (polls + 1) } }

/-- The machine that has set the timer, before this is counted. -/
def timed (polls : Nat) : Machine := { (awake polls).machine.fetched with delay := 1 }

/-- So many steps without a key, the key, and the step that finds it. -/
def pressing (polls : Nat) : List Turn := .replicate polls .step ++ [.key 0 true, .step]

/-- The two opcodes of the program. -/
theorem word_waiting :
    waiting.machine.memory.word 0x200 = 0xF00A ∧
      waiting.machine.memory.word 0x202 = 0xF015 := by
  have copied : [0xF0, 0x0A, 0xF0, 0x15].length < programLimit := by decide
  constructor
  · exact (Machine.word_load_initial _ copied 0 0xF0 0x0A rfl rfl).trans (by decide)
  · exact (Machine.word_load_initial _ copied 2 0xF0 0x15 rfl rfl).trans (by decide)

/-- The machine stays within the program there. -/
theorem inProgram_waiting (machine : Machine) (loaded : machine.programSize = some 4)
    (counter : machine.pc = 0x200 ∨ machine.pc = 0x202) : machine.InProgram := by
  rcases counter with first | second
  · exact ⟨4, loaded, by rw [first]; decide⟩
  · exact ⟨4, loaded, by rw [second]; decide⟩

/-- The count of ticks of one more instruction. -/
theorem ofNat_ticks_succ (number : Nat) : UInt32.ofNat number + 1 = .ofNat (number + 1) :=
  (UInt32.ofNat_add number 1).symm

/-- Without a key a machine stays where it waits for one. -/
theorem execute_awaitKey (machine : Machine) (generator : Generator) (x : Register)
    (quiet : machine.keys.any id = false) :
    machine.fetched.execute generator (.awaitKey x) = (.ok (), machine, generator) := by
  have silent : machine.fetched.keys.any id = false := quiet
  have back : machine.fetched.pc - 2 = machine.pc := UInt16.add_sub_cancel machine.pc 2
  simp only [Machine.execute, silent, back]
  rfl

/-- With a key it goes on. -/
theorem execute_awaitKey_found (machine : Machine) (generator : Generator) (x : Register)
    (found : machine.keys.any id = true) :
    machine.fetched.execute generator (.awaitKey x) =
      (.ok (), machine.fetched.setRegister x 1, generator) := by
  have pressed : machine.fetched.keys.any id = true := found
  simp only [Machine.execute, pressed, if_true]

/-- Without a key nothing but the count moves. -/
theorem polled_next (polls : Nat) :
    (polled polls).executes? = some (.awaitKey 0) ∧ (polled polls).next = polled (polls + 1) := by
  have inside : (polled polls).machine.InProgram := inProgram_waiting _ rfl (.inl rfl)
  have keys : (polled polls).machine.keys = .replicate 16 false := rfl
  have quiet : (polled polls).machine.keys.any id = false := by
    rw [keys]
    simp
  obtain ⟨executes, next⟩ := (polled polls).next_of_opcode 0xF00A inside word_waiting.1
    (by decide) (.awaitKey 0) rfl _ _ (execute_awaitKey _ _ 0 quiet)
  have counted : (polled polls).machine.ticks + 1 = .ofNat (polls + 1) := ofNat_ticks_succ polls
  rw [next, Machine.tick_of_zero _ rfl rfl, counted]
  exact ⟨executes, rfl⟩

/-- With the key the register is set, and the machine goes on. -/
theorem polled_next_key (polls : Nat) :
    ((polled polls).turn (.key 0 true)).executes? = some (.awaitKey 0) ∧
      ((polled polls).turn (.key 0 true)).next = awake polls := by
  have inside : ((polled polls).turn (.key 0 true)).machine.InProgram :=
    inProgram_waiting _ rfl (.inl rfl)
  have keys : ((polled polls).turn (.key 0 true)).machine.keys =
    (Vector.replicate 16 false).set 0 true := rfl
  have found : ((polled polls).turn (.key 0 true)).machine.keys.any id = true := by
    rw [keys, Vector.any_eq_true]
    exact ⟨0, by decide, rfl⟩
  obtain ⟨executes, next⟩ := ((polled polls).turn (.key 0 true)).next_of_opcode 0xF00A inside
    word_waiting.1 (by decide) (.awaitKey 0) rfl _ _ (execute_awaitKey_found _ _ 0 found)
  have counted : (((polled polls).turn (.key 0 true)).machine.fetched.setRegister 0 1).ticks + 1 =
    .ofNat (polls + 1) := ofNat_ticks_succ polls
  rw [next, Machine.tick_of_zero _ rfl rfl, counted]
  exact ⟨executes, rfl⟩

/-- Awake, the machine sets the delay timer to one. -/
theorem awake_next (polls : Nat) :
    (awake polls).executes? = some (.setDelay 0) ∧
      (awake polls).machine.fetched.execute (awake polls).generator (.setDelay 0) =
        (.ok (), timed polls, (awake polls).generator) ∧
      (awake polls).next = ⟨(timed polls).tick, (awake polls).generator⟩ := by
  have inside : (awake polls).machine.InProgram := inProgram_waiting _ rfl (.inr rfl)
  have done : (awake polls).machine.fetched.execute (awake polls).generator (.setDelay 0) =
      (.ok (), timed polls, (awake polls).generator) := rfl
  obtain ⟨executes, next⟩ := (awake polls).next_of_opcode 0xF015 inside word_waiting.2
    (by decide) (.setDelay 0) rfl _ _ done
  exact ⟨executes, done, next⟩

/-- Polls are played and counted. -/
theorem play_polled (polls more : Nat) :
    (polled polls).play (.replicate more .step) = polled (polls + more) ∧
      (polled polls).count executes (.replicate more .step) = more := by
  induction more generalizing polls with
  | zero => exact ⟨rfl, rfl⟩
  | succ more inductionHypothesis =>
    obtain ⟨executed, next⟩ := polled_next polls
    obtain ⟨played, counted⟩ := inductionHypothesis (polls + 1)
    have one := (polled polls).executes_eq_true _ executed
    rw [List.replicate_succ, play, count, turn, next, played, counted, one, Bool.toNat_true]
    exact ⟨by rw [Nat.add_right_comm, Nat.add_assoc], Nat.add_comm 1 more⟩

/-- The key ends the wait, two instructions after the last poll without it. -/
theorem play_pressing (polls : Nat) :
    waiting.play (pressing polls) = awake polls ∧
      waiting.count executes (pressing polls ++ [.step]) = polls + 2 := by
  have start : waiting = polled 0 := rfl
  obtain ⟨played, counted⟩ := play_polled 0 polls
  obtain ⟨found, woken⟩ := polled_next_key polls
  rw [Nat.zero_add] at played
  constructor
  · rw [pressing, play_append, start, played, play, play, play]
    exact woken
  · have first := ((polled polls).turn (.key 0 true)).executes_eq_true _ found
    have second := (awake polls).executes_eq_true _ (awake_next polls).1
    rw [pressing, List.append_assoc, count_append, start, played, counted, List.cons_append,
      List.cons_append, List.nil_append, count, count, count, count, first, woken, second]
    rfl

/-- After four polls the timer is set by the sixth instruction, and goes down with it. -/
theorem timers_keep_time_pressing :
    (waiting.play (pressing 4)).executes? = some (.setDelay 0) ∧
      waiting.count executes (pressing 4 ++ [.step]) = 6 ∧
      waiting.count wraps (pressing 4 ++ [.step]) = 0 ∧
      (waiting.play (pressing 4)).next.machine.delay = 0 := by
  obtain ⟨reached, number⟩ := play_pressing 4
  obtain ⟨executes, done, _⟩ := awake_next 4
  rw [← reached] at executes done
  unfold waiting at number executes done ⊢
  obtain ⟨after, later, same, delay, _, few⟩ :=
    timers_keep_time [0xF0, 0x0A, 0xF0, 0x15] (.ofSeed 0) (pressing 4) (.setDelay 0) executes
  have set : after.delay = 1 := by
    obtain ⟨rfl, _⟩ := Prod.mk.inj (Prod.mk.inj (done.symm.trans same)).2
    rfl
  rw [number] at few
  have unwrapped := few (by decide)
  rw [number, unwrapped, set] at delay
  exact ⟨executes, number, unwrapped, delay⟩

/-- After `2 ^ 32 - 2` polls the timer is set by an instruction whose number six does not
divide, and goes down with it all the same. -/
theorem delay_goes_down_off_beat :
    waiting.count executes (pressing 4294967294 ++ [.step]) = 4294967296 ∧
      4294967296 % 6 ≠ 0 ∧
      ∃ after later,
        (waiting.play (pressing 4294967294)).machine.fetched.execute
          (waiting.play (pressing 4294967294)).generator (.setDelay 0) = (.ok (), after, later) ∧
        (waiting.play (pressing 4294967294)).executes? = some (.setDelay 0) ∧
        after.delay = 1 ∧
        (waiting.play (pressing 4294967294)).next.machine.delay = 0 := by
  obtain ⟨reached, number⟩ := play_pressing 4294967294
  obtain ⟨executes, done, next⟩ := awake_next 4294967294
  have due : ((timed 4294967294).ticks + 1) % 6 = 0 := by decide
  rw [reached]
  refine ⟨number, by decide, _, _, done, executes, rfl, ?_⟩
  rw [next, Machine.tick_delay, if_neg (not_not_intro due)]
  rfl

end System

end Chip8
