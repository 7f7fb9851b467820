import Chip8.Proofs.Cadence

/-!
# Nothing hears the sound timer

A program can set the sound timer and has no way to read it. The timer still reaches
into the rest of the machine: where the timers are due, a sound timer above zero starts
the count of ticks anew, and the delay timer, which a program does read, goes down by
that count. So two machines that differ in the sound timer have different counts after
a while. Their remainders by six stay the same as long as neither count wraps around,
and nothing but these remainders decides when the delay timer goes down.
-/

namespace Chip8

namespace Machine

/-- The machine with another sound timer and another count of ticks. -/
def withSound (machine : Machine) (sound : UInt8) (ticks : UInt32) : Machine :=
  { machine with sound := sound, ticks := ticks }

/-- No instruction reads the sound timer or the count of ticks; one sets the timer. -/
theorem execute_withSound (machine : Machine) (generator : Generator)
    (instruction : Instruction) (sound : UInt8) (ticks : UInt32)
    (after : Machine) (later : Generator)
    (done : machine.execute generator instruction = (.ok (), after, later)) :
    ∃ heard, (machine.withSound sound ticks).execute generator instruction =
      (.ok (), after.withSound heard ticks, later) := by
  cases instruction with
  | ret =>
    obtain ⟨below, depth, rfl, rfl⟩ := execute_ret_ok machine generator after later done
    exact ⟨sound, execute_ret _ _ below depth⟩
  | call target =>
    obtain ⟨free, rfl, rfl⟩ := execute_call_ok machine generator target after later done
    exact ⟨sound, execute_call _ _ target free⟩
  | setSound x =>
    obtain ⟨rfl, rfl⟩ := Prod.mk.inj (Prod.mk.inj done).2
    exact ⟨machine.v.get x, rfl⟩
  | skip condition =>
    obtain ⟨rfl, rfl⟩ := Prod.mk.inj (Prod.mk.inj done).2
    refine ⟨sound, ?_⟩
    have tested : (machine.withSound sound ticks).holds condition = machine.holds condition := by
      cases condition <;> rfl
    simp only [execute, tested]
    split <;> rfl
  | awaitKey x =>
    obtain ⟨rfl, rfl⟩ := Prod.mk.inj (Prod.mk.inj done).2
    refine ⟨sound, ?_⟩
    have watched : (machine.withSound sound ticks).keys = machine.keys := rfl
    simp only [execute, watched]
    split <;> rfl
  | arithmetic operation x y =>
    obtain ⟨rfl, rfl⟩ := Prod.mk.inj (Prod.mk.inj done).2
    refine ⟨sound, ?_⟩
    cases operation <;> rfl
  | clearScreen =>
    obtain ⟨rfl, rfl⟩ := Prod.mk.inj (Prod.mk.inj done).2
    exact ⟨sound, by simp only [execute, withSound]⟩
  | _ =>
    obtain ⟨rfl, rfl⟩ := Prod.mk.inj (Prod.mk.inj done).2
    exact ⟨sound, rfl⟩

/-- Counts of ticks with the same remainder are due together, if neither wraps around. -/
theorem due_iff_of_beat (ticks other : UInt32) (beat : other.toNat % 6 = ticks.toNat % 6)
    (room : ticks.toNat + 1 < tickCounts) (otherRoom : other.toNat + 1 < tickCounts) :
    (other + 1) % 6 = 0 ↔ (ticks + 1) % 6 = 0 := by
  rw [due_iff, due_iff, Nat.mod_eq_of_lt room, Nat.mod_eq_of_lt otherRoom]
  omega

/-- The remainder of a count goes on by one with a tick, whether or not the count starts
anew. -/
theorem tick_beat (machine : Machine) (room : machine.ticks.toNat + 1 < tickCounts) :
    machine.tick.ticks.toNat % 6 = (machine.ticks.toNat + 1) % 6 := by
  have ticked := machine.tick_ticks
  rw [Nat.mod_eq_of_lt room] at ticked
  rcases ticked with counted | ⟨anew, due⟩
  · rw [counted]
  · rw [anew, due]

/-- A tick adds at most one to the count. -/
theorem tick_ticks_le (machine : Machine) :
    machine.tick.ticks.toNat ≤ machine.ticks.toNat + 1 := by
  rcases machine.tick_ticks with counted | ⟨anew, _⟩
  · rw [counted]
    exact Nat.mod_le _ _
  · rw [anew]
    exact Nat.zero_le _

/-- A tick of a machine with another sound timer differs in that timer and in the count,
if both are due together. -/
theorem tick_withSound (machine : Machine) (sound : UInt8) (ticks : UInt32)
    (together : (ticks + 1) % 6 = 0 ↔ (machine.ticks + 1) % 6 = 0) :
    ∃ heard counted, (machine.withSound sound ticks).tick = machine.tick.withSound heard counted := by
  have delay : (machine.withSound sound ticks).tick.delay = machine.tick.delay := by
    rw [tick_delay, tick_delay]
    simp only [ne_eq, withSound, together]
  refine ⟨(machine.withSound sound ticks).tick.sound, (machine.withSound sound ticks).tick.ticks, ?_⟩
  rw [tick_eq (machine.withSound sound ticks), tick_eq machine, delay]
  rfl

/-- A step of a machine with another sound timer has the same outcome, and the machines
after it differ as those before. -/
theorem step_withSound (machine : Machine) (generator : Generator) (sound : UInt8)
    (ticks : UInt32) (beat : ticks.toNat % 6 = machine.ticks.toNat % 6)
    (room : machine.ticks.toNat + 1 < tickCounts) (otherRoom : ticks.toNat + 1 < tickCounts) :
    ∃ heard counted,
      (machine.withSound sound ticks).step generator = { machine.step generator with
        machine := (machine.step generator).machine.withSound heard counted } ∧
      counted.toNat % 6 = (machine.step generator).machine.ticks.toNat % 6 := by
  have way := machine.step_cases generator
  generalize machine.step generator = stepped at way
  cases way with
  | noProgram missing =>
    exact ⟨sound, ticks, step_of_missing _ _ missing, beat⟩
  | outside loaded left =>
    exact ⟨sound, ticks, step_of_outside _ _ loaded left, beat⟩
  | selfJump inside still =>
    exact ⟨sound, ticks, step_of_selfJump _ _ inside still, beat⟩
  | unknown proceeds means =>
    exact ⟨sound, ticks, step_of_unknown _ _ proceeds means, beat⟩
  | overflow proceeds target means full =>
    have failed : ((machine.withSound sound ticks).fetched.execute generator (.call target)).1 =
        .error .stackOverflow :=
      (execute_error_iff _ _ _ _).mpr (.inl ⟨⟨target, rfl⟩, full, rfl⟩)
    exact ⟨sound, ticks, step_of_fault (machine.withSound sound ticks) _ proceeds _ means _ failed,
      beat⟩
  | underflow proceeds means empty =>
    have failed : ((machine.withSound sound ticks).fetched.execute generator .ret).1 =
        .error .stackUnderflow :=
      (execute_error_iff _ _ _ _).mpr (.inr ⟨rfl, empty, rfl⟩)
    exact ⟨sound, ticks, step_of_fault (machine.withSound sound ticks) _ proceeds _ means _ failed,
      beat⟩
  | executed proceeds instruction means after later done =>
    have untouched : after.ticks = machine.ticks := (execute_untimed _ _ _ _ _ done).ticks
    rw [← untouched] at beat room
    obtain ⟨set, executed⟩ := execute_withSound _ _ _ sound ticks _ _ done
    obtain ⟨heard, counted, ticked⟩ :=
      tick_withSound after set ticks (due_iff_of_beat _ _ beat room otherRoom)
    have stepped := step_of_execute (machine.withSound sound ticks) generator proceeds instruction
      means _ _ executed
    refine ⟨heard, counted, ?_, ?_⟩
    · rw [stepped, ticked]
      rfl
    · have same : counted = (after.withSound set ticks).tick.ticks := by rw [ticked]; rfl
      rw [same, tick_beat after room, tick_beat (after.withSound set ticks) otherRoom]
      show (ticks.toNat + 1) % 6 = (after.ticks.toNat + 1) % 6
      omega

end Machine

namespace System

/-- Two systems are the same apart from the sound timer and the count of ticks, and the
remainders of these counts by six are the same. -/
structure Alike (system other : System) : Prop where
  memory : other.machine.memory = system.machine.memory
  v : other.machine.v = system.machine.v
  flags : other.machine.flags = system.machine.flags
  index : other.machine.index = system.machine.index
  pc : other.machine.pc = system.machine.pc
  sp : other.machine.sp = system.machine.sp
  delay : other.machine.delay = system.machine.delay
  keys : other.machine.keys = system.machine.keys
  programSize : other.machine.programSize = system.machine.programSize
  beat : other.machine.ticks.toNat % 6 = system.machine.ticks.toNat % 6
  generator : other.generator = system.generator

/-- Another sound timer and another count with the same remainder make a system alike. -/
theorem alike_withSound (system : System) (sound : UInt8) (ticks : UInt32)
    (beat : ticks.toNat % 6 = system.machine.ticks.toNat % 6) :
    system.Alike ⟨system.machine.withSound sound ticks, system.generator⟩ :=
  ⟨rfl, rfl, rfl, rfl, rfl, rfl, rfl, rfl, rfl, beat, rfl⟩

/-- There are no other systems that are alike. -/
theorem Alike.eq {system other : System} (alike : system.Alike other) :
    other = ⟨system.machine.withSound other.machine.sound other.machine.ticks,
      system.generator⟩ := by
  obtain ⟨memory, v, flags, index, pc, sp, delay, keys, programSize, _, generator⟩ := alike
  obtain ⟨machine, source⟩ := other
  obtain ⟨⟩ := machine
  simp only at memory v flags index pc sp delay keys programSize generator
  subst memory v flags index pc sp delay keys programSize generator
  rfl

/-- How many steps there are in a run. -/
def steps : List Turn → Nat
  | [] => 0
  | .step :: rest => steps rest + 1
  | .key _ _ :: rest => steps rest

/-- What comes of the steps of a run, one after the other. -/
def outcomes (system : System) : List Turn → List (Except Fault Outcome)
  | [] => []
  | .step :: rest => system.stepped.outcome :: system.next.outcomes rest
  | .key number down :: rest => (system.turn (.key number down)).outcomes rest

/-- A step adds at most one to the count of ticks. -/
theorem next_ticks_le (system : System) :
    system.next.machine.ticks.toNat ≤ system.machine.ticks.toNat + 1 := by
  cases kind : system.executes? with
  | none =>
    obtain ⟨pc, same⟩ := system.next_of_idle kind
    rw [same]
    exact Nat.le_succ _
  | some instruction =>
    obtain ⟨after, later, done, same⟩ := system.next_of_executes instruction kind
    have untouched : after.ticks = system.machine.ticks :=
      (Machine.execute_untimed _ _ _ _ _ done).ticks
    rw [same, ← untouched]
    exact after.tick_ticks_le

/-- Alike systems have the same outcome of a step, and are alike after it. -/
theorem Alike.next {system other : System} (alike : system.Alike other)
    (room : system.machine.ticks.toNat + 1 < Machine.tickCounts)
    (otherRoom : other.machine.ticks.toNat + 1 < Machine.tickCounts) :
    other.stepped.outcome = system.stepped.outcome ∧ system.next.Alike other.next := by
  obtain ⟨heard, counted, stepped, beat⟩ := system.machine.step_withSound system.generator
    other.machine.sound other.machine.ticks alike.beat room otherRoom
  have same : other.stepped = { system.stepped with
      machine := system.stepped.machine.withSound heard counted } := by
    rw [alike.eq]
    exact stepped
  rw [System.next, System.next, same]
  exact ⟨rfl, alike_withSound ⟨system.stepped.machine, system.stepped.generator⟩ heard counted beat⟩

/-- Moving a key in both keeps systems alike. -/
theorem Alike.key {system other : System} (alike : system.Alike other) (number : Nat)
    (down : Bool) :
    (system.turn (.key number down)).Alike (other.turn (.key number down)) := by
  rw [alike.eq]
  exact alike_withSound _ _ _ alike.beat

/-- The sound timer cannot be observed. Two systems that differ in nothing else than the
sound timer and the count of ticks, with the same remainders of these counts by six, tell
the same in every run with the same key changes, and differ in nothing else after it, as
long as there are too few steps for a count to wrap around.

The induction is on the turns; the bound makes room for one more step each time. -/
theorem sound_unobservable (system other : System) (turns : List Turn)
    (alike : system.Alike other)
    (room : system.machine.ticks.toNat + steps turns < Machine.tickCounts)
    (otherRoom : other.machine.ticks.toNat + steps turns < Machine.tickCounts) :
    other.outcomes turns = system.outcomes turns ∧
      (system.play turns).Alike (other.play turns) := by
  induction turns generalizing system other with
  | nil => exact ⟨rfl, alike⟩
  | cons turn rest inductionHypothesis =>
    cases turn with
    | step =>
      rw [steps] at room otherRoom
      obtain ⟨outcome, alikeNext⟩ := alike.next (by omega) (by omega)
      have bound := system.next_ticks_le
      have otherBound := other.next_ticks_le
      obtain ⟨told, played⟩ :=
        inductionHypothesis system.next other.next alikeNext (by omega) (by omega)
      rw [outcomes, outcomes, outcome, told]
      exact ⟨rfl, played⟩
    | key number down => exact inductionHypothesis _ _ (alike.key number down) room otherRoom

/-- With a sound timer above zero the count starts anew in that step, and with none it
goes on; a run tells the same of both. -/
theorem sound_unobservable_brief :
    (brief 1 5).next.machine.ticks = 0 ∧ (brief 0 11).next.machine.ticks = 12 ∧
      (brief 1 5).Alike (brief 0 11) ∧
      5 + steps [.step, .key 0 true, .step] < Machine.tickCounts ∧
      11 + steps [.step, .key 0 true, .step] < Machine.tickCounts ∧
      (brief 0 11).outcomes [.step, .key 0 true, .step] =
        (brief 1 5).outcomes [.step, .key 0 true, .step] ∧
      ((brief 1 5).play [.step, .key 0 true, .step]).Alike
        ((brief 0 11).play [.step, .key 0 true, .step]) := by
  have alike : (brief 1 5).Alike (brief 0 11) := alike_withSound (brief 1 5) 0 11 (by decide)
  have room : (brief 1 5).machine.ticks.toNat + steps [.step, .key 0 true, .step] <
    Machine.tickCounts := by decide
  have otherRoom : (brief 0 11).machine.ticks.toNat + steps [.step, .key 0 true, .step] <
    Machine.tickCounts := by decide
  refine ⟨?_, ?_, alike, by decide, by decide, sound_unobservable _ _ _ alike room otherRoom⟩
  · rw [System.next, brief_stepped]
    rfl
  · rw [System.next, brief_stepped, Machine.tick_of_zero _ rfl rfl]
    rfl

end System

end Chip8
