import Chip8.Proofs.Cadence

/-!
# Waiting for a key

The instruction that waits for a key has no state of its own. Without a key it sets the
program counter back to itself, so it is executed anew with every step, and all that goes
on meanwhile is the tick that follows every executed instruction. The host may press and
release keys as it likes: what counts is whether a key is down when a step is taken. The
run lemma therefore takes a run apart into its key changes and its ticks, which have
nothing to do with each other. The first step that finds a key, whichever it is and
however many there are, sets the register and goes on.
-/

namespace Chip8

namespace Machine

/-- Some key is down exactly where the instruction finds one. -/
theorem any_keys_iff (machine : Machine) :
    machine.keys.any id = true ↔ ∃ key, machine.isKeyDown key = true := by
  rw [Vector.any_eq_true]
  constructor
  · rintro ⟨key, inside, down⟩
    refine ⟨key, ?_⟩
    rw [isKeyDown, Vector.getElem?_eq_getElem inside]
    exact down
  · rintro ⟨key, down⟩
    by_cases inside : key < 16
    · rw [isKeyDown, Vector.getElem?_eq_getElem inside] at down
      exact ⟨key, inside, down⟩
    · rw [isKeyDown, Vector.getElem?_eq_none (Nat.le_of_not_lt inside)] at down
      cases down

/-- Where no key is down the instruction finds none. -/
theorem any_keys_of_quiet (machine : Machine) (quiet : ∀ key, machine.isKeyDown key = false) :
    machine.keys.any id = false := by
  rw [← Bool.not_eq_true, any_keys_iff]
  rintro ⟨key, down⟩
  exact Bool.false_ne_true ((quiet key).symm.trans down)

/-! ## Ticks and keys -/

/-- One more tick may be the first one. -/
theorem repeat_tick_succ (machine : Machine) (count : Nat) :
    Nat.repeat tick (count + 1) machine = Nat.repeat tick count machine.tick := by
  induction count with
  | zero => rfl
  | succ count inductionHypothesis => exact congrArg tick inductionHypothesis

/-- Any number of ticks moves the timers and the count of ticks alone, also where the count
wraps around. -/
theorem repeat_tick_others (machine : Machine) (count : Nat) :
    Nat.repeat tick count machine = { machine with
      delay := (Nat.repeat tick count machine).delay
      sound := (Nat.repeat tick count machine).sound
      ticks := (Nat.repeat tick count machine).ticks } := by
  induction count with
  | zero => rfl
  | succ count inductionHypothesis =>
    have last : Nat.repeat tick (count + 1) machine = (Nat.repeat tick count machine).tick := rfl
    rw [last, tick_eq, inductionHypothesis]

/-- Moving a key and counting a tick do not see each other. -/
theorem tick_setKey (machine : Machine) (key : Nat) (down : Bool) :
    (machine.setKey key down).tick = machine.tick.setKey key down := by
  have counted : (machine.setKey key down).ticks = machine.ticks := rfl
  simp only [tick, counted]
  by_cases between : (machine.ticks + 1) % 6 ≠ 0
  · simp only [if_pos between]
    rfl
  · simp only [if_neg between]
    rfl

/-! ## One step -/

/-- The next opcode of the program waits for a key. -/
def AwaitsKey (machine : Machine) (x : Register) : Prop :=
  machine.InProgram ∧ machine.opcode = (Instruction.awaitKey x).encode

/-- What waits for a key still does after a tick. -/
theorem AwaitsKey.tick {machine : Machine} {x : Register} (awaits : machine.AwaitsKey x) :
    machine.tick.AwaitsKey x := by
  rw [tick_eq]
  exact awaits

/-- Without a key a step is a tick. -/
theorem step_of_quiet (machine : Machine) (generator : Generator) (x : Register)
    (awaits : machine.AwaitsKey x) (quiet : ∀ key, machine.isKeyDown key = false) :
    machine.step generator = ⟨.ok (.executed machine.opcode), machine.tick, generator⟩ := by
  obtain ⟨inside, stands⟩ := awaits
  have done := System.execute_awaitKey machine generator x (machine.any_keys_of_quiet quiet)
  rw [stands]
  exact machine.step_of_instruction generator _ inside stands (show 0xF ≠ 0x1 by decide) _ _ done

/-- With a key a step sets the register and goes on, and is counted. -/
theorem step_of_pressed (machine : Machine) (generator : Generator) (x : Register)
    (awaits : machine.AwaitsKey x) (pressed : ∃ key, machine.isKeyDown key = true) :
    machine.step generator =
      ⟨.ok (.executed machine.opcode), (machine.fetched.setRegister x 1).tick, generator⟩ := by
  obtain ⟨inside, stands⟩ := awaits
  have done := System.execute_awaitKey_found machine generator x (machine.any_keys_iff.mpr pressed)
  rw [stands]
  exact machine.step_of_instruction generator _ inside stands (show 0xF ≠ 0x1 by decide) _ _ done

end Machine

/-! ## Runs -/

/-- The turn is a step. -/
def Turn.isStep : Turn → Bool
  | .step => true
  | .key _ _ => false

/-- What the host does in a run. -/
def keyChanges (turns : List Turn) : List Turn := turns.filter fun turn => !turn.isStep

namespace System

/-- No key is down. -/
def Quiet (system : System) : Prop := ∀ key, system.machine.isKeyDown key = false

/-- A run without steps ticks before it as well as after it. -/
theorem play_keyChanges_tick (system : System) (turns : List Turn) :
    (System.mk system.machine.tick system.generator).play (keyChanges turns) =
      ⟨(system.play (keyChanges turns)).machine.tick, system.generator⟩ := by
  induction turns generalizing system with
  | nil => rfl
  | cons turn rest inductionHypothesis =>
    cases turn with
    | step => exact inductionHypothesis system
    | key number down =>
      have moved := inductionHypothesis (system.turn (.key number down))
      simp only [turn, Machine.tick_setKey] at moved
      exact moved

/-- Without a key a step of a system is a tick, and it goes on waiting. -/
theorem next_of_quiet (system : System) (x : Register) (awaits : system.machine.AwaitsKey x)
    (quiet : system.Quiet) :
    system.stepped.outcome = .ok (.executed system.machine.opcode) ∧
      system.next = ⟨system.machine.tick, system.generator⟩ := by
  rw [next, stepped, system.machine.step_of_quiet system.generator x awaits quiet]
  exact ⟨rfl, rfl⟩

/-- With a key a step of a system sets the register, and it goes on. -/
theorem next_of_pressed (system : System) (x : Register) (awaits : system.machine.AwaitsKey x)
    (pressed : ∃ key, system.machine.isKeyDown key = true) :
    system.stepped.outcome = .ok (.executed system.machine.opcode) ∧
      system.next = ⟨(system.machine.fetched.setRegister x 1).tick, system.generator⟩ := by
  rw [next, stepped, system.machine.step_of_pressed system.generator x awaits pressed]
  exact ⟨rfl, rfl⟩

/-- Steps alone press no key. -/
theorem quiet_throughout (system : System) (x : Register) (awaits : system.machine.AwaitsKey x)
    (quiet : system.Quiet) (count : Nat) : system.Throughout Quiet (.replicate count .step) := by
  induction count generalizing system with
  | zero => trivial
  | succ count inductionHypothesis =>
    refine ⟨fun _ => quiet, ?_⟩
    have ticked : (System.mk system.machine.tick system.generator).Quiet := by
      rw [Machine.tick_eq]
      exact quiet
    rw [turn, (system.next_of_quiet x awaits quiet).2]
    exact inductionHypothesis _ awaits.tick ticked

/-- A run that never finds a key does what its key changes and its ticks do, and stays where
it was in the program. -/
theorem play_of_quiet (system : System) (x : Register) (awaits : system.machine.AwaitsKey x)
    (turns : List Turn) (quiet : system.Throughout Quiet turns) :
    system.play turns = ⟨Nat.repeat Machine.tick (turns.countP Turn.isStep)
        (system.play (keyChanges turns)).machine, system.generator⟩ ∧
      (system.play turns).machine.AwaitsKey x ∧
      (system.play turns).machine.opcode = system.machine.opcode ∧
      (system.play turns).machine.pc = system.machine.pc := by
  -- A step is a tick of the machine that the rest of the run starts with. The key changes of
  -- that rest are then made before the tick.
  induction turns generalizing system with
  | nil => exact ⟨rfl, awaits, rfl, rfl⟩
  | cons turn rest inductionHypothesis =>
    cases turn with
    | step =>
      have ticked := (system.next_of_quiet x awaits (quiet.1 rfl)).2
      have quietRest := quiet.2
      have steps : (Turn.step :: rest).countP Turn.isStep = rest.countP Turn.isStep + 1 :=
        List.countP_cons_of_pos rfl
      have changes : keyChanges (.step :: rest) = keyChanges rest := rfl
      simp only [System.turn, ticked] at quietRest
      obtain ⟨played, still, opcode, pc⟩ := inductionHypothesis _ awaits.tick quietRest
      rw [play, System.turn, ticked, changes, steps, Machine.repeat_tick_succ]
      refine ⟨?_, still, ?_, pc.trans (Machine.tick_pc _)⟩
      · rw [played, play_keyChanges_tick]
      · rw [opcode, Machine.tick_eq]
        rfl
    | key number down => exact inductionHypothesis (system.turn (.key number down)) awaits quiet.2

/-- A run that never finds a key leaves a machine whose next step executes the waiting
instruction, whether or not there is a key by then. -/
theorem outcome_of_quiet (system : System) (x : Register) (awaits : system.machine.AwaitsKey x)
    (turns : List Turn) (quiet : system.Throughout Quiet turns) :
    (system.play turns).stepped.outcome = .ok (.executed system.machine.opcode) := by
  obtain ⟨_, still, opcode, _⟩ := system.play_of_quiet x awaits turns quiet
  rw [← opcode]
  by_cases pressed : ∃ key, (system.play turns).machine.isKeyDown key = true
  · exact ((system.play turns).next_of_pressed x still pressed).1
  · have none : (system.play turns).Quiet :=
      fun key => Bool.eq_false_iff.mpr fun down => pressed ⟨key, down⟩
    exact ((system.play turns).next_of_quiet x still none).1

/-- Waiting for a key is a stutter. While no key is down every step executes the waiting
instruction and is a tick, so any number of steps leaves the machine as so many ticks alone
would, and these move the timers and the count of ticks, nothing else. Keys that the host
presses and releases between two steps change only the keys. The first step that finds keys
down, whichever and however many, executes the instruction once more: the register becomes
one, the program counter moves past the instruction, and a tick is counted. -/
theorem waiting_stutters (system : System) (x : Register) (inside : system.machine.InProgram)
    (stands : system.machine.opcode = (Instruction.awaitKey x).encode) :
    (∀ count, (∀ key, system.machine.isKeyDown key = false) →
      let waited := system.play (.replicate count .step)
      let ticked := Nat.repeat Machine.tick count system.machine
      waited = ⟨ticked, system.generator⟩ ∧
      waited.stepped.outcome = .ok (.executed system.machine.opcode) ∧
      ticked = { system.machine with
        delay := ticked.delay, sound := ticked.sound, ticks := ticked.ticks }) ∧
    (∀ turns,
      system.Throughout (fun running => ∀ key, running.machine.isKeyDown key = false) turns →
      let waited := system.play turns
      let ticked := Nat.repeat Machine.tick (turns.countP Turn.isStep)
        (system.play (keyChanges turns)).machine
      waited = ⟨ticked, system.generator⟩ ∧
      waited.stepped.outcome = .ok (.executed system.machine.opcode) ∧
      ((∃ key, waited.machine.isKeyDown key = true) →
        waited.next =
          ⟨({ ticked with pc := system.machine.pc + 2 }.setRegister x 1).tick,
            system.generator⟩)) := by
  have awaits : system.machine.AwaitsKey x := ⟨inside, stands⟩
  constructor
  · intro count none waited ticked
    have quiet := system.quiet_throughout x awaits none count
    have steps : (List.replicate count Turn.step).countP Turn.isStep = count := by
      rw [List.countP_replicate]
      rfl
    have changes : keyChanges (.replicate count .step) = [] :=
      List.filter_replicate_of_neg Bool.false_ne_true
    have played := (system.play_of_quiet x awaits _ quiet).1
    rw [steps, changes] at played
    exact ⟨played, system.outcome_of_quiet x awaits _ quiet,
      system.machine.repeat_tick_others count⟩
  · intro turns quiet waited ticked
    obtain ⟨played, still, _, pc⟩ := system.play_of_quiet x awaits turns quiet
    refine ⟨played, system.outcome_of_quiet x awaits turns quiet, fun pressed => ?_⟩
    have found := (waited.next_of_pressed x still pressed).2
    have machine : waited.machine = ticked := congrArg System.machine played
    have generator : waited.generator = system.generator := by simp only [waited, played]
    rw [Machine.fetched, pc, machine, generator] at found
    exact found

/-- A key is tapped between two steps, and after the next step two keys are pressed. -/
def tapping : List Turn :=
  [.key 3 true, .key 3 false, .step, .key 7 true, .key 12 true]

/-- The machine waits as long as it takes, also when the count of ticks has wrapped around,
and goes on with two keys as with one. -/
theorem waiting_stutters_tapping :
    waiting.machine.InProgram ∧
      waiting.machine.opcode = (Instruction.awaitKey 0).encode ∧
      (waiting.play (.replicate 5000000000 .step)).machine.pc = 0x200 ∧
      (waiting.play tapping).next.machine.v.get 0 = 1 ∧
      (waiting.play tapping).next.machine.pc = 0x202 := by
  have inside : waiting.machine.InProgram := inProgram_waiting _ rfl (.inl rfl)
  have stands : waiting.machine.opcode = (Instruction.awaitKey 0).encode :=
    word_waiting.1.trans (by decide)
  have unpressed (machine : Machine) (keys : machine.keys = .replicate 16 false) (key : Nat) :
      machine.isKeyDown key = false := by
    rw [Machine.isKeyDown, keys, Vector.getElem?_replicate]
    split <;> rfl
  have released : ((waiting.machine.setKey 3 true).setKey 3 false).keys = .replicate 16 false := by
    have start : waiting.machine.keys = .replicate 16 false := rfl
    simp only [Machine.setKey, start]
    decide
  have quiet : waiting.Throughout Quiet tapping :=
    ⟨nofun, nofun, fun _ => unpressed _ released, nofun, nofun, trivial⟩
  obtain ⟨waits, ends⟩ := waiting_stutters waiting 0 inside stands
  obtain ⟨waited, _, others⟩ := waits 5000000000 (unpressed _ rfl)
  obtain ⟨tapped, _, goesOn⟩ := ends tapping quiet
  have last (machine : Machine) : (machine.setKey 12 true).isKeyDown 12 = true := by
    rw [Machine.isKeyDown, Machine.setKey, Vector.getElem?_setIfInBounds_self_of_lt (by decide)]
    rfl
  have pressed : (waiting.play tapping).machine.isKeyDown 12 = true := last _
  have next := goesOn ⟨12, pressed⟩
  refine ⟨inside, stands, ?_, ?_, ?_⟩
  · rw [waited, others]
    rfl
  · rw [next, Machine.tick_v, Machine.setRegister_same]
  · rw [next, Machine.tick_pc]
    rfl

end System

end Chip8
