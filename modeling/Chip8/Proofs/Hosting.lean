import Chip8.Keys.Layout
import Chip8.Proofs.Runs
import Mathlib.Data.List.Induction

/-!
# What every host can rely on

A host starts from a new machine, loads programs, steps, moves keys, and may push,
pop, tick and reset on its own. In whatever order it does so, the stack stays within
its slots, and the program's length and the place of the screen are those of the
program loaded last. The screen is beside memory exactly when that program would
have reached the picture.
-/

namespace Chip8

/-- What a host does with a machine through its operations. -/
inductive Action where
  | load (program : List UInt8)
  | step (generator : Generator)
  | press (number : Nat) (down : Bool)
  | pressNamed (keymap : Keymap) (name : String) (down : Bool)
  | push (address : UInt16)
  | pop
  | tick
  | reset

/-- The program that an action loads. -/
def Action.program? : Action → Option (List UInt8)
  | load program => some program
  | _ => none

/-- The program that was loaded last. -/
def lastProgram? (actions : List Action) : Option (List UInt8) :=
  actions.reverse.findSome? Action.program?

/-- There is a program, and it would reach the picture. -/
def Oversized (program : Option (List UInt8)) : Prop :=
  ∃ loaded, program = some loaded ∧ programLimit ≤ loaded.length

/-- An action that loads nothing keeps the last program. -/
theorem lastProgram?_append (actions : List Action) (action : Action) :
    lastProgram? (actions ++ [action]) = action.program?.or (lastProgram? actions) := by
  rw [lastProgram?, List.reverse_append, List.reverse_singleton, List.singleton_append,
    List.findSome?_cons]
  cases action.program? with
  | none => rfl
  | some program => rfl

namespace Machine

/-- The machine after an action. A step may fail or find the program at its end, and
pushing and popping may fail, too. -/
def perform (machine : Machine) : Action → Machine
  | .load program => machine.load program
  | .step generator => (machine.step generator).machine
  | .press number down => machine.setKey number down
  | .pressNamed keymap name down => machine.setNamedKey keymap name down
  | .push address => (machine.push address).2
  | .pop => machine.pop.2
  | .tick => machine.tick
  | .reset => machine.reset

/-- A new machine after actions. -/
def hosted (actions : List Action) : Machine := actions.foldl perform initial

/-- The stack is within its slots, and the machine fits the program loaded last. -/
structure Fits (program : Option (List UInt8)) (machine : Machine) : Prop where
  depth : machine.sp ≤ stackSlots
  programSize : machine.programSize = program.map List.length
  place : machine.memory.isDetached = true ↔ Oversized program

/-- A new machine fits no program. -/
theorem fits_initial : Fits none initial where
  depth := Nat.zero_le _
  programSize := rfl
  place := by
    have mapped : initial.memory.isDetached = false :=
      Memory.isDetached_writeList _ fontStart font
    rw [mapped]
    constructor
    · nofun
    · rintro ⟨loaded, missing, _⟩
      cases missing

/-- What moves neither the program nor the screen fits what fitted before, as long as
the stack is within its slots. -/
theorem Fits.of_same {program : Option (List UInt8)} {machine after : Machine}
    (fits : Fits program machine) (depth : after.sp ≤ stackSlots)
    (programSize : after.programSize = machine.programSize)
    (place : after.memory.isDetached = machine.memory.isDetached) : Fits program after where
  depth := depth
  programSize := programSize.trans fits.programSize
  place := by
    rw [place]
    exact fits.place

/-- A step keeps the stack within its slots: only a call makes it deeper, and it looks
for a free slot first. -/
theorem depth_step (machine : Machine) (generator : Generator)
    (depth : machine.sp ≤ stackSlots) : (machine.step generator).machine.sp ≤ stackSlots := by
  have way := machine.step_cases generator
  generalize machine.step generator = stepped at way
  cases way with
  | executed proceeds instruction means after later done =>
    have same : after.tick.sp = after.sp := by rw [tick_eq]
    rw [same]
    cases moves : instruction.movesStack with
    | false =>
      have untimed := execute_untimed _ _ _ _ _ done
      rw [untimed.depth moves]
      exact depth
    | true =>
      cases instruction with
      | call target =>
        obtain ⟨free, _, rfl⟩ := execute_call_ok _ _ _ _ _ done
        exact free
      | ret =>
        obtain ⟨below, level, _, rfl⟩ := execute_ret_ok _ _ _ _ done
        have inUse : machine.sp = below + 1 := level
        show below ≤ stackSlots
        omega
      | _ => cases moves
  | _ => exact depth

/-- A step fits what fitted before it, whatever comes of it. -/
theorem fits_step {program : Option (List UInt8)} {machine : Machine} (generator : Generator)
    (fits : Fits program machine) : Fits program (machine.step generator).machine := by
  have depth := depth_step machine generator fits.depth
  let system : System := ⟨machine, generator⟩
  cases executes : system.executes? with
  | none =>
    obtain ⟨pc, same⟩ := system.next_of_idle executes
    have unchanged : (machine.step generator).machine = { machine with pc := pc } :=
      congrArg System.machine same
    rw [unchanged]
    exact fits.of_same fits.depth rfl rfl
  | some instruction =>
    have confined := system.next_confined instruction executes
    exact fits.of_same depth confined.programSize confined.place

/-- Pushing fits what fitted before, also on a full stack. -/
theorem fits_push {program : Option (List UInt8)} {machine : Machine} (address : UInt16)
    (fits : Fits program machine) : Fits program (machine.perform (.push address)) := by
  by_cases full : stackSlots ≤ machine.sp
  · simpa only [perform, machine.push_of_full address full] using fits
  · have free : machine.sp < stackSlots := Nat.lt_of_not_le full
    simp only [perform, machine.push_of_free address free]
    exact fits.of_same free rfl (Memory.isDetached_writeList _ _ _)

/-- Popping fits what fitted before, also on an empty stack. -/
theorem fits_pop {program : Option (List UInt8)} {machine : Machine}
    (fits : Fits program machine) : Fits program (machine.perform .pop) := by
  cases depth : machine.sp with
  | zero => simpa only [perform, machine.pop_of_empty depth] using fits
  | succ below =>
    have bound : below + 1 ≤ stackSlots := depth ▸ fits.depth
    simp only [perform, machine.pop_of_depth below depth]
    exact fits.of_same (Nat.le_of_succ_le bound) rfl rfl

/-- Resetting does not move the screen. -/
theorem isDetached_reset (machine : Machine) :
    machine.reset.memory.isDetached = machine.memory.isDetached := by
  rw [reset, Memory.clearStack, Memory.isDetached_writeList]
  exact (Memory.painted_clearScreen machine.memory).place

/-- Resetting takes the return addresses away and leaves the program and the screen. -/
theorem fits_reset {program : Option (List UInt8)} {machine : Machine}
    (fits : Fits program machine) : Fits program machine.reset := by
  have programSize : machine.reset.programSize = machine.programSize := by simp only [reset]
  exact fits.of_same (Nat.zero_le _) programSize machine.isDetached_reset

/-- A program is put beside a detached screen exactly when it would reach the picture. -/
theorem isDetached_place (memory : Memory) (program : List UInt8) :
    (place memory program).isDetached = true ↔ Oversized (some program) := by
  have oversized : Oversized (some program) ↔ programLimit ≤ program.length := by
    simp [Oversized]
  rw [oversized, place]
  by_cases reaches : programLimit ≤ program.length
  · rw [if_pos reaches]
    exact iff_of_true rfl reaches
  · rw [if_neg reaches, Memory.loadProgram, Memory.isDetached_writeList,
      Memory.isDetached_attachScreen]
    exact iff_of_false Bool.false_ne_true reaches

/-- Loading makes any machine fit the new program, with or without a reset before. -/
theorem fits_load {program : Option (List UInt8)} {machine : Machine} (loaded : List UInt8)
    (fits : Fits program machine) : Fits (some loaded) (machine.load loaded) where
  depth := by
    cases first : machine.programSize.isNone with
    | true =>
      simp only [load, first, if_true]
      exact fits.depth
    | false =>
      simp only [load, first, Bool.false_eq_true, if_false]
      exact (fits_reset fits).depth
  programSize := rfl
  place := isDetached_place _ loaded

/-- Every action fits the program it loads, or the one before if it loads none. -/
theorem fits_perform {program : Option (List UInt8)} {machine : Machine} (action : Action)
    (fits : Fits program machine) :
    Fits (action.program?.or program) (machine.perform action) := by
  cases action with
  | load loaded => exact fits_load loaded fits
  | step generator => exact fits_step generator fits
  | press number down => exact fits.of_same fits.depth rfl rfl
  | pressNamed keymap name down =>
    simp only [perform, setNamedKey]
    cases keymap.resolve name with
    | none => exact fits
    | some key => exact fits.of_same fits.depth rfl rfl
  | push address => exact fits_push address fits
  | pop => exact fits_pop fits
  | tick =>
    rw [perform, tick_eq]
    exact fits.of_same fits.depth rfl rfl
  | reset => exact fits_reset fits

/-- Whatever a host does, its machine fits the program loaded last.

The actions are taken from their end, since the last of them decides whether the
program is a new one. -/
theorem fits_hosted (actions : List Action) : Fits (lastProgram? actions) (hosted actions) := by
  induction actions using List.reverseRecOn with
  | nil => exact fits_initial
  | append_singleton actions action inductionHypothesis =>
    rw [lastProgram?_append, hosted, List.foldl_append]
    exact fits_perform action inductionHypothesis

/-- Whatever a host does with a new machine and in whatever order: the stack is within
its slots, memory keeps its size, the program's length and bounds are those of the
program loaded last, and the picture is a buffer of its own if that program reaches
the picture's place, and else the end of memory. -/
theorem hosted_consistent (actions : List Action) :
    let program := lastProgram? actions
    let machine := hosted actions
    machine.sp ≤ stackSlots ∧
    machine.memory.bytes.toArray.size = memorySize ∧
    machine.programSize = program.map List.length ∧
    machine.programBounds =
      program.map (fun loaded => (programStart, programStart + loaded.length)) ∧
    ((Oversized program ∧ machine.memory.isDetached = true ∧
        machine.frame.size = detachedSize) ∨
      (¬ Oversized program ∧ machine.memory.isDetached = false ∧
        machine.frame.size = screenSize ∧
        ∀ index : Fin screenSize, machine.frame[index.val]? =
          some (machine.memory.read (screenStart + index.val)))) := by
  intro program machine
  have fits : Fits program machine := fits_hosted actions
  refine ⟨fits.depth, Vector.size_toArray _, fits.programSize, ?_, ?_⟩
  · rw [programBounds, fits.programSize, Option.map_map]
    rfl
  · cases place : machine.memory.isDetached with
    | true =>
      exact .inl ⟨fits.place.mp place, rfl, Memory.frame_size_detached _ place⟩
    | false =>
      have fitting : ¬ Oversized program := fun oversized =>
        absurd (place.symm.trans (fits.place.mpr oversized)) nofun
      exact .inr ⟨fitting, rfl, Memory.frame_size_mapped _ place,
        fun index => Memory.getElem?_frame_mapped _ place index.val index.isLt⟩

end Machine

end Chip8
