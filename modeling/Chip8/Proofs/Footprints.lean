import Chip8.Proofs.Endings
import Chip8.Proofs.Storage

/-!
# What an instruction may change

Every instruction has a footprint: the bytes, registers and flag registers it may
change, and whether it moves the index register, the stack pointer or a timer,
paints the picture or draws a random byte. `execute_untimed` says that nothing
outside the footprint changes. Bytes are addressed by natural numbers, so no
footprint wraps around to the start of memory.
-/

namespace Chip8

/-- The operation sets the flag register beside its result. -/
def Operation.setsFlag : Operation → Bool
  | .copy | .or | .and | .xor => false
  | .add | .subtract | .shiftRight | .subtractFrom | .shiftLeft => true

namespace Instruction

/-- The instruction stores something at an address, given the index register. -/
def stores (index address : Nat) : Instruction → Bool
  | .storeDigits _ => index ≤ address && address ≤ index + 2
  | .storeRegisters x => index ≤ address && address ≤ index + x.val
  | _ => false

/-- The instruction may change the picture. -/
def paints : Instruction → Bool
  | .clearScreen | .draw _ _ _ => true
  | _ => false

/-- The instruction may change the byte at an address. Calls write the first free
stack slot, and painting reaches memory only while the screen is mapped. -/
def writes (machine : Machine) (address : Nat) : Instruction → Bool
  | .call _ => address == Memory.slotAddress machine.sp ||
      address == Memory.slotAddress machine.sp + 1
  | .clearScreen | .draw _ _ _ => !machine.memory.isDetached && screenStart ≤ address
  | instruction => instruction.stores machine.index.toNat address

/-- The instruction may change a register. -/
def sets (r : Register) : Instruction → Bool
  | .setByte x _ | .addByte x _ | .random x _ | .readDelay x | .awaitKey x => r == x
  | .arithmetic operation x _ => r == x || (operation.setsFlag && r == flagRegister)
  | .draw _ _ _ => r == flagRegister
  | .loadRegisters x | .restoreFlags x => r ≤ x
  | _ => false

/-- The instruction may change a flag register. -/
def saves (r : Register) : Instruction → Bool
  | .saveFlags x => r ≤ x
  | _ => false

/-- The instruction may change the index register. -/
def setsIndex : Instruction → Bool
  | .setIndex _ | .addToIndex _ | .pointAtGlyph _ | .storeRegisters _ | .loadRegisters _ => true
  | _ => false

/-- The instruction may change the stack pointer. -/
def movesStack : Instruction → Bool
  | .call _ | .ret => true
  | _ => false

/-- The instruction sets the delay timer. -/
def setsDelay : Instruction → Bool
  | .setDelay _ => true
  | _ => false

/-- The instruction sets the sound timer. -/
def setsSound : Instruction → Bool
  | .setSound _ => true
  | _ => false

/-- The instruction draws a random byte. -/
def drawsByte : Instruction → Bool
  | .random _ _ => true
  | _ => false

/-- Painting does not reach a byte before the picture's place. -/
theorem unpainted_before_picture (machine : Machine) (address : Nat)
    (before : address < screenStart) :
    (!machine.memory.isDetached && decide (screenStart ≤ address)) = false := by
  rw [decide_eq_false (Nat.not_le_of_lt before), Bool.and_false]

/-- Below the first free stack slot and the picture only stores write: the slots in
use are out of reach of a call, and so are all bytes before the stack. -/
theorem writes_eq_stores (machine : Machine) (address : Nat) (instruction : Instruction)
    (unfree : address < Memory.slotAddress machine.sp) (unpainted : address < screenStart) :
    instruction.writes machine address = instruction.stores machine.index.toNat address := by
  have dark := unpainted_before_picture machine address unpainted
  cases instruction with
  | call target =>
    have first : (address == Memory.slotAddress machine.sp) = false :=
      beq_eq_false_iff_ne.mpr (by omega)
    have second : (address == Memory.slotAddress machine.sp + 1) = false :=
      beq_eq_false_iff_ne.mpr (by omega)
    exact Bool.or_eq_false_iff.mpr ⟨first, second⟩
  | clearScreen => exact dark
  | draw x y rows => exact dark
  | _ => rfl

/-- Everything outside an instruction's footprint is after it as it was before.
The program counter and the timers are left out. -/
structure Confined (instruction : Instruction) (before after : Machine) : Prop where
  byte : ∀ address, instruction.writes before address = false →
    after.memory.read address = before.memory.read address := by intros; rfl
  picture : instruction.paints = false → after.memory.screen = before.memory.screen := by
    intros; rfl
  place : after.memory.isDetached = before.memory.isDetached := by rfl
  register : ∀ r : Register, instruction.sets r = false → after.v.get r = before.v.get r := by
    intros; rfl
  flag : ∀ r : Register, instruction.saves r = false → after.flags.get r = before.flags.get r := by
    intros; rfl
  index : instruction.setsIndex = false → after.index = before.index := by intros; rfl
  depth : instruction.movesStack = false → after.sp = before.sp := by intros; rfl
  keys : after.keys = before.keys := by rfl
  programSize : after.programSize = before.programSize := by rfl

/-- Until its tick an executed instruction leaves the timers alone, too, unless it
sets them. -/
structure Untimed (instruction : Instruction) (before after : Machine) : Prop
    extends Confined instruction before after where
  delay : instruction.setsDelay = false → after.delay = before.delay := by intros; rfl
  sound : instruction.setsSound = false → after.sound = before.sound := by intros; rfl
  ticks : after.ticks = before.ticks := by rfl

end Instruction

namespace Machine

/-- Every sixth tick counts the delay timer down. -/
theorem tick_delay (machine : Machine) :
    machine.tick.delay =
      if (machine.ticks + 1) % 6 ≠ 0 then machine.delay else countDown machine.delay := by
  simp only [tick]
  by_cases between : (machine.ticks + 1) % 6 ≠ 0
  · simp only [if_pos between]
  · simp only [if_neg between]

/-- Every sixth tick counts the sound timer down. -/
theorem tick_sound (machine : Machine) :
    machine.tick.sound =
      if (machine.ticks + 1) % 6 ≠ 0 then machine.sound else countDown machine.sound := by
  simp only [tick]
  by_cases between : (machine.ticks + 1) % 6 ≠ 0
  · simp only [if_pos between]
  · simp only [if_neg between]

/-- Between two of these a tick is only counted. -/
theorem tick_between (machine : Machine) (between : (machine.ticks + 1) % 6 ≠ 0) :
    machine.tick = { machine with ticks := machine.ticks + 1 } := by
  simp only [tick, if_pos between]

/-- A tick touches the timers and the count of ticks. -/
theorem tick_eq (machine : Machine) :
    machine.tick = { machine with
      delay := machine.tick.delay, sound := machine.tick.sound, ticks := machine.tick.ticks } := by
  simp only [tick]
  by_cases between : (machine.ticks + 1) % 6 ≠ 0
  · simp only [if_pos between]
  · simp only [if_neg between]

/-- A tick moves no register. -/
@[simp]
theorem tick_v (machine : Machine) : machine.tick.v = machine.v := by rw [tick_eq]

/-- A tick leaves the flag registers alone. -/
@[simp]
theorem tick_flags (machine : Machine) : machine.tick.flags = machine.flags := by rw [tick_eq]

/-- A tick does not move the index register. -/
@[simp]
theorem tick_index (machine : Machine) : machine.tick.index = machine.index := by rw [tick_eq]

/-- A tick leaves memory alone. -/
@[simp]
theorem tick_memory (machine : Machine) : machine.tick.memory = machine.memory := by rw [tick_eq]

/-- A tick stays where it is in the program. -/
@[simp]
theorem tick_pc (machine : Machine) : machine.tick.pc = machine.pc := by rw [tick_eq]

/-- A tick loads no program. -/
@[simp]
theorem tick_programSize (machine : Machine) :
    machine.tick.programSize = machine.programSize := by rw [tick_eq]

/-- The tick that follows an instruction stays out of what it is confined to. -/
theorem confined_tick {instruction : Instruction}
    {before after : Machine} (confined : instruction.Confined before after) :
    instruction.Confined before after.tick := by
  rw [tick_eq]
  exact { confined with }

/-- A register holds what it was set to. -/
theorem setRegister_same (machine : Machine) (x : Register) (value : UInt8) :
    (machine.setRegister x value).v.get x = value :=
  Vector.getElem_set_self x.isLt

/-- Setting a register leaves the others alone. -/
theorem setRegister_other (machine : Machine) (x r : Register) (value : UInt8) (other : r ≠ x) :
    (machine.setRegister x value).v.get r = machine.v.get r := by
  have apart : x.val ≠ r.val := fun same => other (Fin.ext same.symm)
  exact Vector.getElem_set_ne x.isLt r.isLt apart

/-- Replacing registers leaves those behind the last one alone. -/
theorem replaceThrough_behind (registers : Registers) (x r : Register)
    (source : Register → UInt8) (behind : ¬ r ≤ x) :
    (replaceThrough registers x source).get r = registers.get r := by
  have chosen : (replaceThrough registers x source).get r =
      if r ≤ x then source r else registers.get r := Vector.getElem_ofFn r.isLt
  rw [chosen, if_neg behind]

/-- The registers up to the last one are replaced. -/
theorem replaceThrough_within (registers : Registers) (x r : Register)
    (source : Register → UInt8) (within : r ≤ x) :
    (replaceThrough registers x source).get r = source r := by
  have chosen : (replaceThrough registers x source).get r =
      if r ≤ x then source r else registers.get r := Vector.getElem_ofFn r.isLt
  rw [chosen, if_pos within]

/-- There are as many registers up to one of them as its number says. -/
theorem length_registersThrough (registers : Registers) (x : Register) :
    (registersThrough registers x).length = x.val + 1 := by
  rw [registersThrough, List.length_take, Vector.length_toList]
  omega

/-- An instruction that only sets a register is confined to it. -/
theorem untimed_setRegister (machine : Machine) (instruction : Instruction) (x : Register)
    (value : UInt8) (only : ∀ r, instruction.sets r = (r == x)) :
    instruction.Untimed machine (machine.setRegister x value) where
  register r outside :=
    setRegister_other machine x r value (beq_eq_false_iff_ne.mp ((only r).symm.trans outside))

/-- An instruction that replaces registers is confined to those up to the last one
and to the index register, where it moves it. -/
theorem untimed_replaced (machine : Machine) (instruction : Instruction) (x : Register)
    (source : Register → UInt8) (index : UInt16)
    (only : ∀ r, instruction.sets r = decide (r ≤ x))
    (moves : instruction.setsIndex = false → index = machine.index) :
    instruction.Untimed machine
      { machine with v := replaceThrough machine.v x source, index := index } := by
  have behind (r : Register) (outside : instruction.sets r = false) :
      (replaceThrough machine.v x source).get r = machine.v.get r :=
    replaceThrough_behind machine.v x r source
      (of_decide_eq_false ((only r).symm.trans outside))
  generalize replaceThrough machine.v x source = replaced at behind
  exact { register := behind, index := moves }

/-- Arithmetic changes its first operand and, if it sets the flag, the flag
register. -/
theorem untimed_arithmetic (machine : Machine) (operation : Operation) (x y : Register) :
    (Instruction.arithmetic operation x y).Untimed machine
      (machine.arithmetic operation x y) := by
  cases operation with
  | copy | or | and | xor =>
    exact untimed_setRegister machine _ x _ fun r => Bool.or_false _
  | add | subtract | shiftRight | subtractFrom | shiftLeft =>
    refine { register := fun r outside => ?_ }
    have apart : r ≠ x ∧ r ≠ flagRegister := by
      simpa [Instruction.sets, Operation.setsFlag] using outside
    exact (setRegister_other _ _ r _ apart.2).trans (setRegister_other machine x r _ apart.1)

/-- An instruction that paints is confined to the picture, wherever that is, and
to the flag register. -/
theorem untimed_painted (machine : Machine) (instruction : Instruction) (memory : Memory)
    (v : Registers) (painted : Memory.Painted machine.memory memory)
    (paints : instruction.paints = true)
    (reaches : ∀ address, instruction.writes machine address =
      (!machine.memory.isDetached && decide (screenStart ≤ address)))
    (registers : ∀ r : Register, instruction.sets r = false → v.get r = machine.v.get r) :
    instruction.Untimed machine { machine with memory := memory, v := v } where
  byte address outside := by
    apply painted.read
    rw [reaches] at outside
    cases place : machine.memory.isDetached with
    | true => exact .inl rfl
    | false => exact .inr (by simpa [place] using outside)
  picture unpainted := absurd (paints.symm.trans unpainted) nofun
  place := painted.place
  register := registers

/-- An instruction that stores bytes one after the other is confined to their
addresses. -/
theorem untimed_stored (machine : Machine) (instruction : Instruction) (values : List UInt8)
    (index : UInt16)
    (reaches : ∀ address, instruction.writes machine address = false →
      address < machine.index.toNat ∨ machine.index.toNat + values.length ≤ address)
    (moves : instruction.setsIndex = false → index = machine.index) :
    instruction.Untimed machine { machine with
      memory := machine.memory.writeList machine.index.toNat values, index := index } where
  byte address outside := Memory.read_writeList_outside _ _ _ _ (reaches address outside)
  picture _ := Memory.screen_writeList _ _ _
  place := Memory.isDetached_writeList _ _ _
  index := moves

/-- Calling is confined to the first free slot of the stack. -/
theorem untimed_call (machine : Machine) (target : Address) :
    (Instruction.call target).Untimed machine { machine with
      memory := machine.memory.setSlot machine.sp machine.pc
      sp := machine.sp + 1
      pc := .ofNat target.val } where
  byte address outside := by
    have apart := Bool.or_eq_false_iff.mp outside
    exact Memory.read_setSlot_outside _ _ _ _ (beq_eq_false_iff_ne.mp apart.1)
      (beq_eq_false_iff_ne.mp apart.2)
  picture _ := Memory.screen_writeList _ _ _
  place := Memory.isDetached_writeList _ _ _
  depth := nofun

/-- No instruction changes anything outside its footprint. -/
theorem execute_untimed (machine : Machine) (generator : Generator)
    (instruction : Instruction) (after : Machine) (later : Generator)
    (done : machine.execute generator instruction = (.ok (), after, later)) :
    instruction.Untimed machine after := by
  cases instruction with
  | ret =>
    obtain ⟨below, _, _, rfl⟩ := execute_ret_ok machine generator after later done
    exact { depth := nofun }
  | call target =>
    obtain ⟨_, _, rfl⟩ := execute_call_ok machine generator target after later done
    exact untimed_call machine target
  | nop | jump _ | jumpOffset _ =>
    obtain ⟨rfl, rfl⟩ := Prod.mk.inj (Prod.mk.inj done).2
    exact {}
  | setDelay _ =>
    obtain ⟨rfl, rfl⟩ := Prod.mk.inj (Prod.mk.inj done).2
    exact { delay := nofun }
  | setSound _ =>
    obtain ⟨rfl, rfl⟩ := Prod.mk.inj (Prod.mk.inj done).2
    exact { sound := nofun }
  | skip condition =>
    obtain ⟨rfl, rfl⟩ := Prod.mk.inj (Prod.mk.inj done).2
    split <;> exact {}
  | setIndex _ | addToIndex _ | pointAtGlyph _ =>
    obtain ⟨rfl, rfl⟩ := Prod.mk.inj (Prod.mk.inj done).2
    exact { index := nofun }
  | setByte x _ | addByte x _ | readDelay x | random x _ =>
    obtain ⟨rfl, rfl⟩ := Prod.mk.inj (Prod.mk.inj done).2
    exact untimed_setRegister machine _ x _ fun _ => rfl
  | awaitKey x =>
    obtain ⟨rfl, rfl⟩ := Prod.mk.inj (Prod.mk.inj done).2
    split
    · exact untimed_setRegister machine _ x _ fun _ => rfl
    · exact {}
  | arithmetic operation x y =>
    obtain ⟨rfl, rfl⟩ := Prod.mk.inj (Prod.mk.inj done).2
    exact untimed_arithmetic machine operation x y
  | clearScreen =>
    obtain ⟨rfl, rfl⟩ := Prod.mk.inj (Prod.mk.inj done).2
    exact untimed_painted machine _ _ _ (Memory.painted_clearScreen machine.memory) rfl
      (fun _ => rfl) (fun _ _ => rfl)
  | draw x y rows =>
    obtain ⟨rfl, rfl⟩ := Prod.mk.inj (Prod.mk.inj done).2
    have painted := Memory.painted_drawSprite machine.memory machine.index.toNat
      (machine.v.get x).toNat (machine.v.get y).toNat rows.val
    exact untimed_painted machine _ _ _ painted rfl (fun _ => rfl) fun r outside =>
      setRegister_other machine flagRegister r _ (beq_eq_false_iff_ne.mp outside)
  | storeDigits x =>
    obtain ⟨rfl, rfl⟩ := Prod.mk.inj (Prod.mk.inj done).2
    refine untimed_stored machine _ _ _ (fun address outside => ?_) fun _ => rfl
    have apart := Bool.and_eq_false_iff.mp outside
    simp only [decide_eq_false_iff_not] at apart
    simp only [digits, List.length_cons, List.length_nil]
    omega
  | storeRegisters x =>
    obtain ⟨rfl, rfl⟩ := Prod.mk.inj (Prod.mk.inj done).2
    refine untimed_stored machine _ _ _ (fun address outside => ?_) nofun
    have apart := Bool.and_eq_false_iff.mp outside
    simp only [decide_eq_false_iff_not] at apart
    rw [length_registersThrough]
    omega
  | loadRegisters x =>
    obtain ⟨rfl, rfl⟩ := Prod.mk.inj (Prod.mk.inj done).2
    exact untimed_replaced machine _ x _ _ (fun _ => rfl) nofun
  | saveFlags x =>
    obtain ⟨rfl, rfl⟩ := Prod.mk.inj (Prod.mk.inj done).2
    exact {
      flag := fun r outside =>
        replaceThrough_behind machine.flags x r _ (of_decide_eq_false outside) }
  | restoreFlags x =>
    obtain ⟨rfl, rfl⟩ := Prod.mk.inj (Prod.mk.inj done).2
    exact untimed_replaced machine _ x _ _ (fun _ => rfl) fun _ => rfl

/-- The generator is used by the random instruction alone. -/
theorem execute_generator (machine : Machine) (generator : Generator)
    (instruction : Instruction) (after : Machine) (later : Generator)
    (done : machine.execute generator instruction = (.ok (), after, later))
    (unused : instruction.drawsByte = false) : later = generator := by
  cases instruction with
  | ret =>
    obtain ⟨_, _, same, _⟩ := execute_ret_ok machine generator after later done
    exact same
  | call target => exact (execute_call_ok machine generator target after later done).2.1
  | random x mask => exact absurd unused nofun
  | _ => exact (Prod.mk.inj (Prod.mk.inj done).2).2.symm

end Machine

end Chip8
