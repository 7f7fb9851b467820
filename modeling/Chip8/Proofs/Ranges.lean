import Chip8.Proofs.Guards
import Chip8.Proofs.Hosting
import Chip8.Proofs.Loading

/-!
# No step goes out of range

`Guarded.step` is a step in which every operation that may have no result carries its
guard: registers are looked up by number, sums and products must fit their words, the
stack pointer and the timers are never taken below zero, and the stack pointer never
past its slots. The main statement says that it always has a result, and that this is
what a plain step gives. All it asks of a machine is that its stack is within its
slots and that its program is not longer than a program can be. Hosts make no other
machines, and no run leads out of these.
-/

namespace Chip8.Guarded

/-! ## Registers -/

/-- Set the register with a number. -/
def setRegister (machine : Machine) (number : Nat) (value : UInt8) : Option Machine := do
  let v ← replace machine.v number value
  some { machine with v := v }

/-- The condition of a skip holds. -/
def holds (machine : Machine) : Condition → Option Bool
  | .isByte x byte => do
    let value ← entry machine.v x.val
    some (value == byte)
  | .isNotByte x byte => do
    let value ← entry machine.v x.val
    some (value != byte)
  | .same x y => do
    let first ← entry machine.v x.val
    let second ← entry machine.v y.val
    some (first == second)
  | .different x y => do
    let first ← entry machine.v x.val
    let second ← entry machine.v y.val
    some (first != second)
  | .keyDown x => do
    let value ← entry machine.v x.val
    some (machine.isKeyDown value.toNat)
  | .keyUp x => do
    let value ← entry machine.v x.val
    some (!machine.isKeyDown value.toNat)

/-- The result for the values of two registers. Bytes are moved by one place, and the
highest bit of a byte is found by moving it by seven. -/
def apply (operation : Operation) (vx vy : UInt8) : Option (UInt8 × Option Bool) :=
  match operation with
  | .shiftRight => do
    let half ← shiftRight vy 1
    some (half, some (vx &&& 1 == 1))
  | .shiftLeft => do
    let twice ← shiftLeft vy 1
    let top ← shiftRight vx 7
    some (twice, some (top &&& 1 == 1))
  | operation => some (operation.apply vx vy)

/-- Combine two registers into the first and set the flag if there is one. -/
def arithmetic (machine : Machine) (operation : Operation) (x y : Nat) : Option Machine := do
  let vx ← entry machine.v x
  let vy ← entry machine.v y
  let (value, flag) ← apply operation vx vy
  let computed ← setRegister machine x value
  match flag with
  | none => some computed
  | some flag => setRegister computed 15 flag.toUInt8

/-- Draw the sprite at the index register and set the flag. -/
def draw (machine : Machine) (x y rows : Nat) : Option Machine := do
  let vx ← entry machine.v x
  let vy ← entry machine.v y
  let drawn ← drawSprite machine.memory machine.index.toNat vx.toNat vy.toNat rows
  setRegister { machine with memory := drawn.memory } 15 drawn.collision.toUInt8

/-- Setting a register by its number. -/
theorem setRegister_eq (machine : Machine) (x : Register) (value : UInt8) :
    setRegister machine x.val value = some (machine.setRegister x value) := by
  rw [setRegister, replace_eq]
  rfl

/-- Conditions are always decided. -/
theorem holds_eq (machine : Machine) (condition : Condition) :
    holds machine condition = some (machine.holds condition) := by
  cases condition <;>
    simp only [holds, Machine.holds, entry_eq, Option.bind_eq_bind, Option.bind_some]

/-- The lowest bit of a byte. -/
theorem lowest_bit (byte : UInt8) : (byte &&& 1 == 1) = decide (byte.toNat % 2 = 1) := by
  have bit : (byte &&& 1).toNat = byte.toNat % 2 := by
    rw [UInt8.toNat_and]
    exact Nat.and_one_is_mod byte.toNat
  have one : (1 : UInt8).toNat = 1 := rfl
  rw [Bool.eq_iff_iff, beq_iff_eq, decide_eq_true_iff, ← UInt8.toNat_inj, bit, one]

/-- The highest bit of a byte. -/
theorem highest_bit (byte : UInt8) :
    (UInt8.ofNat (byte.toNat >>> 7) &&& 1 == 1) = decide (128 ≤ byte.toNat) := by
  have bound : byte.toNat < 256 := byte.toNat_lt
  have moved : byte.toNat >>> 7 = byte.toNat / 128 := Nat.shiftRight_eq_div_pow _ 7
  rw [lowest_bit, UInt8.toNat_ofNat', moved, decide_eq_decide]
  omega

/-- Operations always have a result. -/
theorem apply_eq (operation : Operation) (vx vy : UInt8) :
    apply operation vx vy = some (operation.apply vx vy) := by
  cases operation with
  | shiftRight =>
    have half : shiftRight vy 1 = some (.ofNat (vy.toNat / 2)) :=
      (if_pos (by decide)).trans
        (congrArg (some ∘ UInt8.ofNat) (Nat.shiftRight_eq_div_pow vy.toNat 1))
    simp only [apply, half, lowest_bit, Option.bind_eq_bind, Option.bind_some]
    rfl
  | shiftLeft =>
    have twice : shiftLeft vy 1 = some (.ofNat (2 * vy.toNat)) :=
      (if_pos (by decide)).trans
        (congrArg (some ∘ UInt8.ofNat) (Nat.shiftLeft_eq vy.toNat 1 |>.trans (Nat.mul_comm _ _)))
    have top : shiftRight vx 7 = some (.ofNat (vx.toNat >>> 7)) := if_pos (by decide)
    simp only [apply, twice, top, highest_bit, Option.bind_eq_bind, Option.bind_some]
    rfl
  | _ => rfl

/-- Registers can always be combined. -/
theorem arithmetic_eq (machine : Machine) (operation : Operation) (x y : Register) :
    arithmetic machine operation x.val y.val = some (machine.arithmetic operation x y) := by
  simp only [arithmetic, Machine.arithmetic, entry_eq, apply_eq, setRegister_eq,
    Option.bind_eq_bind, Option.bind_some]
  rcases operation.apply (machine.v.get x) (machine.v.get y) with ⟨value, flag⟩
  cases flag with
  | none => rfl
  | some flag => exact setRegister_eq _ flagRegister _

/-- Sprites can always be drawn. -/
theorem draw_eq (machine : Machine) (x y : Register) (rows : Fin 16) :
    draw machine x.val y.val rows.val = some (machine.draw x y rows) := by
  have drawn := drawSprite_eq machine.memory machine.index.toNat (machine.v.get x).toNat
    (machine.v.get y).toNat rows.val machine.index.toNat_lt (machine.v.get x).toNat_lt
    (machine.v.get y).toNat_lt rows.isLt
  simp only [draw, entry_eq, drawn, Option.bind_eq_bind, Option.bind_some]
  exact setRegister_eq _ flagRegister _

/-! ## Stores and loads -/

/-- Write the decimal digits of a byte. -/
def storeDigits (memory : Memory) (index : Nat) (value : UInt8) : Option Memory := do
  let second ← fit hostAddresses (index + 1)
  let third ← fit hostAddresses (index + 2)
  some (((memory.write index (value / 100)).write second (value / 10 % 10)).write third
    (value % 10))

/-- Write the registers up to and including one of them, one by one. -/
def storeThrough (memory : Memory) (index : Nat) (registers : Registers) (last : Nat) :
    Option Memory :=
  (List.range (last + 1)).foldlM
    (fun memory number => do
      let value ← entry registers number
      let place ← fit hostAddresses (index + number)
      some (memory.write place value))
    memory

/-- Read the registers up to and including one of them, one by one. -/
def loadThrough (memory : Memory) (index : Nat) (registers : Registers) (last : Nat) :
    Option Registers :=
  (List.range (last + 1)).foldlM
    (fun registers number => do
      let place ← fit hostAddresses (index + number)
      replace registers number (memory.read place))
    registers

/-- Copy the registers up to and including one of them to others, as one piece to a
piece of the same length. -/
def copyThrough (target source : Registers) (last : Nat) : Option Registers := do
  let values ← through source last
  let room ← through target last
  if values.length = room.length then
    some (.ofFn fun r : Register => values[r.val]?.getD (target.get r))
  else none

/-- The three digits have places. -/
theorem storeDigits_eq (memory : Memory) (index : Nat) (value : UInt8) (below : index < words) :
    storeDigits memory index value = some (memory.writeList index (Machine.digits value)) := by
  have second := fit_near index 1 below (by decide)
  have third := fit_near index 2 below (by decide)
  simp only [storeDigits, second, third, Option.bind_eq_bind, Option.bind_some]
  rfl

/-- Consecutive bytes are written one by one. -/
theorem writeList_eq_foldl (memory : Memory) (index : Nat) (values : List UInt8) :
    memory.writeList index values = (List.range values.length).foldl
      (fun memory number => memory.write (index + number) (values[number]?.getD 0)) memory := by
  induction values generalizing memory index with
  | nil => rfl
  | cons value rest inductionHypothesis =>
    rw [Memory.writeList, inductionHypothesis, List.length_cons, List.range_succ_eq_map,
      List.foldl_cons, List.foldl_map]
    simp only [List.getElem?_cons_succ, List.getElem?_cons_zero, Option.getD_some,
      Nat.succ_eq_add_one, Nat.add_zero, Nat.add_assoc, Nat.add_comm 1]

/-- Every register has a place in memory or behind it. -/
theorem storeThrough_eq (memory : Memory) (index : Nat) (registers : Registers) (x : Register)
    (below : index < words) :
    storeThrough memory index registers x.val =
      some (memory.writeList index (Machine.registersThrough registers x)) := by
  rw [writeList_eq_foldl, Machine.length_registersThrough]
  apply foldlM_eq_some
  intro number member state
  have upTo : number < x.val + 1 := List.mem_range.mp member
  have value : entry registers number =
      some ((Machine.registersThrough registers x)[number]?.getD 0) := by
    have inside : number < 16 := by omega
    rw [entry, Machine.registersThrough, List.getElem?_take_of_lt upTo]
    simp [inside]
  have place := fit_near index number below (by omega)
  simp only [value, place, Option.bind_eq_bind, Option.bind_some]

/-- Registers that are set one by one are set up to the last of them. -/
theorem foldl_setIfInBounds (registers : Registers) (source : Nat → UInt8) (count number : Nat) :
    ((List.range count).foldl (fun registers number =>
      registers.setIfInBounds number (source number)) registers)[number]? =
      if number < count ∧ number < 16 then some (source number) else registers[number]? := by
  induction count with
  | zero => simp
  | succ count inductionHypothesis =>
    rw [List.range_succ, List.foldl_append, List.foldl_cons, List.foldl_nil,
      Vector.getElem?_setIfInBounds, inductionHypothesis]
    grind

/-- Every register can be read. -/
theorem loadThrough_eq (memory : Memory) (index : Nat) (registers : Registers) (x : Register)
    (below : index < words) :
    loadThrough memory index registers x.val =
      some (Machine.replaceThrough registers x fun r => memory.read (index + r.val)) := by
  have turns : loadThrough memory index registers x.val =
      some ((List.range (x.val + 1)).foldl (fun registers number =>
        registers.setIfInBounds number (memory.read (index + number))) registers) := by
    apply foldlM_eq_some
    intro number member state
    have upTo : number < x.val + 1 := List.mem_range.mp member
    have place := fit_near index number below (by omega)
    have set := replace_of_lt state number (memory.read (index + number)) (by omega)
    simp only [place, set, Option.bind_eq_bind, Option.bind_some]
  rw [turns]
  apply congrArg some
  apply Vector.ext
  intro number inside
  have loaded := foldl_setIfInBounds registers (fun number => memory.read (index + number))
    (x.val + 1) number
  rw [Vector.getElem?_eq_getElem inside, Vector.getElem?_eq_getElem inside] at loaded
  rw [Machine.replaceThrough, Vector.getElem_ofFn]
  by_cases upTo : number < x.val + 1
  · have least : (⟨number, inside⟩ : Register) ≤ x := Nat.le_of_lt_succ upTo
    rw [if_pos ⟨upTo, inside⟩] at loaded
    rw [if_pos least]
    exact Option.some.inj loaded
  · have beyond : ¬ (⟨number, inside⟩ : Register) ≤ x :=
      fun least => upTo (Nat.lt_succ_of_le least)
    rw [if_neg fun both => upTo both.1] at loaded
    rw [if_neg beyond]
    exact Option.some.inj loaded

/-- Registers are copied between rows of the same length. -/
theorem copyThrough_eq (target source : Registers) (x : Register) :
    copyThrough target source x.val =
      some (Machine.replaceThrough target x fun r => source.get r) := by
  have same : (source.toList.take (x.val + 1)).length =
      (target.toList.take (x.val + 1)).length := by
    simp
  simp only [copyThrough, through_eq, Option.bind_eq_bind, Option.bind_some, if_pos same]
  apply congrArg some
  apply Vector.ext
  intro number inside
  rw [Machine.replaceThrough, Vector.getElem_ofFn, Vector.getElem_ofFn]
  by_cases upTo : number < x.val + 1
  · have least : (⟨number, inside⟩ : Register) ≤ x := Nat.le_of_lt_succ upTo
    rw [if_pos least, List.getElem?_take_of_lt upTo]
    simp [inside, Vector.get]
  · have beyond : ¬ (⟨number, inside⟩ : Register) ≤ x :=
      fun least => upTo (Nat.lt_succ_of_le least)
    rw [if_neg beyond]
    have past : (source.toList.take (x.val + 1))[number]? = none :=
      List.getElem?_eq_none (by simp; omega)
    rw [past, Option.getD_none]

/-! ## The call stack -/

/-- The address of a stack slot; both of its bytes must have one. -/
def slotPlace (slot : Nat) : Option Nat := do
  let offset ← fit hostAddresses (slot * 2)
  let place ← fit hostAddresses (stackStart + offset)
  let _ ← fit hostAddresses (place + 1)
  some place

/-- Put a return address on the stack. -/
def push (machine : Machine) (address : UInt16) : Option (Except Fault Unit × Machine) :=
  if stackSlots ≤ machine.sp then some (.error .stackOverflow, machine)
  else do
    let place ← slotPlace machine.sp
    let depth ← fit (stackSlots + 1) (machine.sp + 1)
    some (.ok (), { machine with
      memory := machine.memory.writeList place
        [.ofNat address.toNat, .ofNat (address.toNat / 256)]
      sp := depth })

/-- Take the topmost return address off the stack. -/
def pop (machine : Machine) : Option (Except Fault UInt16 × Machine) :=
  if machine.sp = 0 then some (.error .stackUnderflow, machine)
  else do
    let depth ← less machine.sp 1
    let place ← slotPlace depth
    some (.ok (.ofNat ((machine.memory.read place).toNat +
      256 * (machine.memory.read (place + 1)).toNat)), { machine with sp := depth })

/-- Slots of the call stack have addresses. -/
theorem slotPlace_eq (slot : Nat) (inside : slot ≤ stackSlots) :
    slotPlace slot = some (Memory.slotAddress slot) := by
  have near : slot * 2 < 4096 := by
    simp only [stackSlots] at inside
    omega
  have within : stackStart + slot * 2 < 65536 := by
    simp only [stackStart]
    omega
  have offset : fit hostAddresses (slot * 2) = some (slot * 2) :=
    fit_of_lt _ _ (Nat.lt_trans near (by decide))
  have place := fit_near stackStart (slot * 2) (by decide) (Nat.lt_trans near (by decide))
  have second := fit_near (stackStart + slot * 2) 1 within (by decide)
  simp only [slotPlace, offset, place, second, Option.bind_eq_bind, Option.bind_some]
  rw [Memory.slotAddress, Nat.mul_comm]

/-- Pushing fails or stays within the slots. -/
theorem push_eq (machine : Machine) (address : UInt16) :
    push machine address = some (machine.push address) := by
  unfold push Machine.push
  by_cases full : stackSlots ≤ machine.sp
  · rw [if_pos full, if_pos full]
  · have free : machine.sp < stackSlots := Nat.lt_of_not_le full
    have depth : fit (stackSlots + 1) (machine.sp + 1) = some (machine.sp + 1) :=
      fit_of_lt _ _ (Nat.succ_lt_succ free)
    rw [if_neg full, if_neg full, slotPlace_eq machine.sp (Nat.le_of_lt free), depth]
    rfl

/-- Popping fails or finds a slot. -/
theorem pop_eq (machine : Machine) (depth : machine.sp ≤ stackSlots) :
    pop machine = some machine.pop := by
  unfold pop Machine.pop
  cases level : machine.sp with
  | zero => rfl
  | succ below =>
    have lower : less (below + 1) 1 = some below := less_of_le _ _ (Nat.le_add_left 1 below)
    have inside : below ≤ stackSlots := by omega
    rw [if_neg (Nat.succ_ne_zero below), lower]
    simp only [slotPlace_eq below inside, Option.bind_eq_bind, Option.bind_some]
    rfl

/-! ## Execution -/

/-- Execute an instruction. -/
def execute (machine : Machine) (generator : Generator) :
    Instruction → Option (Except Fault Unit × Machine × Generator)
  | .nop => some (.ok (), machine, generator)
  | .clearScreen => do
    let memory ← clearScreen machine.memory
    some (.ok (), { machine with memory := memory }, generator)
  | .ret => do
    match ← pop machine with
    | (.error fault, popped) => some (.error fault, popped, generator)
    | (.ok address, popped) => some (.ok (), { popped with pc := address }, generator)
  | .jump target => some (.ok (), { machine with pc := .ofNat target.val }, generator)
  | .call target => do
    match ← push machine machine.pc with
    | (.error fault, pushed) => some (.error fault, pushed, generator)
    | (.ok (), pushed) => some (.ok (), { pushed with pc := .ofNat target.val }, generator)
  | .jumpOffset base => do
    let offset ← entry machine.v 0
    let target ← fit words (base.val + offset.toNat)
    some (.ok (), { machine with pc := .ofNat target }, generator)
  | .skip condition => do
    let met ← holds machine condition
    some (.ok (), if met then machine.skipNext else machine, generator)
  | .setByte x byte => do
    let computed ← setRegister machine x.val byte
    some (.ok (), computed, generator)
  | .addByte x byte => do
    let value ← entry machine.v x.val
    let computed ← setRegister machine x.val (value + byte)
    some (.ok (), computed, generator)
  | .arithmetic operation x y => do
    let computed ← arithmetic machine operation x.val y.val
    some (.ok (), computed, generator)
  | .setIndex address => some (.ok (), { machine with index := .ofNat address.val }, generator)
  | .addToIndex x => do
    let value ← entry machine.v x.val
    some (.ok (), machine.advanceIndex value.toNat, generator)
  | .pointAtGlyph x => do
    let value ← entry machine.v x.val
    let offset ← fit words (glyphSize * value.toNat)
    let place ← fit words (fontStart + offset)
    some (.ok (), { machine with index := .ofNat place }, generator)
  | .random x mask => do
    let (byte, later) := generator.next
    let computed ← setRegister machine x.val (byte &&& mask)
    some (.ok (), computed, later)
  | .draw x y rows => do
    let drawn ← draw machine x.val y.val rows.val
    some (.ok (), drawn, generator)
  | .readDelay x => do
    let computed ← setRegister machine x.val machine.delay
    some (.ok (), computed, generator)
  | .awaitKey x =>
    if machine.keys.any id then do
      let computed ← setRegister machine x.val 1
      some (.ok (), computed, generator)
    else some (.ok (), { machine with pc := machine.pc - 2 }, generator)
  | .setDelay x => do
    let value ← entry machine.v x.val
    some (.ok (), { machine with delay := value }, generator)
  | .setSound x => do
    let value ← entry machine.v x.val
    some (.ok (), { machine with sound := value }, generator)
  | .storeDigits x => do
    let value ← entry machine.v x.val
    let memory ← storeDigits machine.memory machine.index.toNat value
    some (.ok (), { machine with memory := memory }, generator)
  | .storeRegisters x => do
    let memory ← storeThrough machine.memory machine.index.toNat machine.v x.val
    let count ← fit words (x.val + 1)
    some (.ok (), { machine with memory := memory }.advanceIndex count, generator)
  | .loadRegisters x => do
    let v ← loadThrough machine.memory machine.index.toNat machine.v x.val
    let count ← fit words (x.val + 1)
    some (.ok (), { machine with v := v }.advanceIndex count, generator)
  | .saveFlags x => do
    let flags ← copyThrough machine.flags machine.v x.val
    some (.ok (), { machine with flags := flags }, generator)
  | .restoreFlags x => do
    let v ← copyThrough machine.v machine.flags x.val
    some (.ok (), { machine with v := v }, generator)

/-- An address and a register's value make an address. -/
theorem offset_fits (base : Address) (value : UInt8) :
    fit words (base.val + value.toNat) = some (base.val + value.toNat) := by
  have high : base.val < 4096 := base.isLt
  have low : value.toNat < 256 := value.toNat_lt
  exact fit_of_lt _ _ (by simp only [words]; omega)

/-- A register's value counts glyphs. -/
theorem glyph_fits (value : UInt8) :
    fit words (glyphSize * value.toNat) = some (glyphSize * value.toNat) ∧
      fit words (fontStart + glyphSize * value.toNat) =
        some (fontStart + glyphSize * value.toNat) := by
  have low : value.toNat < 256 := value.toNat_lt
  exact ⟨fit_of_lt _ _ (by simp only [glyphSize, words]; omega),
    fit_of_lt _ _ (by simp only [fontStart, glyphSize, words]; omega)⟩

/-- A register's number counts registers. -/
theorem count_fits (x : Register) : fit words (x.val + 1) = some (x.val + 1) :=
  fit_of_lt _ _ (Nat.lt_of_lt_of_le (Nat.succ_lt_succ x.isLt) (by decide))

/-- Every instruction can be executed or fails. -/
theorem execute_eq (machine : Machine) (generator : Generator) (instruction : Instruction)
    (depth : machine.sp ≤ stackSlots) :
    execute machine generator instruction = some (machine.execute generator instruction) := by
  have below : machine.index.toNat < words := machine.index.toNat_lt
  cases instruction with
  | nop | jump target | setIndex address => rfl
  | clearScreen =>
    rw [execute, clearScreen_eq]
    rfl
  | ret =>
    rw [execute, pop_eq machine depth, Machine.execute]
    rcases machine.pop with ⟨_ | _, _⟩ <;> rfl
  | call target =>
    rw [execute, push_eq, Machine.execute]
    rcases machine.push machine.pc with ⟨_ | _, _⟩ <;> rfl
  | jumpOffset base =>
    have offset : entry machine.v 0 = some (machine.v.get 0) := entry_eq machine.v 0
    simp only [execute, offset, offset_fits, Option.bind_eq_bind, Option.bind_some]
    rfl
  | skip condition =>
    rw [execute, holds_eq]
    rfl
  | setByte x byte | readDelay x =>
    rw [execute, setRegister_eq]
    rfl
  | addByte x byte =>
    simp only [execute, entry_eq, setRegister_eq, Option.bind_eq_bind, Option.bind_some]
    rfl
  | arithmetic operation x y =>
    rw [execute, arithmetic_eq]
    rfl
  | addToIndex x | setDelay x | setSound x =>
    rw [execute, entry_eq]
    rfl
  | pointAtGlyph x =>
    have glyph := glyph_fits (machine.v.get x)
    simp only [execute, entry_eq, glyph.1, glyph.2, Option.bind_eq_bind, Option.bind_some]
    rfl
  | random x mask =>
    simp only [execute, setRegister_eq, Option.bind_eq_bind, Option.bind_some]
    rfl
  | draw x y rows =>
    rw [execute, draw_eq]
    rfl
  | awaitKey x =>
    simp only [execute, Machine.execute, setRegister_eq, Option.bind_eq_bind, Option.bind_some]
    split <;> rfl
  | storeDigits x =>
    simp only [execute, entry_eq, storeDigits_eq _ _ _ below, Option.bind_eq_bind,
      Option.bind_some]
    rfl
  | storeRegisters x =>
    simp only [execute, storeThrough_eq _ _ _ _ below, count_fits, Option.bind_eq_bind,
      Option.bind_some]
    rfl
  | loadRegisters x =>
    simp only [execute, loadThrough_eq _ _ _ _ below, count_fits, Option.bind_eq_bind,
      Option.bind_some]
    rfl
  | saveFlags x | restoreFlags x =>
    rw [execute, copyThrough_eq]
    rfl

/-! ## Timers -/

/-- A timer goes down unless it is zero. -/
def countDown (timer : UInt8) : Option UInt8 :=
  if timer = 0 then some 0
  else do
    let lower ← less timer.toNat 1
    some (.ofNat lower)

/-- Count one executed instruction. The count itself may wrap around. -/
def tick (machine : Machine) : Option Machine :=
  let ticks := machine.ticks + 1
  if ticks % 6 ≠ 0 then some { machine with ticks := ticks }
  else do
    let delay ← countDown machine.delay
    let sound ← countDown machine.sound
    some { machine with
      delay := delay
      sound := sound
      ticks := if machine.delay = 0 ∧ machine.sound = 0 then ticks else 0 }

/-- No timer goes down from zero. -/
theorem countDown_eq (timer : UInt8) : countDown timer = some (Machine.countDown timer) := by
  unfold countDown Machine.countDown
  by_cases zero : timer = 0
  · rw [if_pos zero, if_pos zero]
  · have positive : 1 ≤ timer.toNat := Nat.one_le_iff_ne_zero.mpr fun none =>
      zero (UInt8.toNat_inj.mp none)
    have bound : timer.toNat < 256 := timer.toNat_lt
    rw [if_neg zero, if_neg zero, less_of_le _ _ positive]
    apply congrArg some
    rw [← UInt8.toNat_inj, UInt8.toNat_ofNat', UInt8.toNat_sub_of_le timer 1 positive]
    exact Nat.mod_eq_of_lt (by omega)

/-- Every executed instruction can be counted. -/
theorem tick_eq (machine : Machine) : tick machine = some machine.tick := by
  simp only [tick, Machine.tick, countDown_eq, Option.bind_eq_bind, Option.bind_some]
  split <;> rfl

/-! ## Orderly machines -/

/-- A row of bytes is shorter than this. -/
abbrev sliceLimit : Nat := 9223372036854775808

/-- A machine whose stack is within its slots and whose program is a row of bytes. -/
structure Orderly (machine : Machine) : Prop where
  depth : machine.sp ≤ stackSlots
  size : ∀ size, machine.programSize = some size → size < sliceLimit

/-- A machine that a host loads rows of bytes into is orderly. -/
theorem orderly_hosted (actions : List Action)
    (short : ∀ program, lastProgram? actions = some program → program.length < sliceLimit) :
    Orderly (Machine.hosted actions) := by
  have fits := Machine.fits_hosted actions
  refine { depth := fits.depth, size := fun size loaded => ?_ }
  rw [fits.programSize] at loaded
  obtain ⟨program, last, rfl⟩ := Option.map_eq_some_iff.mp loaded
  exact short program last

/-- An orderly machine is orderly after a step. -/
theorem orderly_step (machine : Machine) (generator : Generator) (orderly : Orderly machine) :
    Orderly (machine.step generator).machine where
  depth := machine.depth_step generator orderly.depth
  size := by
    have same : (machine.step generator).machine.programSize = machine.programSize :=
      System.next_programSize ⟨machine, generator⟩
    rw [same]
    exact orderly.size

/-- Whatever happens in a run of an orderly machine, it stays orderly. -/
theorem orderly_play (system : System) (turns : List Turn) (orderly : Orderly system.machine) :
    Orderly (system.play turns).machine :=
  System.play_keeps (fun _ => True) (fun running => Orderly running.machine)
    (fun running _ kept => orderly_step running.machine running.generator kept)
    (fun _ _ _ kept => ⟨kept.depth, kept.size⟩) system turns
    (System.Throughout.of_forall (fun _ => trivial) system turns) orderly

/-! ## Steps -/

/-- Read the opcode at the program counter and move the counter past it. The place
behind the program must have an address, and so must both bytes of the opcode. -/
def fetch (machine : Machine) : Option (Except Fault (Option UInt16) × Machine) :=
  match machine.programSize with
  | none => some (.error .noProgram, machine)
  | some size => do
    let finish ← fit hostAddresses (programStart + size)
    if programStart ≤ machine.pc.toNat ∧ machine.pc.toNat < finish then do
      let second ← fit hostAddresses (machine.pc.toNat + 1)
      let opcode := .ofNat (256 * (machine.memory.read machine.pc.toNat).toNat +
        (machine.memory.read second).toNat)
      some (.ok (some opcode), { machine with pc := machine.pc + 2 })
    else some (.ok none, machine)

/-- The opcode is a jump to the given address. -/
def jumpsTo (opcode : UInt16) (address : UInt16) : Option Bool := do
  let family ← shiftWord opcode 12
  some (family == 1 && opcode.toNat &&& 0xFFF == address.toNat)

/-- Execute one instruction. -/
def step (machine : Machine) (generator : Generator) : Option Stepped := do
  match ← fetch machine with
  | (.error fault, fetched) => some ⟨.error fault, fetched, generator⟩
  | (.ok none, fetched) => some ⟨.ok (.halted .outside fetched.pc), fetched, generator⟩
  | (.ok (some opcode), fetched) =>
    let place := fetched.pc - 2
    if ← jumpsTo opcode place then some ⟨.ok (.halted .selfJump place), fetched, generator⟩
    else match ← decode opcode with
      | none => some ⟨.error (.invalidOpcode opcode), fetched, generator⟩
      | some instruction => match ← execute fetched generator instruction with
        | (.error fault, failed, later) => some ⟨.error fault, failed, later⟩
        | (.ok (), executed, later) => do
          let ticked ← tick executed
          some ⟨.ok (.executed opcode), ticked, later⟩

/-- Opcodes can always be fetched. -/
theorem fetch_eq (machine : Machine) (orderly : Orderly machine) :
    fetch machine = some machine.fetch := by
  unfold fetch Machine.fetch
  cases loaded : machine.programSize with
  | none => rfl
  | some size =>
    have short : size < sliceLimit := orderly.size size loaded
    have finish : fit hostAddresses (programStart + size) = some (programStart + size) :=
      fit_of_lt _ _ (by simp only [sliceLimit, programStart, hostAddresses] at short ⊢; omega)
    have second := fit_near machine.pc.toNat 1 machine.pc.toNat_lt (by decide)
    simp only [finish, second, Option.bind_eq_bind, Option.bind_some]
    split <;> rfl

/-- Fetching leaves the stack alone. -/
theorem fetch_depth (machine : Machine) : machine.fetch.2.sp = machine.sp := by
  unfold Machine.fetch
  split
  · rfl
  · split <;> rfl

/-- Jumps are recognised. -/
theorem jumpsTo_eq (opcode address : UInt16) :
    jumpsTo opcode address = some (Machine.jumpsTo opcode address) := by
  have masked : opcode.toNat &&& 0xFFF = opcode.toNat % 4096 :=
    Nat.and_two_pow_sub_one_eq_mod _ 12
  rw [jumpsTo, shiftWord_of_lt opcode 12 4096 (by decide) rfl, masked]
  rfl

/-- No operation of a step goes out of its range: whatever the registers, the timers,
the counters and memory hold, every guard holds, and the step has its result. -/
theorem step_in_range (machine : Machine) (generator : Generator) (orderly : Orderly machine) :
    step machine generator = some (machine.step generator) := by
  rw [step, Machine.step, fetch_eq machine orderly]
  have depth : machine.fetch.2.sp ≤ stackSlots := by
    rw [fetch_depth machine]
    exact orderly.depth
  generalize machine.fetch = fetch at depth ⊢
  rcases fetch with ⟨fault | _ | opcode, fetched⟩
  · rfl
  · rfl
  · simp only [jumpsTo_eq, decode_eq, execute_eq fetched generator _ depth, tick_eq,
      Option.bind_eq_bind, Option.bind_some]
    -- What is left are the tests of a step itself.
    split
    · rfl
    · cases Instruction.decode? opcode with
      | none => rfl
      | some instruction =>
        dsimp only
        rcases fetched.execute generator instruction with ⟨_ | _, _, _⟩ <;> rfl

/-- A machine with everything as large as it can be, about to store all registers behind
the end of memory. -/
def brimming : Machine :=
  { Machine.initial.load [0xFF, 0x55] with
    v := .replicate 16 255
    index := 0xFFFF
    sp := 48
    delay := 255
    sound := 255
    ticks := 0xFFFFFFFF }

/-- It does so, and no operation goes out of its range. -/
theorem step_in_range_brimming :
    Orderly brimming ∧ (brimming.step (.ofSeed 0)).outcome = .ok (.executed 0xFF55) ∧
      step brimming (.ofSeed 0) = some (brimming.step (.ofSeed 0)) := by
  have orderly : Orderly brimming := {
    depth := Nat.le_refl 48
    size := by
      intro size loaded
      obtain rfl : 2 = size := Option.some.inj loaded
      decide }
  have copied : [0xFF, 0x55].length < programLimit := by decide
  have stored : (Machine.initial.load [0xFF, 0x55]).memory.word 0x200 = 0xFF55 :=
    (Machine.word_load_initial _ copied 0 0xFF 0x55 rfl rfl).trans (by decide)
  have inside : brimming.InProgram := ⟨2, rfl, by decide⟩
  have storing := brimming.step_of_opcode (.ofSeed 0) 0xFF55 inside stored (by decide)
    (.storeRegisters 15) rfl _ _ rfl
  refine ⟨orderly, ?_, step_in_range brimming _ orderly⟩
  rw [storing]

end Chip8.Guarded
