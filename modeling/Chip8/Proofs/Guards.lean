import Chip8.Machine.Basic
import Chip8.Machine.Sprite
import Chip8.Instruction.Opcode

/-!
# Operations that may have no result

Numbers of a host lie in words: a sum or product may not fit its word, an amount may
be larger than what it is taken from, an index may lie outside a row of registers, a
shift may be as wide as the byte it moves. Here such operations are spelled out: each
has a guard, and gives nothing where the guard fails. Opcodes are taken apart and
sprites drawn by guarded operations alone, and the main statements say that the
results are those of the plain operations. Every index that comes from an opcode was
masked before, and every place of a pixel was wrapped around the screen.
-/

namespace Chip8.Guarded

/-! ## Guards -/

/-- How many numbers a word of sixteen bits has. -/
abbrev words : Nat := 65536

/-- How many addresses the host has. -/
abbrev hostAddresses : Nat := 18446744073709551616

/-- A number, if a type with so many numbers has it. -/
def fit (bound value : Nat) : Option Nat :=
  if value < bound then some value else none

/-- What is left of a number, if it is as large as what is taken away. -/
def less (value amount : Nat) : Option Nat :=
  if amount ≤ value then some (value - amount) else none

/-- A byte moved to the right, if some of it can be left. -/
def shiftRight (byte : UInt8) (places : Nat) : Option UInt8 :=
  if places < 8 then some (.ofNat (byte.toNat >>> places)) else none

/-- A byte moved to the left, if some of it can be left. -/
def shiftLeft (byte : UInt8) (places : Nat) : Option UInt8 :=
  if places < 8 then some (.ofNat (byte.toNat <<< places)) else none

/-- A word moved to the right, if some of it can be left. -/
def shiftWord (word : UInt16) (places : Nat) : Option Nat :=
  if places < 16 then some (word.toNat >>> places) else none

/-- The number of a register, if there is one. -/
def register (number : Nat) : Option Register :=
  if inside : number < 16 then some ⟨number, inside⟩ else none

/-- The address that an opcode can hold, if it can. -/
def address (number : Nat) : Option Address :=
  if inside : number < 4096 then some ⟨number, inside⟩ else none

/-- The value of the register with a number, if there is one. -/
def entry (registers : Registers) (number : Nat) : Option UInt8 := registers[number]?

/-- The registers with one of them set, if there is one with that number. -/
def replace (registers : Registers) (number : Nat) (value : UInt8) : Option Registers :=
  if inside : number < 16 then some (registers.set number value inside) else none

/-- The registers up to and including one of them, if there are as many. -/
def through (registers : Registers) (last : Nat) : Option (List UInt8) :=
  if last < 16 then some (registers.toList.take (last + 1)) else none

/-- A number below the bound fits. -/
theorem fit_of_lt (bound value : Nat) (below : value < bound) : fit bound value = some value :=
  if_pos below

/-- What lies near to a place within a word has an address. -/
theorem fit_near (place offset : Nat) (within : place < 65536) (near : offset < 65536) :
    fit hostAddresses (place + offset) = some (place + offset) :=
  fit_of_lt _ _ (by simp only [hostAddresses]; omega)

/-- An amount that is not larger can be taken away. -/
theorem less_of_le (value amount : Nat) (enough : amount ≤ value) :
    less value amount = some (value - amount) :=
  if_pos enough

/-- Moving a word divides it by a power of two. -/
theorem shiftWord_of_lt (word : UInt16) (places divisor : Nat) (inside : places < 16)
    (power : Nat.pow 2 places = divisor) :
    shiftWord word places = some (word.toNat / divisor) := by
  subst power
  exact (if_pos inside).trans (congrArg some (Nat.shiftRight_eq_div_pow word.toNat places))

/-- Registers have values. -/
theorem entry_eq (registers : Registers) (x : Register) :
    entry registers x.val = some (registers.get x) :=
  Vector.getElem?_eq_getElem x.isLt

/-- Registers can be set. -/
theorem replace_eq (registers : Registers) (x : Register) (value : UInt8) :
    replace registers x.val value = some (registers.set x.val value x.isLt) :=
  dif_pos x.isLt

/-- What is set by number is set where there is such a register. -/
theorem replace_of_lt (registers : Registers) (number : Nat) (value : UInt8)
    (inside : number < 16) :
    replace registers number value = some (registers.setIfInBounds number value) := by
  rw [replace, dif_pos inside]
  apply congrArg some
  apply Vector.ext
  intro other within
  rw [Vector.getElem_set, Vector.getElem_setIfInBounds]

/-- Registers end a row of registers. -/
theorem through_eq (registers : Registers) (x : Register) :
    through registers x.val = some (registers.toList.take (x.val + 1)) :=
  if_pos x.isLt

/-- A loop whose every turn has a result has one. -/
theorem foldlM_eq_some {α β : Type} (turn : β → α → Option β) (plain : β → α → β)
    (values : List α) (start : β)
    (each : ∀ value ∈ values, ∀ state, turn state value = some (plain state value)) :
    values.foldlM turn start = some (values.foldl plain start) := by
  induction values generalizing start with
  | nil => rfl
  | cons value rest inductionHypothesis =>
    have first : turn start value = some (plain start value) :=
      each value (List.mem_cons_self ..) start
    have later : ∀ other ∈ rest, ∀ state, turn state other = some (plain state other) :=
      fun other member => each other (List.mem_cons_of_mem value member)
    rw [List.foldlM_cons, first, List.foldl_cons]
    exact inductionHypothesis (plain start value) later

/-! ## Opcodes -/

/-- Read an opcode. Its digits are cut out by shifts and masks, and must be numbers of
registers and addresses. -/
def decode (opcode : UInt16) : Option (Option Instruction) := do
  let code := opcode.toNat
  let family ← shiftWord opcode 12
  let second ← shiftWord opcode 8
  let third ← shiftWord opcode 4
  let x ← register (second &&& 0xF)
  let y ← register (third &&& 0xF)
  let rows ← register (code &&& 0xF)
  let target ← address (code &&& 0xFFF)
  let final := code &&& 0xFF
  let byte := UInt8.ofNat final
  some <| match family with
    | 0x0 => Instruction.plain? final
    | 0x1 => some (.jump target)
    | 0x2 => some (.call target)
    | 0x3 => some (.skip (.isByte x byte))
    | 0x4 => some (.skip (.isNotByte x byte))
    | 0x5 => if rows.val = 0 then some (.skip (.same x y)) else none
    | 0x6 => some (.setByte x byte)
    | 0x7 => some (.addByte x byte)
    | 0x8 => (Operation.ofDigit? rows.val).map (.arithmetic · x y)
    | 0x9 => if rows.val = 0 then some (.skip (.different x y)) else none
    | 0xA => some (.setIndex target)
    | 0xB => some (.jumpOffset target)
    | 0xC => some (.random x byte)
    | 0xD => some (.draw x y rows)
    | 0xE => Instruction.keySkip? x final
    | 0xF => Instruction.single? x final
    | _ => none

/-- A masked digit is the number of a register. -/
theorem register_masked (number : Nat) : register (number &&& 0xF) = some (.ofNat 16 number) := by
  have masked : number &&& 0xF = number % 16 := Nat.and_two_pow_sub_one_eq_mod number 4
  have inside : number &&& 0xF < 16 := by omega
  rw [register, dif_pos inside]
  exact congrArg some (Fin.ext masked)

/-- Three masked digits are an address. -/
theorem address_masked (number : Nat) : address (number &&& 0xFFF) = some (.ofNat 4096 number) := by
  have masked : number &&& 0xFFF = number % 4096 := Nat.and_two_pow_sub_one_eq_mod number 12
  have inside : number &&& 0xFFF < 4096 := by omega
  rw [address, dif_pos inside]
  exact congrArg some (Fin.ext masked)

/-- Every opcode can be taken apart. -/
theorem decode_eq (opcode : UInt16) : decode opcode = some (Instruction.decode? opcode) := by
  have family : shiftWord opcode 12 = some (opcode.toNat / 4096) :=
    shiftWord_of_lt opcode 12 4096 (by decide) rfl
  have second : shiftWord opcode 8 = some (opcode.toNat / 256) :=
    shiftWord_of_lt opcode 8 256 (by decide) rfl
  have third : shiftWord opcode 4 = some (opcode.toNat / 16) :=
    shiftWord_of_lt opcode 4 16 (by decide) rfl
  have final : opcode.toNat &&& 0xFF = opcode.toNat % 256 :=
    Nat.and_two_pow_sub_one_eq_mod _ 8
  have byte : UInt8.ofNat (opcode.toNat % 256) = UInt8.ofNat opcode.toNat := UInt8.ofNat_mod_size
  simp only [decode, family, second, third, final, byte, register_masked, address_masked,
    Option.bind_eq_bind, Option.bind_some]
  rfl

/-! ## The screen -/

/-- A screen in memory must lie within it. -/
def locate (memory : Memory) : Option Unit :=
  match memory.screen with
  | .mapped => if screenStart + screenSize ≤ memory.bytes.toArray.size then some () else none
  | .detached _ => some ()

/-- Turn every pixel off. -/
def clearScreen (memory : Memory) : Option Memory := do
  locate memory
  some memory.clearScreen

/-- Flip the pixel in a column and a row. -/
def flip (drawn : Memory.Drawn) (column row : Nat) : Option Memory.Drawn := do
  locate drawn.memory
  let before ← fit hostAddresses (row * screenWidth)
  let index ← fit hostAddresses (before + column)
  let mask ← shiftRight 0x80 (index % 8)
  let byte := drawn.memory.readScreen (index / 8)
  some {
    memory := drawn.memory.writeScreen (index / 8) (byte ^^^ mask)
    collision := drawn.collision || byte &&& mask != 0 }

/-- Flip the pixels of one sprite row, given the sprite's position and which of its
rows it is. -/
def drawRow (drawn : Memory.Drawn) (sprite : UInt8) (x y row : Nat) : Option Memory.Drawn :=
  (List.range 8).foldlM
    (fun drawn column => do
      let mask ← shiftRight 0x80 column
      if sprite &&& mask == 0 then some drawn
      else
        let across ← fit hostAddresses (x + column)
        let down ← fit hostAddresses (y + row)
        flip drawn (across % screenWidth) (down % screenHeight))
    drawn

/-- Flip the pixels of a sprite with its first row at an address. -/
def drawSprite (memory : Memory) (start x y rows : Nat) : Option Memory.Drawn :=
  (List.range rows).foldlM
    (fun drawn row => do
      let place ← fit hostAddresses (start + row)
      drawRow drawn (drawn.memory.read place) x y row)
    ⟨memory, false⟩

/-- The picture's place ends where memory ends. -/
theorem locate_eq (memory : Memory) : locate memory = some () := by
  unfold locate
  split
  · exact if_pos (Nat.le_of_eq memory.bytes.size_toArray.symm)
  · rfl

/-- The picture can always be cleared. -/
theorem clearScreen_eq (memory : Memory) : clearScreen memory = some memory.clearScreen := by
  rw [clearScreen, locate_eq]
  rfl

/-- Places that were wrapped around the screen are places of pixels. -/
theorem flip_eq (drawn : Memory.Drawn) (column row : Nat) (across : column < screenWidth)
    (down : row < screenHeight) :
    flip drawn column row = some (Memory.flip drawn (row * screenWidth + column)) := by
  have narrow : row * screenWidth + column < 2048 := by
    simp only [screenWidth, screenHeight] at across down ⊢
    omega
  have before : fit hostAddresses (row * screenWidth) = some (row * screenWidth) :=
    fit_of_lt _ _ (by simp only [hostAddresses]; omega)
  have index := fit_near (row * screenWidth) column (by omega) (by omega)
  have mask : shiftRight 0x80 ((row * screenWidth + column) % 8) =
      some (Frame.mask (row * screenWidth + column)) :=
    if_pos (Nat.mod_lt _ (by decide))
  simp only [flip, locate_eq, before, index, mask, Option.bind_eq_bind, Option.bind_some]
  rfl

/-- A sprite row can be drawn anywhere on the screen. -/
theorem drawRow_eq (drawn : Memory.Drawn) (sprite : UInt8) (x y row : Nat) (across : x < 256)
    (down : y + row < 512) :
    drawRow drawn sprite x y row = some (Memory.drawRow drawn sprite x (y + row)) := by
  apply foldlM_eq_some
  intro column member state
  have inByte : column < 8 := List.mem_range.mp member
  have mask : shiftRight 0x80 column = some (Frame.mask column) := by
    rw [shiftRight, if_pos inByte, Frame.mask, Nat.mod_eq_of_lt inByte]
    rfl
  have right := fit_near x column (by omega) (by omega)
  have below := fit_near y row (by omega) (by omega)
  have flipped := flip_eq state ((x + column) % screenWidth) ((y + row) % screenHeight)
    (Nat.mod_lt _ (by decide)) (Nat.mod_lt _ (by decide))
  simp only [mask, right, below, flipped, Option.bind_eq_bind, Option.bind_some]
  by_cases dark : sprite &&& Frame.mask column = 0
  · simp [Frame.lit, dark]
  · simp [Frame.lit, dark, Memory.pixelIndex]

/-- A sprite can be drawn from anywhere in memory and beyond. -/
theorem drawSprite_eq (memory : Memory) (start x y rows : Nat) (begins : start < words)
    (across : x < 256) (down : y < 256) (short : rows < 16) :
    drawSprite memory start x y rows = some (memory.drawSprite start x y rows) := by
  apply foldlM_eq_some
  intro row member state
  have inSprite : row < rows := List.mem_range.mp member
  have place := fit_near start row begins (by omega)
  have drawn := drawRow_eq state (state.memory.read (start + row)) x y row across (by omega)
  simp only [place, drawn, Option.bind_eq_bind, Option.bind_some]

end Chip8.Guarded
