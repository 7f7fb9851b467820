import Chip8.Proofs.Endings
import Chip8.Proofs.Guards

/-!
# Patterns of opcodes

The instruction set is usually given as a table of patterns such as `8XY4`: four places, of
which some hold a digit that is always the same and the others the digits of operands. In
family zero one place means nothing. Here every instruction has its pattern, with the digits
of its own operands filled in, and the table says nothing of how opcodes are written or read.
An opcode is written by putting zero where nothing is meant. It is read as an instruction
exactly where it spells the instruction's pattern, so every operand is found at its place,
and it is refused exactly where it fits no pattern, whatever the operands.
-/

namespace Chip8

/-- What stands at a place of a pattern. -/
inductive Place where
  /-- The same digit in all opcodes of the pattern. -/
  | fixed (digit : Nat)
  /-- A digit of an operand. -/
  | operand (digit : Nat)
  /-- A digit that means nothing. -/
  | free

namespace Place

/-- The digit that is written at the place. -/
def written : Place → Nat
  | fixed digit | operand digit => digit
  | free => 0

/-- The digit is the one that stands at the place. -/
def Holds : Place → Nat → Prop
  | fixed digit, found | operand digit, found => found = digit
  | free, _ => True

/-- The digit can stand at the place, with one operand or another. -/
def Admits : Place → Nat → Prop
  | fixed digit, found => found = digit
  | operand _, _ | free, _ => True

/-- Where something is meant, only what is written holds. -/
theorem Holds.eq_written {place : Place} {digit : Nat} (holds : place.Holds digit)
    (meant : place ≠ free) : digit = place.written := by
  cases place with
  | fixed known | operand known => exact holds
  | free => exact absurd rfl meant

/-- The digit that stands at a place can stand there. -/
theorem Holds.admits {place : Place} {digit : Nat} (holds : place.Holds digit) :
    place.Admits digit := by
  cases place with
  | fixed known => exact holds
  | operand _ | free => trivial

end Place

/-- Four places. -/
structure Pattern where
  first : Place
  second : Place
  third : Place
  fourth : Place

namespace Pattern

/-- The number that is written with the digits of a pattern. -/
def number (pattern : Pattern) : Nat :=
  4096 * pattern.first.written + 256 * pattern.second.written + 16 * pattern.third.written +
    pattern.fourth.written

/-- The digits of an opcode are those of the pattern. -/
structure Spells (pattern : Pattern) (opcode : UInt16) : Prop where
  first : pattern.first.Holds (opcode.toNat / 4096)
  second : pattern.second.Holds (opcode.toNat / 256 % 16)
  third : pattern.third.Holds (opcode.toNat / 16 % 16)
  fourth : pattern.fourth.Holds (opcode.toNat % 16)

/-- The digits of an opcode are those of the pattern with some operands. -/
structure Fits (pattern : Pattern) (opcode : UInt16) : Prop where
  first : pattern.first.Admits (opcode.toNat / 4096)
  second : pattern.second.Admits (opcode.toNat / 256 % 16)
  third : pattern.third.Admits (opcode.toNat / 16 % 16)
  fourth : pattern.fourth.Admits (opcode.toNat % 16)

/-- Something is meant at every place of the pattern. -/
structure Full (pattern : Pattern) : Prop where
  first : pattern.first ≠ .free := by nofun
  second : pattern.second ≠ .free := by nofun
  third : pattern.third ≠ .free := by nofun
  fourth : pattern.fourth ≠ .free := by nofun

/-- Only what is written spells a pattern without free places. -/
theorem Spells.toNat_eq {pattern : Pattern} {opcode : UInt16} (spells : pattern.Spells opcode)
    (full : pattern.Full) : opcode.toNat = pattern.number := by
  have first := spells.first.eq_written full.first
  have second := spells.second.eq_written full.second
  have third := spells.third.eq_written full.third
  have fourth := spells.fourth.eq_written full.fourth
  rw [number, ← first, ← second, ← third, ← fourth]
  omega

/-- What spells a pattern fits it. -/
theorem Spells.fits {pattern : Pattern} {opcode : UInt16} (spells : pattern.Spells opcode) :
    pattern.Fits opcode where
  first := spells.first.admits
  second := spells.second.admits
  third := spells.third.admits
  fourth := spells.fourth.admits

end Pattern

namespace Instruction

open Place

/-- The pattern of an instruction, filled in with its operands. -/
def pattern : Instruction → Pattern
  | .nop => ⟨fixed 0x0, free, fixed 0x0, fixed 0x0⟩
  | .clearScreen => ⟨fixed 0x0, free, fixed 0xE, fixed 0x0⟩
  | .ret => ⟨fixed 0x0, free, fixed 0xE, fixed 0xE⟩
  | .jump target => onAddress 0x1 target
  | .call target => onAddress 0x2 target
  | .skip (.isByte x byte) => onByte 0x3 x byte
  | .skip (.isNotByte x byte) => onByte 0x4 x byte
  | .skip (.same x y) => ⟨fixed 0x5, operand x, operand y, fixed 0x0⟩
  | .setByte x byte => onByte 0x6 x byte
  | .addByte x byte => onByte 0x7 x byte
  | .arithmetic operation x y => ⟨fixed 0x8, operand x, operand y, fixed operation.digit⟩
  | .skip (.different x y) => ⟨fixed 0x9, operand x, operand y, fixed 0x0⟩
  | .setIndex address => onAddress 0xA address
  | .jumpOffset base => onAddress 0xB base
  | .random x mask => onByte 0xC x mask
  | .draw x y rows => ⟨fixed 0xD, operand x, operand y, operand rows⟩
  | .skip (.keyDown x) => ⟨fixed 0xE, operand x, fixed 0x9, fixed 0xE⟩
  | .skip (.keyUp x) => ⟨fixed 0xE, operand x, fixed 0xA, fixed 0x1⟩
  | .readDelay x => ⟨fixed 0xF, operand x, fixed 0x0, fixed 0x7⟩
  | .awaitKey x => ⟨fixed 0xF, operand x, fixed 0x0, fixed 0xA⟩
  | .setDelay x => ⟨fixed 0xF, operand x, fixed 0x1, fixed 0x5⟩
  | .setSound x => ⟨fixed 0xF, operand x, fixed 0x1, fixed 0x8⟩
  | .addToIndex x => ⟨fixed 0xF, operand x, fixed 0x1, fixed 0xE⟩
  | .pointAtGlyph x => ⟨fixed 0xF, operand x, fixed 0x2, fixed 0x9⟩
  | .storeDigits x => ⟨fixed 0xF, operand x, fixed 0x3, fixed 0x3⟩
  | .storeRegisters x => ⟨fixed 0xF, operand x, fixed 0x5, fixed 0x5⟩
  | .loadRegisters x => ⟨fixed 0xF, operand x, fixed 0x6, fixed 0x5⟩
  | .saveFlags x => ⟨fixed 0xF, operand x, fixed 0x7, fixed 0x5⟩
  | .restoreFlags x => ⟨fixed 0xF, operand x, fixed 0x8, fixed 0x5⟩
where
  /-- A family and the three digits of an address. -/
  onAddress (family : Nat) (address : Address) : Pattern :=
    ⟨fixed family, operand (address.val / 256), operand (address.val / 16 % 16),
      operand (address.val % 16)⟩
  /-- A family, a register and the two digits of a byte. -/
  onByte (family : Nat) (x : Register) (byte : UInt8) : Pattern :=
    ⟨fixed family, operand x, operand (byte.toNat / 16), operand (byte.toNat % 16)⟩

/-! ## Writing -/

/-- An opcode is written by filling in the pattern. -/
theorem toNat_encode (instruction : Instruction) :
    instruction.encode.toNat = instruction.pattern.number := by
  cases instruction with
  | nop | clearScreen | ret => rfl
  | jump target | call target | setIndex target | jumpOffset target =>
    simp (disch := decide) only [encode, toNat_familyAddress, pattern, pattern.onAddress,
      Pattern.number, written]
    omega
  | setByte x byte | addByte x byte | random x byte =>
    have final := byte.toNat_lt
    simp (disch := omega) only [encode, toNat_registerByte, pattern, pattern.onByte,
      Pattern.number, written]
    omega
  | skip condition =>
    cases condition with
    | isByte x byte | isNotByte x byte =>
      have final := byte.toNat_lt
      simp (disch := omega) only [encode, toNat_registerByte, pattern, pattern.onByte,
        Pattern.number, written]
      omega
    | same x y | different x y =>
      simp (disch := decide) only [encode, toNat_registerPair, pattern, Pattern.number, written]
    | keyDown x | keyUp x =>
      simp (disch := decide) only [encode, toNat_registerByte, pattern, Pattern.number, written]
  | arithmetic operation x y =>
    have small := (ofDigit?_digit operation).2
    simp (disch := omega) only [encode, toNat_registerPair, pattern, Pattern.number, written]
  | draw x y rows =>
    simp (disch := omega) only [encode, toNat_registerPair, pattern, Pattern.number, written]
  | readDelay x | awaitKey x | setDelay x | setSound x | storeDigits x | storeRegisters x
  | loadRegisters x | saveFlags x | restoreFlags x | addToIndex x | pointAtGlyph x =>
    simp (disch := decide) only [encode, toNat_registerByte, pattern, Pattern.number, written]

/-! ## Reading -/

/-- What is read without operands spells its pattern. -/
theorem spells_of_plain? (opcode : UInt16) (instruction : Instruction)
    (digit : opcode.toNat / 4096 = 0x0) (read : plain? (opcode.toNat % 256) = some instruction) :
    instruction.pattern.Spells opcode := by
  unfold plain? at read
  split at read <;> cases read
  all_goals constructor <;> simp only [pattern, Holds] <;> omega

/-- A skip on a key spells its pattern. -/
theorem spells_of_keySkip? (opcode : UInt16) (x : Register) (instruction : Instruction)
    (digit : opcode.toNat / 4096 = 0xE) (second : opcode.toNat / 256 % 16 = x.val)
    (read : keySkip? x (opcode.toNat % 256) = some instruction) :
    instruction.pattern.Spells opcode := by
  unfold keySkip? at read
  split at read <;> cases read
  all_goals constructor <;> simp only [pattern, Holds] <;> omega

/-- An instruction on one register spells its pattern. -/
theorem spells_of_single? (opcode : UInt16) (x : Register) (instruction : Instruction)
    (digit : opcode.toNat / 4096 = 0xF) (second : opcode.toNat / 256 % 16 = x.val)
    (read : single? x (opcode.toNat % 256) = some instruction) :
    instruction.pattern.Spells opcode := by
  unfold single? at read
  split at read <;> cases read
  all_goals constructor <;> simp only [pattern, Holds] <;> omega

/-- Only the digit of an operation means the operation. -/
theorem digit_of_ofDigit? (digit : Nat) (operation : Operation)
    (means : Operation.ofDigit? digit = some operation) : operation.digit = digit := by
  unfold Operation.ofDigit? at means
  split at means <;> cases means <;> rfl

/-- An address that an opcode holds is found in its last three digits. -/
theorem spells_onAddress (opcode : UInt16) (family : Nat) (digit : opcode.toNat / 4096 = family) :
    (pattern.onAddress family (.ofNat 4096 opcode.toNat)).Spells opcode := by
  have held : (Fin.ofNat 4096 opcode.toNat).val = opcode.toNat % 4096 := rfl
  constructor <;> simp only [pattern.onAddress, Holds, held] <;> omega

/-- A register and a byte that an opcode holds are found in its last three digits. -/
theorem spells_onByte (opcode : UInt16) (family : Nat) (digit : opcode.toNat / 4096 = family) :
    (pattern.onByte family (.ofNat 16 (opcode.toNat / 256)) (.ofNat opcode.toNat)).Spells
      opcode := by
  have second : (Fin.ofNat 16 (opcode.toNat / 256)).val = opcode.toNat / 256 % 16 := rfl
  have final : (UInt8.ofNat opcode.toNat).toNat = opcode.toNat % 256 := UInt8.toNat_ofNat'
  constructor <;> simp only [pattern.onByte, Holds, second, final] <;> omega

/-- What is read spells the pattern. -/
theorem spells_of_decode? (opcode : UInt16) (instruction : Instruction)
    (read : decode? opcode = some instruction) : instruction.pattern.Spells opcode := by
  unfold decode? at read
  dsimp only at read
  -- The cases are the families in order; the last one stands for no digit at all.
  split at read
  case h_17 => cases read
  all_goals rename_i digit
  case h_1 => exact spells_of_plain? opcode instruction digit read
  case h_2 | h_3 | h_11 | h_12 =>
    cases read
    exact spells_onAddress opcode _ digit
  case h_4 | h_5 | h_7 | h_8 | h_13 =>
    cases read
    exact spells_onByte opcode _ digit
  case h_6 | h_10 =>
    split at read <;> cases read
    exact ⟨digit, rfl, rfl, ‹_›⟩
  case h_9 =>
    obtain ⟨operation, means, rfl⟩ := Option.map_eq_some_iff.mp read
    exact ⟨digit, rfl, rfl, (digit_of_ofDigit? _ operation means).symm⟩
  case h_14 =>
    cases read
    exact ⟨digit, rfl, rfl, rfl⟩
  case h_15 => exact spells_of_keySkip? opcode _ instruction digit rfl read
  case h_16 => exact spells_of_single? opcode _ instruction digit rfl read

/-- Only in family zero a place is free. -/
theorem full_pattern (instruction : Instruction) (meant : instruction.family ≠ 0x0) :
    instruction.pattern.Full := by
  cases instruction with
  | nop | clearScreen | ret => exact absurd rfl meant
  | skip condition => cases condition <;> exact {}
  | _ => exact {}

/-- The final byte of an opcode consists of its last two digits. -/
theorem final_byte (opcode : UInt16) :
    opcode.toNat % 256 = 16 * (opcode.toNat / 16 % 16) + opcode.toNat % 16 := by
  omega

/-- In family zero the final byte says what is read. -/
theorem decode?_of_plain (opcode : UInt16) (instruction : Instruction)
    (spells : instruction.pattern.Spells opcode) (plain : instruction.family = 0x0) :
    opcode.toNat % 256 = instruction.encode.toNat ∧ decode? opcode = some instruction := by
  obtain ⟨first, _, third, fourth⟩ := spells
  cases instruction with
  | nop | clearScreen | ret =>
    simp only [pattern, Holds] at first third fourth
    have final := final_byte opcode
    rw [third, fourth] at final
    simp only [decode?, first, final]
    exact ⟨rfl, rfl⟩
  | skip condition => cases condition <;> cases plain
  | _ => cases plain

/-- An opcode is read as the instruction whose pattern it spells, and as no other. -/
theorem decode?_eq_some_iff (opcode : UInt16) (instruction : Instruction) :
    decode? opcode = some instruction ↔ instruction.pattern.Spells opcode := by
  constructor
  · exact spells_of_decode? opcode instruction
  · intro spells
    by_cases plain : instruction.family = 0x0
    · exact (decode?_of_plain opcode instruction spells plain).2
    · have written : opcode = instruction.encode := by
        rw [← UInt16.toNat_inj, toNat_encode]
        exact spells.toNat_eq (full_pattern instruction plain)
      rw [written]
      exact decode?_encode instruction

/-- What fits a pattern is read, with the operands that it has. -/
theorem exists_of_fits (opcode : UInt16) (instruction : Instruction)
    (fits : instruction.pattern.Fits opcode) : ∃ known, decode? opcode = some known := by
  obtain ⟨first, _, third, fourth⟩ := fits
  have final := final_byte opcode
  -- The first digit names the family. Where a family has several members the fixed digits
  -- at the end are those of one of them.
  cases instruction with
  | nop | clearScreen | ret =>
    simp only [pattern, Admits] at first third fourth
    rw [third, fourth] at final
    simp only [decode?, first, final]
    exact ⟨_, rfl⟩
  | jump _ | call _ | setIndex _ | jumpOffset _ | setByte _ _ | addByte _ _ | random _ _
  | draw _ _ _ =>
    simp only [pattern, pattern.onAddress, pattern.onByte, Admits] at first
    simp only [decode?, first]
    exact ⟨_, rfl⟩
  | arithmetic operation _ _ =>
    simp only [pattern, Admits] at first fourth
    simp only [decode?, first, fourth, ofDigit?_digit]
    exact ⟨_, rfl⟩
  | skip condition =>
    cases condition with
    | isByte _ _ | isNotByte _ _ =>
      simp only [pattern, pattern.onByte, Admits] at first
      simp only [decode?, first]
      exact ⟨_, rfl⟩
    | same _ _ | different _ _ =>
      simp only [pattern, Admits] at first fourth
      simp only [decode?, first, fourth, if_true]
      exact ⟨_, rfl⟩
    | keyDown _ | keyUp _ =>
      simp only [pattern, Admits] at first third fourth
      rw [third, fourth] at final
      simp only [decode?, first, final]
      exact ⟨_, rfl⟩
  | _ =>
    simp only [pattern, Admits] at first third fourth
    rw [third, fourth] at final
    simp only [decode?, first, final]
    exact ⟨_, rfl⟩

/-- An opcode is not read where it fits no pattern. -/
theorem decode?_eq_none_iff (opcode : UInt16) :
    decode? opcode = none ↔ ∀ instruction : Instruction, ¬ instruction.pattern.Fits opcode := by
  constructor
  · intro refused instruction fits
    obtain ⟨known, read⟩ := exists_of_fits opcode instruction fits
    rw [refused] at read
    cases read
  · intro strange
    rw [Option.eq_none_iff_forall_ne_some]
    intro instruction read
    exact strange instruction (spells_of_decode? opcode instruction read).fits

/-- Reading opcodes is the inverse of writing them by the table of patterns. Every
instruction is written by filling in its pattern, with zero where nothing is meant, and is
read again. Every opcode is read as the instruction whose digits it has, operands included,
and as no other; so what is written for the instruction that was read is the opcode itself,
or, in family zero, the opcode with zero for its second digit. Operands that are cut out of
an opcode by shifts and masks are always in range, so the guards against others never fail.
An opcode that is not read fits no pattern, whatever the operands, and for want of a
pattern, and for no other reason, an opcode that a machine comes to is reported as invalid,
that very opcode. -/
theorem decode_inverts_patterns :
    (∀ instruction : Instruction, instruction.encode.toNat = instruction.pattern.number ∧
      decode? instruction.encode = some instruction) ∧
    (∀ (opcode : UInt16) (instruction : Instruction),
      decode? opcode = some instruction ↔ instruction.pattern.Spells opcode) ∧
    (∀ (opcode : UInt16) (instruction : Instruction), decode? opcode = some instruction →
      instruction.encode = opcode ∨
        (opcode.toNat / 4096 = 0x0 ∧ instruction.encode.toNat = opcode.toNat % 256)) ∧
    (∀ opcode : UInt16, Guarded.decode opcode = some (decode? opcode)) ∧
    (∀ opcode : UInt16, decode? opcode = none ↔
      ∀ instruction : Instruction, ¬ instruction.pattern.Fits opcode) ∧
    (∀ (machine : Machine) (generator : Generator) (opcode : UInt16),
      (machine.step generator).outcome = .error (.invalidOpcode opcode) ↔
        machine.Proceeds ∧ opcode = machine.opcode ∧
          ∀ instruction : Instruction, ¬ instruction.pattern.Fits opcode) := by
  refine ⟨fun instruction => ⟨toNat_encode instruction, decode?_encode instruction⟩,
    decode?_eq_some_iff, ?_, Guarded.decode_eq, decode?_eq_none_iff, ?_⟩
  · intro opcode instruction read
    have spells := spells_of_decode? opcode instruction read
    by_cases plain : instruction.family = 0x0
    · right
      rw [← family_of_decode? opcode instruction read]
      exact ⟨plain, (decode?_of_plain opcode instruction spells plain).1.symm⟩
    · left
      rw [← UInt16.toNat_inj, toNat_encode]
      exact (spells.toNat_eq (full_pattern instruction plain)).symm
  · intro machine generator opcode
    rw [Machine.outcome_invalidOpcode_iff, decode?_eq_none_iff]

/-- Where a place means nothing other opcodes are read than the one that is written. -/
example : decode? 0x03E0 = some .clearScreen ∧ clearScreen.encode = 0x00E0 := by decide

end Instruction

end Chip8
