import Chip8.Instruction.Opcode

/-!
# Families of opcodes

The first digit of an opcode names its family, and reading never moves an
instruction to another family. Where a family has a single member the digit
decides what is read; in family zero the final byte decides. Whatever the family,
an instruction is read from the opcode that is written for it.
-/

namespace Chip8.Instruction

/-- The first digit of an instruction's opcodes. -/
def family : Instruction → Nat
  | .nop | .clearScreen | .ret => 0x0
  | .jump _ => 0x1
  | .call _ => 0x2
  | .skip (.isByte _ _) => 0x3
  | .skip (.isNotByte _ _) => 0x4
  | .skip (.same _ _) => 0x5
  | .setByte _ _ => 0x6
  | .addByte _ _ => 0x7
  | .arithmetic _ _ _ => 0x8
  | .skip (.different _ _) => 0x9
  | .setIndex _ => 0xA
  | .jumpOffset _ => 0xB
  | .random _ _ => 0xC
  | .draw _ _ _ => 0xD
  | .skip (.keyDown _) | .skip (.keyUp _) => 0xE
  | _ => 0xF

/-- What is read without operands is of family zero. -/
theorem family_of_plain? (code : Nat) (instruction : Instruction)
    (read : plain? code = some instruction) : instruction.family = 0x0 := by
  unfold plain? at read
  split at read <;> cases read <;> rfl

/-- The skips on keys are one family. -/
theorem family_of_keySkip? (x : Register) (code : Nat) (instruction : Instruction)
    (read : keySkip? x code = some instruction) : instruction.family = 0xE := by
  unfold keySkip? at read
  split at read <;> cases read <;> rfl

/-- The instructions on one register are one family. -/
theorem family_of_single? (x : Register) (code : Nat) (instruction : Instruction)
    (read : single? x code = some instruction) : instruction.family = 0xF := by
  unfold single? at read
  split at read <;> cases read <;> rfl

/-- An opcode is read as a member of the family that its first digit names. -/
theorem family_of_decode? (opcode : UInt16) (instruction : Instruction)
    (read : decode? opcode = some instruction) :
    instruction.family = opcode.toNat / 4096 := by
  unfold decode? at read
  dsimp only at read
  -- The cases are the digits in order; the last one stands for no digit at all.
  split at read
  case h_17 => cases read
  all_goals rename_i digit; rw [digit]
  case h_1 => exact family_of_plain? _ _ read
  case h_6 =>
    split at read <;> cases read
    rfl
  case h_9 =>
    obtain ⟨operation, _, rfl⟩ := Option.map_eq_some_iff.mp read
    rfl
  case h_10 =>
    split at read <;> cases read
    rfl
  case h_15 => exact family_of_keySkip? _ _ _ read
  case h_16 => exact family_of_single? _ _ _ read
  all_goals
    cases read
    rfl

/-- One final byte means a return. -/
theorem plain?_eq_ret (code : Nat) : plain? code = some .ret ↔ code = 0xEE := by
  unfold plain?
  split <;> simp_all

/-- The opcodes of a return, whatever their second digit. -/
theorem decode?_eq_ret (opcode : UInt16) :
    decode? opcode = some .ret ↔ opcode.toNat / 4096 = 0x0 ∧ opcode.toNat % 256 = 0xEE := by
  constructor
  · intro read
    have digit : opcode.toNat / 4096 = 0x0 := (family_of_decode? opcode .ret read).symm
    have plain : plain? (opcode.toNat % 256) = some .ret := by simpa [decode?, digit] using read
    exact ⟨digit, (plain?_eq_ret _).mp plain⟩
  · rintro ⟨digit, code⟩
    simp [decode?, digit, code, plain?]

/-- A first digit alone means a call. -/
theorem decode?_eq_call (opcode : UInt16) :
    (∃ target, decode? opcode = some (.call target)) ↔ opcode.toNat / 4096 = 0x2 := by
  constructor
  · rintro ⟨target, read⟩
    exact (family_of_decode? opcode _ read).symm
  · intro digit
    exact ⟨.ofNat 4096 opcode.toNat, by simp [decode?, digit]⟩

/-- A first digit alone means a random instruction. -/
theorem decode?_of_random (opcode : UInt16) (digit : opcode.toNat / 4096 = 0xC) :
    decode? opcode = some (.random (.ofNat 16 (opcode.toNat / 256)) (.ofNat opcode.toNat)) := by
  simp [decode?, digit]

/-- The instruction draws a sprite. -/
def isDraw : Instruction → Bool
  | .draw _ _ _ => true
  | _ => false

/-- A first digit alone means that a sprite is drawn. -/
theorem any_isDraw (opcode : UInt16) :
    (decode? opcode).any isDraw = (opcode.toNat / 4096 == 0xD) := by
  by_cases digit : opcode.toNat / 4096 = 0xD
  · simp [decode?, digit, isDraw]
  · cases read : decode? opcode with
    | none => simp [digit]
    | some instruction =>
      have other : instruction.family ≠ 0xD := by
        rwa [family_of_decode? opcode instruction read]
      have plain : instruction.isDraw = false := by
        cases instruction with
        | draw x y rows => exact absurd rfl other
        | _ => rfl
      simp [digit, plain]

/-! ## Reading what was written -/

/-- The number of an opcode that is written with a family, a register and a final byte. -/
theorem toNat_registerByte (family : Nat) (x : Register) (byte : Nat) (known : family < 16)
    (final : byte < 256) :
    (registerByte family x byte).toNat = 4096 * family + 256 * x.val + byte := by
  have fits : 4096 * family + 256 * x.val + byte < 65536 := by omega
  rw [registerByte, UInt16.toNat_ofNat', Nat.mod_eq_of_lt fits]

/-- The number of an opcode that is written with a family, two registers and a digit. -/
theorem toNat_registerPair (family : Nat) (x y : Register) (digit : Nat) (known : family < 16)
    (final : digit < 16) :
    (registerPair family x y digit).toNat =
      4096 * family + 256 * x.val + 16 * y.val + digit := by
  have fits : 4096 * family + 256 * x.val + 16 * y.val + digit < 65536 := by omega
  rw [registerPair, UInt16.toNat_ofNat', Nat.mod_eq_of_lt fits]

/-- The number of an opcode that is written with a family and an address. -/
theorem toNat_familyAddress (family : Nat) (address : Address) (known : family < 16) :
    (familyAddress family address).toNat = 4096 * family + address.val := by
  have fits : 4096 * family + address.val < 65536 := by omega
  rw [familyAddress, UInt16.toNat_ofNat', Nat.mod_eq_of_lt fits]

/-- The digits of an opcode with a final byte. -/
theorem read_registerByte (family : Nat) (x : Register) (byte : Nat) (known : family < 16)
    (final : byte < 256) :
    (registerByte family x byte).toNat / 4096 = family ∧
      Fin.ofNat 16 ((registerByte family x byte).toNat / 256) = x ∧
      (registerByte family x byte).toNat % 256 = byte := by
  rw [toNat_registerByte family x byte known final]
  refine ⟨by omega, Fin.ext ?_, by omega⟩
  show _ % 16 = _
  omega

/-- The digits of an opcode with two registers. -/
theorem read_registerPair (family : Nat) (x y : Register) (digit : Nat) (known : family < 16)
    (final : digit < 16) :
    (registerPair family x y digit).toNat / 4096 = family ∧
      Fin.ofNat 16 ((registerPair family x y digit).toNat / 256) = x ∧
      Fin.ofNat 16 ((registerPair family x y digit).toNat / 16) = y ∧
      (registerPair family x y digit).toNat % 16 = digit := by
  rw [toNat_registerPair family x y digit known final]
  refine ⟨by omega, Fin.ext ?_, Fin.ext ?_, by omega⟩
  · show _ % 16 = _
    omega
  · show _ % 16 = _
    omega

/-- The number of rows in an opcode with two registers. -/
theorem ofNat_registerPair (family : Nat) (x y : Register) (rows : Fin 16) (known : family < 16) :
    Fin.ofNat 16 (registerPair family x y rows.val).toNat = rows :=
  Fin.ext (read_registerPair family x y rows.val known rows.isLt).2.2.2

/-- The digits of an opcode with an address. -/
theorem read_familyAddress (family : Nat) (address : Address) (known : family < 16) :
    (familyAddress family address).toNat / 4096 = family ∧
      Fin.ofNat 4096 (familyAddress family address).toNat = address := by
  rw [toNat_familyAddress family address known]
  refine ⟨by omega, Fin.ext ?_⟩
  show _ % 4096 = _
  omega

/-- The final byte of an opcode with one. -/
theorem ofNat_registerByte (family : Nat) (x : Register) (byte : UInt8) (known : family < 16) :
    UInt8.ofNat (registerByte family x byte.toNat).toNat = byte := by
  obtain ⟨_, _, final⟩ := read_registerByte family x byte.toNat known byte.toNat_lt
  rw [← UInt8.toNat_inj, UInt8.toNat_ofNat']
  exact final

/-- The digit of an operation means the operation. -/
theorem ofDigit?_digit (operation : Operation) :
    Operation.ofDigit? operation.digit = some operation ∧ operation.digit < 16 := by
  cases operation <;> exact ⟨rfl, by decide⟩

/-- An instruction is read from the opcode that is written for it. -/
theorem decode?_encode (instruction : Instruction) :
    decode? instruction.encode = some instruction := by
  cases instruction with
  | nop | clearScreen | ret => rfl
  | jump target | call target | setIndex target | jumpOffset target =>
    simp (disch := decide) only [encode, decode?, read_familyAddress]
  | setByte x byte | addByte x byte | random x byte =>
    have final := byte.toNat_lt
    simp (disch := omega) only [encode, decode?, read_registerByte, ofNat_registerByte]
  | skip condition =>
    cases condition with
    | isByte x byte | isNotByte x byte =>
      have final := byte.toNat_lt
      simp (disch := omega) only [encode, decode?, read_registerByte, ofNat_registerByte]
    | same x y | different x y =>
      simp (disch := decide) only [encode, decode?, read_registerPair, if_true]
    | keyDown x | keyUp x =>
      simp (disch := decide) only [encode, decode?, read_registerByte, keySkip?]
  | arithmetic operation x y =>
    obtain ⟨means, small⟩ := ofDigit?_digit operation
    simp (disch := omega) only [encode, decode?, read_registerPair, means, Option.map_some]
  | draw x y rows =>
    simp (disch := omega) only [encode, decode?, read_registerPair, ofNat_registerPair]
  | readDelay x | awaitKey x | setDelay x | setSound x | storeDigits x | storeRegisters x
  | loadRegisters x | saveFlags x | restoreFlags x | addToIndex x | pointAtGlyph x =>
    simp (disch := decide) only [encode, decode?, read_registerByte, single?]

end Chip8.Instruction
