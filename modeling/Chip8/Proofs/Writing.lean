import Chip8.Proofs.Grammar

/-!
# Written flag registers

What is written is a list of the grammar, with the sixteen registers as its values and no
blanks. So it is read back as what was written, whatever the registers hold, and reading
any text and writing what was read gives that text its plain form, which stays as it is
from then on.
-/

namespace Chip8.Listing

/-- Only the numeral of zero begins with a zero. -/
theorem eq_zero_of_leading_zero (number : Nat)
    (leading : (Nat.toDigits 10 number).head? = some '0') : number = 0 := by
  induction number using Nat.strongRecOn with
  | ind number inductionHypothesis =>
    by_cases single : number < 10
    · rw [Nat.toDigits_of_lt_base single] at leading
      exact Nat.digitChar_eq_zero.mp (Option.some.inj leading)
    · have digits : (Nat.toDigits 10 (number / 10)).head? = some '0' := by
        rw [Nat.toDigits_of_base_le (by decide) (Nat.le_of_not_lt single)] at leading
        cases front : Nat.toDigits 10 (number / 10) with
        | nil => exact absurd front Nat.toDigits_ne_nil
        | cons digit rest =>
          rw [front] at leading
          exact leading
      have front : number / 10 = 0 := inductionHypothesis (number / 10) (by omega) digits
      omega

/-- A byte is written as its numeral. -/
theorem numeral_written (value : UInt8) : Numeral (written value) value where
  nonempty := Nat.toDigits_ne_nil
  decimal := fun _ among => Nat.isDigit_of_mem_toDigits (by decide) (by decide) among
  plain := by
    intro leading
    rw [written, eq_zero_of_leading_zero value.toNat leading]
    exact Nat.toDigits_zero 10
  value := Nat.ofDigitChars_ten_toDigits

/-- So it is an element without blanks. -/
theorem element_written (value : UInt8) : Element (written value) value := by
  have bare : Element ([] ++ (written value ++ [])) value :=
    .padded blank_nil (numeral_written value) blank_nil
  rwa [List.append_nil] at bare

/-- Numbers are written as elements, and a bracket behind them. -/
theorem writeRest_eq (values : List UInt8) (some : values ≠ []) :
    ∃ elements, writeRest values = elements ++ [']'] ∧ Elements elements values := by
  fun_induction writeRest values with
  | case1 => exact absurd rfl some
  | case2 value => exact ⟨written value, rfl, .single (element_written value)⟩
  | case3 value rest more inductionHypothesis =>
    obtain ⟨elements, same, listed⟩ := inductionHypothesis more
    refine ⟨written value ++ ',' :: elements, ?_, .cons (element_written value) listed⟩
    rw [same]
    simp

/-- What is written is a list of the registers. -/
theorem listed_encode (flags : Registers) : Listed (encode flags).toList flags.toList := by
  have some : flags.toList ≠ [] := by
    intro none
    have count : flags.toList.length = 16 := Vector.length_toList
    rw [none] at count
    cases count
  obtain ⟨elements, same, listed⟩ := writeRest_eq flags.toList some
  rw [encode, String.toList_ofList, same]
  show Listed ([] ++ '[' :: (elements ++ ']' :: [])) flags.toList
  exact .bracketed blank_nil (.filled listed) blank_nil

/-- Filling in all values of registers gives these registers. -/
theorem fill_toList (flags : Registers) : fill flags.toList = flags := by
  refine ((eq_fill_iff flags flags.toList).mpr fun r => ?_).symm
  have inside : r.val < flags.toList.length := by simp
  rw [List.getElem?_eq_getElem inside, Option.getD_some, Vector.getElem_toList]
  rfl

/-- Registers are read as they were written. -/
theorem decode_encode (flags : Registers) : decode (encode flags) = .ok flags := by
  have few : flags.toList.length ≤ 16 := Nat.le_of_eq (Vector.length_toList)
  refine (decode_eq_iff _ _).mpr (.inl ⟨flags.toList, listed_encode flags, .inl ⟨few, ?_⟩⟩)
  rw [fill_toList]

/-- The plain form of a text: what it is read as, written down again. -/
def normalize (text : String) : Except ListingError String := (decode text).map encode

/-- Registers are written as a list of what they hold, and this text is read as these
registers again. So different registers have different texts, and what is written of what
was read of such a text is that text. Whatever a text is read as is read again from what is
written of it, and the plain form of a text has no other plain form than itself. -/
theorem encode_section :
    (∀ flags, Listed (encode flags).toList flags.toList ∧ decode (encode flags) = .ok flags ∧
      normalize (encode flags) = .ok (encode flags)) ∧
    (∀ flags other, encode flags = encode other → flags = other) ∧
    ∀ text flags, decode text = .ok flags →
      decode (encode flags) = .ok flags ∧ normalize text = .ok (encode flags) ∧
        (normalize text).bind normalize = normalize text := by
  have stays (flags : Registers) : normalize (encode flags) = .ok (encode flags) := by
    rw [normalize, decode_encode]
    rfl
  refine ⟨fun flags => ⟨listed_encode flags, decode_encode flags, stays flags⟩, ?_, ?_⟩
  · intro flags other same
    have read := decode_encode flags
    rw [same, decode_encode other] at read
    exact (Except.ok.inj read).symm
  · intro text flags read
    have plain : normalize text = .ok (encode flags) := by
      rw [normalize, read]
      rfl
    refine ⟨decode_encode flags, plain, ?_⟩
    rw [plain]
    exact stays flags

/-- A text with blanks and fewer numbers than there are registers has another plain form. -/
theorem encode_section_blanks :
    decode "[7 , 80]" = .ok (fill [7, 80]) ∧
      normalize "[7 , 80]" = .ok "[7,80,0,0,0,0,0,0,0,0,0,0,0,0,0,0]" := by
  have read : decode "[7 , 80]" = .ok (fill [7, 80]) := by rfl
  have written : encode (fill [7, 80]) = "[7,80,0,0,0,0,0,0,0,0,0,0,0,0,0,0]" := by rfl
  refine ⟨read, ?_⟩
  rw [(encode_section.2.2 _ _ read).2.1, written]

end Chip8.Listing
