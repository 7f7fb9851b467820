/-!
# Numerals

Reading decimal digits as a number, and writing a word with four hexadecimal
digits.
-/

namespace Chip8.Text

/-- The value of a decimal digit. Only `0` to `9` are digits. -/
def digit? (character : Char) : Option Nat :=
  if '0' ≤ character ∧ character ≤ '9' then some (character.toNat - '0'.toNat) else none

/-- Read digits behind those whose value is given. -/
def digitsValue? (value : Nat) : List Char → Option Nat
  | [] => some value
  | character :: rest => match digit? character with
    | none => none
    | some digit => digitsValue? (10 * value + digit) rest

/-- Read one or more digits, leading zeros allowed. -/
def numeral? : List Char → Option Nat
  | [] => none
  | characters => digitsValue? 0 characters

/-- Read a numeral that may have a plus sign in front. -/
def unsigned? : List Char → Option Nat
  | '+' :: rest => numeral? rest
  | characters => numeral? characters

/-- Read a numeral that may have a sign in front. -/
def signed? : List Char → Option Int
  | '-' :: rest => (numeral? rest).map fun value => -(value : Int)
  | characters => (unsigned? characters).map Int.ofNat

/-- A word in four upper case hexadecimal digits. -/
def hexadecimal (word : UInt16) : String :=
  .ofList ([4096, 256, 16, 1].map fun place =>
    (Nat.digitChar (word.toNat / place % 16)).toUpper)

end Chip8.Text
