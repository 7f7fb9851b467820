import Chip8.Machine.Basic
import Chip8.Text.Numeral

/-!
# The written form of the flag registers

Flag registers are kept as a text: a list of decimal numbers below 256 in
brackets, with commas between them. Writing gives all sixteen numbers and no
spaces. Reading takes any number of them up to sixteen, the registers without a
number being zero, and allows spaces, tabs and line ends around every bracket,
number and comma. A number has no sign and no leading zero.

The reader is a finite walk: a `Place` says what has been read of the list's
form and decides what may come next.
-/

namespace Chip8

/-- Why a text is not the written form of flag registers. -/
inductive ListingError where
  /-- It is no list of bytes. -/
  | malformed
  /-- It is a list of bytes, but a longer one than there are registers. -/
  | tooMany (count : Nat)
deriving DecidableEq, Repr

namespace Listing

/-- Where in a list a reader stands. -/
inductive Place where
  /-- Before the opening bracket. -/
  | start
  /-- After the opening bracket. -/
  | opened
  /-- After a comma, where a number must follow. -/
  | due
  /-- Within a number whose digits so far have this value. -/
  | number (value : Nat)
  /-- After a number and a blank. -/
  | after
  /-- After the closing bracket. -/
  | closed
deriving DecidableEq, Repr

/-- The characters allowed between the parts of a list. -/
def isSpace (character : Char) : Bool :=
  character == ' ' || character == '\t' || character == '\n' || character == '\r'

/-- The place after a digit in a number, if the number may go on with it: a zero
stands alone, and no byte is greater than 255. -/
def extend? (value digit : Nat) : Option Place :=
  if value ≠ 0 ∧ 10 * value + digit < 256 then some (.number (10 * value + digit)) else none

/-- The place after a character; `none` where it may not come. -/
def Place.next? (place : Place) (character : Char) : Option Place :=
  match place with
  | start =>
    if isSpace character then some start
    else if character = '[' then some opened
    else none
  | opened =>
    if isSpace character then some opened
    else if character = ']' then some closed
    else (Text.digit? character).map number
  | due =>
    if isSpace character then some due
    else (Text.digit? character).map number
  | number value =>
    if isSpace character then some after
    else if character = ',' then some due
    else if character = ']' then some closed
    else (Text.digit? character).bind (extend? value)
  | after =>
    if isSpace character then some after
    else if character = ',' then some due
    else if character = ']' then some closed
    else none
  | closed => if isSpace character then some closed else none

/-- The number that is complete when the walk goes on from one place to
another. -/
def Place.completed? : Place → Place → Option UInt8
  | number _, number _ => none
  | number value, _ => some (.ofNat value)
  | _, _ => none

/-- Walk on from a place to the end of the text, collecting the numbers. The
text must end outside the brackets. -/
def walk (place : Place) (values : Array UInt8) : List Char → Option (List UInt8)
  | [] => if place = .closed then some values.toList else none
  | character :: rest => match place.next? character with
    | none => none
    | some next => match place.completed? next with
      | none => walk next values rest
      | some value => walk next (values.push value) rest

/-- Read a list of bytes. -/
def read? (characters : List Char) : Option (List UInt8) := walk .start #[] characters

/-- The registers with the given first values and zero for the rest. -/
def fill (values : List UInt8) : Registers := .ofFn fun r => values[r.val]?.getD 0

/-- Read flag registers. Whether there are too many is asked of whole lists only. -/
def decode (text : String) : Except ListingError Registers :=
  match read? text.toList with
  | none => .error .malformed
  | some values =>
    if values.length ≤ 16 then .ok (fill values) else .error (.tooMany values.length)

/-- The decimal digits of a byte. -/
def written (value : UInt8) : List Char := Nat.toDigits 10 value.toNat

/-- The numbers of a list and its closing bracket. -/
def writeRest : List UInt8 → List Char
  | [] => [']']
  | [value] => written value ++ [']']
  | value :: rest => written value ++ ',' :: writeRest rest

/-- Write flag registers. -/
def encode (flags : Registers) : String := .ofList ('[' :: writeRest flags.toList)

end Listing

end Chip8
