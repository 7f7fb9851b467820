import Chip8.Random.Block

/-!
# The random generator

A generator is a key and a position in the endless sequence of words that the
key determines: the blocks in order, each word by word. Drawing a byte takes
one whole word, so the byte at a position depends on nothing else.
-/

namespace Chip8

namespace Random

/-- One step of the congruential sequence that spreads a seed over a key. -/
def spread (state : UInt64) : UInt64 :=
  state * 6364136223846793005 + 11634580027462260723

/-- The key word of a state of that sequence: its upper bits folded together,
then turned right by its topmost five bits. -/
def keyWord (state : UInt64) : UInt32 :=
  let folded := (((state >>> 18) ^^^ state) >>> 27).toUInt32
  let places := (state >>> 59).toUInt32
  if places = 0 then folded else rotateLeft folded (32 - places)

/-- The key words of the given number of states after this one. -/
def keyWords (state : UInt64) : (count : Nat) → Vector UInt32 count
  | 0 => #v[]
  | count + 1 => (keyWords state count).push (keyWord (Nat.repeat spread (count + 1) state))

/-- The key a seed stands for. -/
def keyOfSeed (seed : UInt64) : Key := keyWords seed 8

/-- The word at a position of a key's sequence. -/
def word (key : Key) (position : Nat) : UInt32 :=
  (block key (position / 16)).get (Fin.ofNat 16 position)

end Random

/-- A source of random bytes, all of them fixed by its key. -/
structure Generator where
  key : Random.Key
  position : Nat
deriving DecidableEq, Repr

namespace Generator

/-- The generator that a seed starts. -/
def ofSeed (seed : UInt64) : Generator := ⟨Random.keyOfSeed seed, 0⟩

/-- The low byte of the word at the position, and the generator one word on. -/
def next (generator : Generator) : UInt8 × Generator :=
  ((Random.word generator.key generator.position).toUInt8,
    { generator with position := generator.position + 1 })

end Generator

end Chip8
