import Chip8.Bounds

/-!
# Blocks of random words

A keyed function from block numbers to blocks of sixteen words: a four by four
table of words, made of a constant row, two rows of key and a row with the
number, is stirred in twelve rounds and added to what it was before. Each round
stirs either the four columns or the four diagonals.
-/

namespace Chip8.Random

/-- The words that set one sequence of blocks apart from all others. -/
abbrev Key := Vector UInt32 8

/-- Sixteen words, row by row. -/
abbrev Block := Vector UInt32 16

/-- Turn a word to the left by fewer than 32 places. -/
def rotateLeft (word : UInt32) (places : UInt32) : UInt32 :=
  (word <<< places) ||| (word >>> (32 - places))

/-- Stir four words of a block, named by their places. -/
def stir (block : Block) (a b c d : Fin 16) : Block :=
  let wa := block[a]
  let wb := block[b]
  let wc := block[c]
  let wd := block[d]
  let wa := wa + wb
  let wd := rotateLeft (wd ^^^ wa) 16
  let wc := wc + wd
  let wb := rotateLeft (wb ^^^ wc) 12
  let wa := wa + wb
  let wd := rotateLeft (wd ^^^ wa) 8
  let wc := wc + wd
  let wb := rotateLeft (wb ^^^ wc) 7
  (((block.set a wa).set b wb).set c wc).set d wd

/-- One round on the columns and one on the diagonals. -/
def doubleRound (block : Block) : Block :=
  let block := stir block 0 4 8 12
  let block := stir block 1 5 9 13
  let block := stir block 2 6 10 14
  let block := stir block 3 7 11 15
  let block := stir block 0 5 10 15
  let block := stir block 1 6 11 12
  let block := stir block 2 7 8 13
  stir block 3 4 9 14

/-- So many double rounds, one after the other. -/
def doubleRounds : Nat → Block → Block
  | 0, block => block
  | count + 1, block => doubleRounds count (doubleRound block)

/-- The table before it is stirred: four constant words, the key, the number's
low and high word, and two zeros. -/
def unstirred (key : Key) (number : Nat) : Block :=
  #v[0x61707865, 0x3320646E, 0x79622D32, 0x6B206574,
    key[0], key[1], key[2], key[3], key[4], key[5], key[6], key[7],
    .ofNat number, .ofNat (number / UInt32.size), 0, 0]

/-- The block with a number. -/
def block (key : Key) (number : Nat) : Block :=
  let start := unstirred key number
  Vector.zipWith (· + ·) start (doubleRounds 6 start)

end Chip8.Random
