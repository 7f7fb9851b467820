/-!
# Blank characters

The characters with the Unicode property `White_Space`: six controls, the eleven
spaces of different widths that follow each other, and eight others. Trimming
takes them away from both ends of a text.
-/

namespace Chip8.Text

/-- The character is white space. -/
def isBlank (character : Char) : Bool :=
  let code := character.toNat
  (0x0009 ≤ code && code ≤ 0x000D) || code == 0x0020 || code == 0x0085 || code == 0x00A0 ||
    code == 0x1680 || (0x2000 ≤ code && code ≤ 0x200A) || code == 0x2028 || code == 0x2029 ||
    code == 0x202F || code == 0x205F || code == 0x3000

/-- The characters without the white space at either end. -/
def trim (characters : List Char) : List Char :=
  ((characters.dropWhile isBlank).reverse.dropWhile isBlank).reverse

end Chip8.Text
