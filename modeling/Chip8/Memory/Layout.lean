/-!
# The memory layout

One flat space of 4096 bytes holds everything a program can touch. The font
starts at address zero, the program at `0x200`, the call stack at `0xEA0` and
the picture at `0xF00`, up to the last byte. Nothing separates the areas: a
program that writes into the stack or the picture changes them.
-/

namespace Chip8

/-- The number of bytes of memory. -/
abbrev memorySize : Nat := 4096

/-- The font lies at the very start, sixteen glyphs one after the other. -/
abbrev fontStart : Nat := 0x000

/-- A glyph has five rows, one byte each. -/
abbrev glyphSize : Nat := 5

/-- The address a program is copied to and starts at. -/
abbrev programStart : Nat := 0x200

/-- The address of the first slot of the call stack. -/
abbrev stackStart : Nat := 0xEA0

/-- The call stack has room for this many return addresses, two bytes each. -/
abbrev stackSlots : Nat := 48

/-- The picture's place in memory. It ends where memory ends. -/
abbrev screenStart : Nat := 0xF00

/-- A picture has 64 columns, eight of them to a byte. -/
abbrev screenWidth : Nat := 64

/-- A picture has 32 rows. -/
abbrev screenHeight : Nat := 32

/-- The number of bytes of a whole picture. -/
abbrev screenSize : Nat := 256

/-- A screen kept outside memory is one byte short of a whole picture. -/
abbrev detachedSize : Nat := 255

/-- A program of at least this length would reach the picture and is not copied. -/
abbrev programLimit : Nat := screenStart - programStart

/-- The glyphs of the hexadecimal digits `0` to `F`, the leftmost pixel in the
highest bit. -/
def font : List UInt8 :=
  [0xF0, 0x90, 0x90, 0x90, 0xF0,
   0x20, 0x60, 0x20, 0x20, 0x70,
   0xF0, 0x10, 0xF0, 0x80, 0xF0,
   0xF0, 0x10, 0xF0, 0x10, 0xF0,
   0x90, 0x90, 0xF0, 0x10, 0x10,
   0xF0, 0x80, 0xF0, 0x10, 0xF0,
   0xF0, 0x80, 0xF0, 0x90, 0xF0,
   0xF0, 0x10, 0x20, 0x40, 0x40,
   0xF0, 0x90, 0xF0, 0x90, 0xF0,
   0xF0, 0x90, 0xF0, 0x10, 0xF0,
   0xF0, 0x90, 0xF0, 0x90, 0x90,
   0xE0, 0x90, 0xE0, 0x90, 0xE0,
   0xF0, 0x80, 0x80, 0x80, 0xF0,
   0xE0, 0x90, 0x90, 0x90, 0xE0,
   0xF0, 0x80, 0xF0, 0x80, 0xF0,
   0xF0, 0x80, 0xF0, 0x80, 0x80]

end Chip8
