/-
  Chip8.Font

  The built-in font: one glyph of five rows for each hexadecimal digit. The high
  four bits of a row are its pixels, the leftmost in the highest bit.
-/

namespace Chip8.Font

/-- Address of the first byte of the font. -/
def base : Nat := 0x50

/-- Rows in one glyph. -/
def glyphHeight : Nat := 5

/-- Bytes in the whole font. -/
def size : Nat := 16 * glyphHeight

/-- The address of the glyph for `digit`. -/
def glyphAddress (digit : Fin 16) : Nat :=
  base + digit * glyphHeight

/-- The glyphs of the sixteen digits, in order. -/
def bytes : Vector UInt8 size :=
  #v[0xF0, 0x90, 0x90, 0x90, 0xF0, -- 0
     0x20, 0x60, 0x20, 0x20, 0x70, -- 1
     0xF0, 0x10, 0xF0, 0x80, 0xF0, -- 2
     0xF0, 0x10, 0xF0, 0x10, 0xF0, -- 3
     0x90, 0x90, 0xF0, 0x10, 0x10, -- 4
     0xF0, 0x80, 0xF0, 0x10, 0xF0, -- 5
     0xF0, 0x80, 0xF0, 0x90, 0xF0, -- 6
     0xF0, 0x10, 0x20, 0x40, 0x40, -- 7
     0xF0, 0x90, 0xF0, 0x90, 0xF0, -- 8
     0xF0, 0x90, 0xF0, 0x10, 0xF0, -- 9
     0xF0, 0x90, 0xF0, 0x90, 0x90, -- A
     0xE0, 0x90, 0xE0, 0x90, 0xE0, -- B
     0xF0, 0x80, 0x80, 0x80, 0xF0, -- C
     0xE0, 0x90, 0x90, 0x90, 0xE0, -- D
     0xF0, 0x80, 0xF0, 0x80, 0xF0, -- E
     0xF0, 0x80, 0xF0, 0x80, 0x80] -- F

end Chip8.Font
