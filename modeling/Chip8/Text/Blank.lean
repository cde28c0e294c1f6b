/-
  Chip8.Text.Blank

  The blank characters of Unicode (property White_Space) and the form in which
  names given by a user are compared: without blanks at either end, and with
  the ASCII letters in lower case.
-/

namespace Chip8.Text

/-! ## Blank characters -/

/-- The ranges of code points, ends included, that make up White_Space. -/
def blankRanges : List (Nat × Nat) :=
  [(0x0009, 0x000D), (0x0020, 0x0020), (0x0085, 0x0085), (0x00A0, 0x00A0),
   (0x1680, 0x1680), (0x2000, 0x200A), (0x2028, 0x2029), (0x202F, 0x202F),
   (0x205F, 0x205F), (0x3000, 0x3000)]

/-- Whether a character is blank. -/
def isBlank (c : Char) : Bool :=
  blankRanges.any fun range => range.1 ≤ c.toNat && c.toNat ≤ range.2

/-! ## Names -/

/-- The characters of `cs` without the blank ones at either end. -/
def trim (cs : List Char) : List Char :=
  ((cs.dropWhile isBlank).reverse.dropWhile isBlank).reverse

/-- The form in which names are compared: blanks at both ends go, and the
    ASCII letters become lower case. -/
def normalize (name : String) : String :=
  String.ofList ((trim name.toList).map Char.toLower)

end Chip8.Text
