/-
  Chip8.Text.Hex

  Hexadecimal numerals padded on the left with zeros. Addresses and words are
  written this way in every message, record and mnemonic.
-/

namespace Chip8.Text

/-- The hexadecimal digits of `n` in lower case, most significant first, behind
    as many zeros as it takes to reach `width` digits. -/
def hexDigits (width n : Nat) : List Char :=
  (Nat.toDigits 16 n).leftpad width '0'

/-- `n` as a lower-case hexadecimal numeral of at least `width` digits. -/
def hex (width n : Nat) : String :=
  String.ofList (hexDigits width n)

/-- `n` as an upper-case hexadecimal numeral of at least `width` digits. -/
def upperHex (width n : Nat) : String :=
  String.ofList ((hexDigits width n).map Char.toUpper)

end Chip8.Text
