/-
  Chip8.Word

  Words of 16 bits, seen as four hexadecimal digits: the family of an
  instruction, its operands `x` and `y`, and a last digit. The last two digits
  together are a byte, the last three a 12-bit address.
-/

namespace Chip8

/-- Instructions and addresses. -/
abbrev Word := UInt16

/-! ## Digits -/

/-- There are digits. The instance has a name so that all modules mean the same one. -/
instance Digit.neZero : @NeZero Nat Zero.ofOfNat0 16 := Nat.instNeZeroSucc

/-- A digit is below sixteen, as a bound for places in arrays of sixteen. -/
theorem Digit.lt (digit : Fin 16) : digit.val < 16 := digit.isLt

namespace Word

/-! ## Taking a word apart -/

/-- The first digit. -/
def family (w : Word) : Nat := w.toNat / 4096

/-- The second digit. -/
def x (w : Word) : Fin 16 := ⟨w.toNat / 256 % 16, by omega⟩

/-- The third digit. -/
def y (w : Word) : Fin 16 := ⟨w.toNat / 16 % 16, by omega⟩

/-- The last digit. -/
def n (w : Word) : Fin 16 := ⟨w.toNat % 16, by omega⟩

/-- The last two digits. -/
def byte (w : Word) : UInt8 := w.toUInt8

/-- The last three digits: what is left of a word where 12 bits are kept. -/
def address (w : Word) : Word := w % 4096

/-! ## Putting a word together -/

/-- The word with the given four digits. -/
def ofDigits (family : Nat) (x y n : Fin 16) : Word :=
  UInt16.ofNat (family * 4096 + x * 256 + y * 16 + n)

/-- The word with the given first two digits and the byte behind them. -/
def ofByte (family : Nat) (x : Fin 16) (byte : UInt8) : Word :=
  UInt16.ofNat (family * 4096 + x * 256 + byte.toNat)

/-- The word with the given first digit and the address behind it. -/
def ofAddress (family : Nat) (address : Word) : Word :=
  UInt16.ofNat (family * 4096 + address.toNat)

/-- The word whose bytes are `high` and `low`, as it lies in memory. -/
def ofBytes (high low : UInt8) : Word :=
  UInt16.ofNat (high.toNat * 256 + low.toNat)

/-! ## Bounds -/

theorem toNat_address (w : Word) : w.address.toNat = w.toNat % 4096 := by
  simp [address, UInt16.toNat_mod]

theorem toNat_address_lt (w : Word) : w.address.toNat < 4096 := by
  rw [toNat_address]
  omega

@[simp] theorem address_address (w : Word) : w.address.address = w.address := by
  rw [← UInt16.toNat_inj, toNat_address, toNat_address, Nat.mod_mod]

/-- A sum of which 12 bits are kept is the sum of the numbers, around the end of memory. -/
theorem toNat_address_add (a b : Word) :
    (a + b).address.toNat = (a.toNat + b.toNat) % 4096 := by
  rw [toNat_address, UInt16.toNat_add]
  omega

theorem address_add (a b : Word) :
    (a + b).address = UInt16.ofNat ((a.toNat + b.toNat) % 4096) := by
  rw [← toNat_address_add, UInt16.ofNat_toNat]

theorem toNat_byte (w : Word) : w.byte.toNat = w.toNat % 256 := by
  simp [byte]

end Word

end Chip8
