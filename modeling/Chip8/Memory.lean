/-
  Chip8.Memory

  The 4096 bytes that a program sees. The font lies below the programs, which
  start at 0x200. Every access is checked: one byte at a time or a whole range,
  which is read or written completely or not at all.
-/
import Chip8.Error
import Chip8.Font

namespace Chip8

/-- The bytes at addresses 0 to 4095. -/
structure Memory where
  bytes : Vector UInt8 4096
  deriving DecidableEq

namespace Memory

/-- Number of bytes. -/
def size : Nat := 4096

/-- Where programs start. -/
def programStart : Nat := 0x200

/-- The most bytes a program may have: all those from its start on. -/
def programLimit : Nat := size - programStart

/-! ## Storing without a check -/

/-- Puts `value` at `address`, if there is such an address. -/
def put (m : Memory) (address : Nat) (value : UInt8) : Memory :=
  ⟨m.bytes.setIfInBounds address value⟩

/-- Puts `values` at `address` and the addresses after it. -/
def store (m : Memory) (address : Nat) : List UInt8 → Memory
  | [] => m
  | value :: values => (m.put address value).store (address + 1) values

/-- The bytes from `start` on, `length` of them. -/
def slice (m : Memory) (start length : Nat) (h : start + length ≤ 4096) : List UInt8 :=
  List.ofFn fun i : Fin length => m.bytes[start + i.val]

/-! ## Checked access -/

/-- The byte at `address`. -/
def read (m : Memory) (address : Nat) : Except Error UInt8 :=
  if h : address < 4096 then .ok m.bytes[address] else .error (.addressOutOfRange address)

/-- The memory with `value` at `address`. -/
def write (m : Memory) (address : Nat) (value : UInt8) : Except Error Memory :=
  if address < 4096 then .ok (m.put address value) else .error (.addressOutOfRange address)

/-- The `length` bytes from `address` on. A range that leaves the memory fails at
    its first byte that does not exist. -/
def readRange (m : Memory) (address length : Nat) : Except Error (List UInt8) :=
  if h : address + length ≤ 4096 then .ok (m.slice address length h)
  else .error (.addressOutOfRange (max address 4096))

/-- The memory with `values` from `address` on. A range that leaves the memory
    fails at its first byte that does not exist, and nothing is written. -/
def writeRange (m : Memory) (address : Nat) (values : List UInt8) : Except Error Memory :=
  if address + values.length ≤ 4096 then .ok (m.store address values)
  else .error (.addressOutOfRange (max address 4096))

/-! ## Font and programs -/

/-- The memory with `glyphs` in the place of the font. -/
def loadFont (m : Memory) (glyphs : Vector UInt8 Font.size) : Memory :=
  m.store Font.base glyphs.toList

/-- The memory of a machine just switched on: zeros and the built-in font. -/
def initial : Memory :=
  loadFont ⟨Vector.replicate 4096 0⟩ Font.bytes

/-- The memory with `program` at the start of the programs. What a longer program
    left behind it stays. -/
def loadProgram (m : Memory) (program : List UInt8) : Except Error Memory :=
  if program.length ≤ programLimit then .ok (m.store programStart program)
  else .error (.programTooLarge program.length programLimit)

/-! ## What the stores leave -/

@[simp] theorem put_bytes_getElem (m : Memory) (address : Nat) (value : UInt8) (i : Nat)
    (h : i < 4096) :
    (m.put address value).bytes[i] = if address = i then value else m.bytes[i] := by
  simp [put, Vector.getElem_setIfInBounds]

/-- A store changes the bytes of its range, each to the value at its place, and
    no others. -/
theorem store_bytes_getElem (values : List UInt8) (m : Memory) (address i : Nat) (h : i < 4096) :
    (m.store address values).bytes[i] =
      if address ≤ i then values.getD (i - address) m.bytes[i] else m.bytes[i] := by
  induction values generalizing m address with
  | nil => simp [store]
  | cons value values ih =>
    rw [store, ih]
    by_cases hi : address ≤ i
    · by_cases he : address = i
      · subst he
        simp [show ¬ address + 1 ≤ address by omega]
      · obtain ⟨k, hk⟩ : ∃ k, i - address = k + 1 := ⟨i - address - 1, by omega⟩
        have hk' : i - (address + 1) = k := by omega
        simp [hi, he, hk, hk', show address + 1 ≤ i by omega]
    · simp [hi, show ¬ address + 1 ≤ i by omega, show address ≠ i by omega]

@[simp] theorem length_slice (m : Memory) (start length : Nat) (h : start + length ≤ 4096) :
    (m.slice start length h).length = length := by
  simp [slice]

theorem getElem?_slice (m : Memory) (start length : Nat) (h : start + length ≤ 4096) (i : Nat)
    (hi : i < length) : (m.slice start length h)[i]? = some m.bytes[start + i] := by
  simp [slice, hi]

end Memory

end Chip8
