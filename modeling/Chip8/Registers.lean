/-
  Chip8.Registers

  The byte registers V0 to VF, the index register and the program counter. The
  last two are 12 bits wide: everything that sets them drops higher bits.
-/
import Chip8.Error
import Chip8.Memory
import Chip8.Word

namespace Chip8

/-- The registers of a machine. -/
structure Registers where
  /-- The byte registers, V0 first. -/
  v : Vector UInt8 16
  /-- The index register, which points into memory. -/
  index : Word
  /-- The program counter. -/
  pc : Word
  deriving DecidableEq

namespace Registers

/-- All zero, with the program counter at the start of the programs. -/
def initial : Registers where
  v := Vector.replicate 16 0
  index := 0
  pc := Memory.programStart.toUInt16

/-! ## Byte registers -/

/-- The value of `V x`. -/
def get (r : Registers) (x : Fin 16) : UInt8 :=
  getElem r.v x.val (Digit.lt x)

/-- The registers with `value` in `V x`. -/
def set (r : Registers) (x : Fin 16) (value : UInt8) : Registers :=
  { r with v := r.v.set x value (Digit.lt x) }

/-- The number of the register VF, where flags go. -/
def flagRegister : Fin 16 := 15

/-- The value of VF. -/
def flag (r : Registers) : UInt8 :=
  r.get flagRegister

/-- The registers with VF at 1 or 0. -/
def setFlag (r : Registers) (flag : Bool) : Registers :=
  r.set flagRegister flag.toUInt8

/-- The registers with a result in `V x` and its flag in VF. The flag is written
    first, so that VF ends up with the result where it is the destination. -/
def setWithFlag (r : Registers) (x : Fin 16) (value : UInt8) (flag : Bool) : Registers :=
  (r.setFlag flag).set x value

/-- The registers with `values` in V0 and those after it, as far as they go. -/
def setFirst (r : Registers) (values : List UInt8) : Registers :=
  { r with v := Vector.ofFn fun x => values.getD x (r.get x) }

/-! ## Byte registers by number -/

/-- `number` as the number of a byte register. -/
def number (number : Nat) : Except Error (Fin 16) :=
  if h : number < 16 then .ok ⟨number, h⟩ else .error (.invalidRegister number)

/-- The value of the register with the given number. -/
def read (r : Registers) (n : Nat) : Except Error UInt8 :=
  (number n).map r.get

/-- The registers with `value` in the one with the given number. -/
def write (r : Registers) (n : Nat) (value : UInt8) : Except Error Registers :=
  (number n).map fun x => r.set x value

/-- As `setWithFlag`, for the register with the given number. -/
def writeWithFlag (r : Registers) (n : Nat) (value : UInt8) (flag : Bool) :
    Except Error Registers :=
  (number n).map fun x => r.setWithFlag x value flag

/-! ## Index and program counter -/

/-- The registers with the index at `address`. -/
def setIndex (r : Registers) (address : Word) : Registers :=
  { r with index := address.address }

/-- The registers with the program counter at `address`. -/
def setPc (r : Registers) (address : Word) : Registers :=
  { r with pc := address.address }

/-- The registers with the program counter moved on by `distance` bytes. -/
def advance (r : Registers) (distance : Word) : Registers :=
  r.setPc (r.pc + distance)

/-! ## What the setters leave -/

/-- A register holds what was last put into it. -/
theorem get_set (r : Registers) (x y : Fin 16) (value : UInt8) :
    (r.set x value).get y = if x = y then value else r.get y := by
  simp [get, set, Vector.getElem_set, Fin.ext_iff]

/-- Setting a result with its flag leaves the result in its register, also where
    that is VF, and the flag in VF otherwise. -/
theorem get_setWithFlag (r : Registers) (x y : Fin 16) (value : UInt8) (flag : Bool) :
    (r.setWithFlag x value flag).get y =
      if x = y then value else if flagRegister = y then flag.toUInt8 else r.get y := by
  simp [setWithFlag, setFlag, get_set]

/-- The first registers hold the values, and the others what they held. -/
theorem get_setFirst (r : Registers) (values : List UInt8) (y : Fin 16) :
    (r.setFirst values).get y = values.getD y (r.get y) := by
  simp [setFirst, get]

theorem setFirst_index (r : Registers) (values : List UInt8) :
    (r.setFirst values).index = r.index := by
  rw [setFirst]

theorem setFirst_pc (r : Registers) (values : List UInt8) :
    (r.setFirst values).pc = r.pc := by
  rw [setFirst]

end Registers

end Chip8
