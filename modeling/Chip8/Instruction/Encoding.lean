/-
  Chip8.Instruction.Encoding

  Words and instructions. Every word says something, if only that it is no
  instruction; every instruction has a word.
-/
import Chip8.Instruction.Basic

namespace Chip8

/-! ## Operations -/

/-- The last digit of the word for an operation. -/
def Operation.code : Operation → Fin 16
  | .copy => 0x0
  | .or => 0x1
  | .and => 0x2
  | .xor => 0x3
  | .add => 0x4
  | .subtract => 0x5
  | .shiftRight => 0x6
  | .subtractReversed => 0x7
  | .shiftLeft => 0xE

/-- The operation with a last digit. -/
def Operation.ofCode? (code : Fin 16) : Option Operation :=
  match code with
  | 0x0 => some .copy
  | 0x1 => some .or
  | 0x2 => some .and
  | 0x3 => some .xor
  | 0x4 => some .add
  | 0x5 => some .subtract
  | 0x6 => some .shiftRight
  | 0x7 => some .subtractReversed
  | 0xE => some .shiftLeft
  | _ => none

namespace Instruction

/-! ## From words -/

/-- What a word of family E with operand `x` and the given last byte says. -/
def ofKeyByte? (x : Fin 16) (byte : UInt8) : Option Instruction :=
  match byte with
  | 0x9E => some (.skipIf (.keyDown x))
  | 0xA1 => some (.skipIf (.keyUp x))
  | _ => none

/-- What a word of family F with operand `x` and the given last byte says. -/
def ofDeviceByte? (x : Fin 16) (byte : UInt8) : Option Instruction :=
  match byte with
  | 0x07 => some (.loadDelay x)
  | 0x0A => some (.waitKey x)
  | 0x15 => some (.setDelay x)
  | 0x18 => some (.setSound x)
  | 0x1E => some (.addIndex x)
  | 0x29 => some (.fontGlyph x)
  | 0x33 => some (.storeDecimal x)
  | 0x55 => some (.storeRegisters x)
  | 0x65 => some (.loadRegisters x)
  | _ => none

/-- The instruction that a word says, if it says one. -/
def decode? (w : Word) : Option Instruction :=
  match w.family with
  | 0x0 =>
    if w = 0x00E0 then some .clearScreen
    else if w = 0x00EE then some .ret
    else some (.sys w.address)
  | 0x1 => some (.jump w.address)
  | 0x2 => some (.call w.address)
  | 0x3 => some (.skipIf (.equalsByte w.x w.byte))
  | 0x4 => some (.skipIf (.differsByte w.x w.byte))
  | 0x5 => if w.n = 0 then some (.skipIf (.equals w.x w.y)) else none
  | 0x6 => some (.loadByte w.x w.byte)
  | 0x7 => some (.addByte w.x w.byte)
  | 0x8 => (Operation.ofCode? w.n).map fun operation => .combine operation w.x w.y
  | 0x9 => if w.n = 0 then some (.skipIf (.differs w.x w.y)) else none
  | 0xA => some (.loadIndex w.address)
  | 0xB => some (.jumpOffset w.x w.address)
  | 0xC => some (.random w.x w.byte)
  | 0xD => some (.draw w.x w.y w.n)
  | 0xE => ofKeyByte? w.x w.byte
  | 0xF => ofDeviceByte? w.x w.byte
  | _ => none

/-- What a word says. -/
def decode (w : Word) : Instruction :=
  (decode? w).getD (.unknown w)

/-! ## To words -/

/-- The word for an instruction. -/
def encode : Instruction → Word
  | .sys address => .ofAddress 0x0 address
  | .clearScreen => 0x00E0
  | .ret => 0x00EE
  | .jump address => .ofAddress 0x1 address
  | .call address => .ofAddress 0x2 address
  | .skipIf (.equalsByte x byte) => .ofByte 0x3 x byte
  | .skipIf (.differsByte x byte) => .ofByte 0x4 x byte
  | .skipIf (.equals x y) => .ofDigits 0x5 x y 0
  | .loadByte x byte => .ofByte 0x6 x byte
  | .addByte x byte => .ofByte 0x7 x byte
  | .combine operation x y => .ofDigits 0x8 x y operation.code
  | .skipIf (.differs x y) => .ofDigits 0x9 x y 0
  | .loadIndex address => .ofAddress 0xA address
  | .jumpOffset _ address => .ofAddress 0xB address
  | .random x mask => .ofByte 0xC x mask
  | .draw x y rows => .ofDigits 0xD x y rows
  | .skipIf (.keyDown x) => .ofByte 0xE x 0x9E
  | .skipIf (.keyUp x) => .ofByte 0xE x 0xA1
  | .loadDelay x => .ofByte 0xF x 0x07
  | .waitKey x => .ofByte 0xF x 0x0A
  | .setDelay x => .ofByte 0xF x 0x15
  | .setSound x => .ofByte 0xF x 0x18
  | .addIndex x => .ofByte 0xF x 0x1E
  | .fontGlyph x => .ofByte 0xF x 0x29
  | .storeDecimal x => .ofByte 0xF x 0x33
  | .storeRegisters x => .ofByte 0xF x 0x55
  | .loadRegisters x => .ofByte 0xF x 0x65
  | .unknown word => word

end Instruction

end Chip8
