/-
  Chip8.Instruction.Mnemonic

  Instructions as text: in the notation of assemblers, and structurally, as the
  name of the instruction with its operands.
-/
import Chip8.Dialect
import Chip8.Instruction.Basic
import Chip8.Text.Hex
import Chip8.Text.Structural

namespace Chip8

/-! ## Operands -/

namespace Mnemonic

/-- The name of a byte register. -/
def register (x : Fin 16) : String := "V" ++ Text.upperHex 1 x

/-- A byte operand. -/
def byte (value : UInt8) : String := "0x" ++ Text.upperHex 2 value.toNat

/-- An address operand. -/
def address (value : Word) : String := "0x" ++ Text.upperHex 3 value.toNat

/-- A mnemonic with one operand. -/
def one (name operand : String) : String := name ++ " " ++ operand

/-- A mnemonic with two operands. -/
def two (name first second : String) : String := name ++ " " ++ first ++ ", " ++ second

end Mnemonic

open Mnemonic

/-! ## Assembler notation -/

/-- The name of an operation. -/
def Operation.mnemonic : Operation → String
  | .copy => "LD"
  | .or => "OR"
  | .and => "AND"
  | .xor => "XOR"
  | .add => "ADD"
  | .subtract => "SUB"
  | .shiftRight => "SHR"
  | .subtractReversed => "SUBN"
  | .shiftLeft => "SHL"

/-- An instruction that skips, by its condition. -/
def Condition.mnemonic : Condition → String
  | .equalsByte x value => two "SE" (register x) (byte value)
  | .differsByte x value => two "SNE" (register x) (byte value)
  | .equals x y => two "SE" (register x) (register y)
  | .differs x y => two "SNE" (register x) (register y)
  | .keyDown x => one "SKP" (register x)
  | .keyUp x => one "SKNP" (register x)

namespace Instruction

/-- An instruction in assembler notation, with V0 as the register of a jump with
    offset. -/
def mnemonic : Instruction → String
  | .sys target => one "SYS" (address target)
  | .clearScreen => "CLS"
  | .ret => "RET"
  | .jump target => one "JP" (address target)
  | .call target => one "CALL" (address target)
  | .skipIf condition => condition.mnemonic
  | .loadByte x value => two "LD" (register x) (byte value)
  | .addByte x value => two "ADD" (register x) (byte value)
  | .combine operation x y => two operation.mnemonic (register x) (register y)
  | .loadIndex target => two "LD" "I" (address target)
  | .jumpOffset _ target => two "JP" (register 0) (address target)
  | .random x mask => two "RND" (register x) (byte mask)
  | .draw x y rows => two "DRW" (register x) (register y) ++ ", " ++ toString rows.val
  | .waitKey x => two "LD" (register x) "K"
  | .loadDelay x => two "LD" (register x) "DT"
  | .setDelay x => two "LD" "DT" (register x)
  | .setSound x => two "LD" "ST" (register x)
  | .addIndex x => two "ADD" "I" (register x)
  | .fontGlyph x => two "LD" "F" (register x)
  | .storeDecimal x => two "LD" "B" (register x)
  | .storeRegisters x => two "LD" "[I]" (register x)
  | .loadRegisters x => two "LD" (register x) "[I]"
  | .unknown word => "DW 0x" ++ Text.upperHex 4 word.toNat

/-- An instruction in assembler notation, with the register that a jump with
    offset reads in the dialect. -/
def disassemble (dialect : Dialect) (i : Instruction) : String :=
  match i with
  | .jumpOffset x target =>
    two "JP" (register (if dialect.jumpReadsX then x else 0)) (address target)
  | _ => i.mnemonic

end Instruction

/-! ## Structural text -/

namespace Mnemonic

/-- An operand that is a register number. -/
def numbered (label : String) (x : Fin 16) : String × String := (label, toString x.val)

/-- An instruction with register `x` alone. -/
def withX (name : String) (x : Fin 16) : String :=
  Text.labelled name [numbered "x" x]

/-- An instruction with registers `x` and `y`. -/
def withXY (name : String) (x y : Fin 16) : String :=
  Text.labelled name [numbered "x" x, numbered "y" y]

/-- An instruction with register `x` and a byte. -/
def withByte (name : String) (x : Fin 16) (value : UInt8) : String :=
  Text.labelled name [numbered "x" x, ("nn", toString value.toNat)]

/-- An instruction with a word alone. -/
def withWord (name : String) (word : Word) : String :=
  Text.positional name [toString word.toNat]

end Mnemonic

/-- The name of an operation, in full. -/
def Operation.name : Operation → String
  | .copy => "Copy"
  | .or => "Or"
  | .and => "And"
  | .xor => "Xor"
  | .add => "AddWithCarry"
  | .subtract => "Subtract"
  | .shiftRight => "ShiftRight"
  | .subtractReversed => "SubtractReversed"
  | .shiftLeft => "ShiftLeft"

/-- The structural text of an instruction that skips. -/
def Condition.structural : Condition → String
  | .equalsByte x value => withByte "SkipEqImmediate" x value
  | .differsByte x value => withByte "SkipNeImmediate" x value
  | .equals x y => withXY "SkipEqRegister" x y
  | .differs x y => withXY "SkipNeRegister" x y
  | .keyDown x => withX "SkipKeyPressed" x
  | .keyUp x => withX "SkipKeyNotPressed" x

/-- The structural text of an instruction: its name and operands, numbers in
    decimal. -/
def Instruction.structural : Instruction → String
  | .sys target => withWord "Sys" target
  | .clearScreen => "ClearScreen"
  | .ret => "Return"
  | .jump target => withWord "Jump" target
  | .call target => withWord "Call" target
  | .skipIf condition => condition.structural
  | .loadByte x value => withByte "LoadImmediate" x value
  | .addByte x value => withByte "AddImmediate" x value
  | .combine operation x y => withXY operation.name x y
  | .loadIndex target => withWord "LoadIndex" target
  | .jumpOffset x target =>
    Text.labelled "JumpOffset" [numbered "x" x, ("nnn", toString target.toNat)]
  | .random x mask => withByte "Random" x mask
  | .draw x y rows =>
    Text.labelled "Draw" [numbered "x" x, numbered "y" y, numbered "n" rows]
  | .waitKey x => withX "WaitKey" x
  | .loadDelay x => withX "LoadDelay" x
  | .setDelay x => withX "SetDelay" x
  | .setSound x => withX "SetSound" x
  | .addIndex x => withX "AddIndex" x
  | .fontGlyph x => withX "FontGlyph" x
  | .storeDecimal x => withX "StoreBcd" x
  | .storeRegisters x => withX "StoreRegisters" x
  | .loadRegisters x => withX "LoadRegisters" x
  | .unknown word => withWord "Unknown" word

end Chip8
