/-
  Chip8.Instruction.Basic

  The instructions. `x` and `y` number byte registers; a byte, an address or a
  sprite height stands as such.
-/
import Chip8.Word

namespace Chip8

/-- What an instruction makes of `V x` and `V y`, to put into `V x`. -/
inductive Operation where
  | copy
  | or
  | and
  | xor
  /-- The sum, with its carry as flag. -/
  | add
  /-- `V x` less `V y`; the flag says that nothing was borrowed. -/
  | subtract
  /-- Half, with the bit that drops out as flag. -/
  | shiftRight
  /-- `V y` less `V x`; the flag says that nothing was borrowed. -/
  | subtractReversed
  /-- Double, with the bit that drops out as flag. -/
  | shiftLeft
  deriving DecidableEq

/-- When an instruction skips the one after it. -/
inductive Condition where
  | equalsByte (x : Fin 16) (byte : UInt8)
  | differsByte (x : Fin 16) (byte : UInt8)
  | equals (x y : Fin 16)
  | differs (x y : Fin 16)
  /-- The key named by the low digit of `V x` is down. -/
  | keyDown (x : Fin 16)
  /-- The key named by the low digit of `V x` is up. -/
  | keyUp (x : Fin 16)
  deriving DecidableEq

/-- What a word says. -/
inductive Instruction where
  /-- A routine of the computer below the machine; nothing happens. -/
  | sys (address : Word)
  | clearScreen
  | ret
  | jump (address : Word)
  | call (address : Word)
  | skipIf (condition : Condition)
  | loadByte (x : Fin 16) (byte : UInt8)
  | addByte (x : Fin 16) (byte : UInt8)
  | combine (operation : Operation) (x y : Fin 16)
  | loadIndex (address : Word)
  /-- Jump to `address` plus a register: V0 or `V x`, as the dialect has it. -/
  | jumpOffset (x : Fin 16) (address : Word)
  /-- A random byte, of which the bits of `mask` are kept. -/
  | random (x : Fin 16) (mask : UInt8)
  /-- The sprite of `rows` bytes at the index, at column `V x` and row `V y`. -/
  | draw (x y rows : Fin 16)
  | waitKey (x : Fin 16)
  | loadDelay (x : Fin 16)
  | setDelay (x : Fin 16)
  | setSound (x : Fin 16)
  | addIndex (x : Fin 16)
  /-- The index at the glyph of the low digit of `V x`. -/
  | fontGlyph (x : Fin 16)
  /-- The three decimal digits of `V x`, to memory. -/
  | storeDecimal (x : Fin 16)
  /-- V0 to `V x`, to memory. -/
  | storeRegisters (x : Fin 16)
  /-- V0 to `V x`, from memory. -/
  | loadRegisters (x : Fin 16)
  /-- A word that is no instruction. -/
  | unknown (word : Word)
  deriving DecidableEq

end Chip8
