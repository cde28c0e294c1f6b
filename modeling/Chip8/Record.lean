/-
  Chip8.Record

  The log: what a machine and its runner report while they work. A record holds
  the facts, and `text` has the words for them.
-/
import Chip8.Instruction.Encoding
import Chip8.Instruction.Mnemonic
import Chip8.Error

namespace Chip8

/-- How much a record matters, the least first. -/
inductive Level where
  | trace
  | debug
  | info
  | warn
  | error
  deriving DecidableEq

/-- The name of a level. -/
def Level.name : Level → String
  | .trace => "TRACE"
  | .debug => "DEBUG"
  | .info => "INFO"
  | .warn => "WARN"
  | .error => "ERROR"

/-- One thing that happened. -/
inductive Record where
  /-- The instruction `word` is about to be executed at `pc`, in a dialect. -/
  | executing (pc word : Word) (dialect : Dialect)
  /-- The unknown `word` at `pc` is passed over. -/
  | skipping (word pc : Word)
  /-- A program of `size` bytes is in memory. -/
  | programLoaded (size : Nat)
  /-- The machine is back in its state at power-on. -/
  | machineReset
  /-- A machine is ready to run the program at `path`. -/
  | programReady (path : String)
  /-- A run ends with an error after `cycles` cycles without one. -/
  | halting (cycles : Nat) (error : Error)
  /-- The environment asks for something that does not exist. -/
  | nameRejected (name : UnknownName)
  /-- A window was wanted. -/
  | windowRequested (scale framesPerSecond : Nat)
  deriving DecidableEq

namespace Record

/-- How much a record matters. -/
def level : Record → Level
  | .executing .. => .trace
  | .skipping .. => .warn
  | .programLoaded _ => .debug
  | .machineReset => .debug
  | .programReady _ => .info
  | .halting .. => .error
  | .nameRejected _ => .error
  | .windowRequested .. => .debug

/-- The words of a record. -/
def text : Record → String
  | .executing pc word dialect =>
    "0x" ++ Text.hex 3 pc.toNat ++ ": " ++ Text.hex 4 word.toNat ++ "  "
      ++ (Instruction.decode word).disassemble dialect
  | .skipping word pc =>
    "skipping unknown opcode 0x" ++ Text.hex 4 word.toNat ++ " at 0x" ++ Text.hex 3 pc.toNat
  | .programLoaded size => "loaded " ++ toString size ++ " program bytes at 0x200"
  | .machineReset => "vm reset"
  | .programReady path => "loaded " ++ path
  | .halting cycles error => "halting after " ++ toString cycles ++ " cycles: " ++ error.message
  | .nameRejected name => name.message
  | .windowRequested scale framesPerSecond =>
    "window requested at scale " ++ toString scale ++ " and " ++ toString framesPerSecond ++ " fps"

/-- A record as a line of a log. -/
def line (r : Record) : String :=
  r.level.name ++ ": " ++ r.text

end Record

end Chip8
