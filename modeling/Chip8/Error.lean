/-
  Chip8.Error

  Everything that can go wrong, each as its cause. A fault wraps the cause of a
  failed instruction with the word and the address at which it happened; faults
  may be nested, and `cause` finds what lies under all of them.
-/
import Chip8.Text.Hex
import Chip8.Text.Structural
import Chip8.Word

namespace Chip8

/-! ## Files -/

/-- Why the contents of a file could not be had. -/
inductive FileError where
  /-- No file has that name. -/
  | missing
  /-- The name is that of a directory. -/
  | isDirectory
  /-- Anything else, in the words of the system. -/
  | other (description : String)
  deriving DecidableEq

namespace FileError

/-- The message of a file error. -/
def message : FileError → String
  | .missing => "No such file or directory (os error 2)"
  | .isDirectory => "Is a directory (os error 21)"
  | .other description => description

/-- The structural text of a file error. -/
def structural : FileError → String
  | .missing => system "2" "NotFound" "No such file or directory"
  | .isDirectory => system "21" "IsADirectory" "Is a directory"
  | .other description =>
    Text.labelled "Custom" [("kind", "Other"), ("error", Text.quoted description)]
where
  /-- An error that the system numbers. -/
  system (code kind message : String) : String :=
    Text.labelled "Os" [("code", code), ("kind", kind), ("message", Text.quoted message)]

end FileError

/-! ## Errors -/

/-- What went wrong. -/
inductive Error where
  /-- The contents of a program file could not be had. -/
  | file (reason : FileError)
  /-- A program has `size` bytes where at most `limit` fit. -/
  | programTooLarge (size limit : Nat)
  /-- There is no byte at `address`. -/
  | addressOutOfRange (address : Nat)
  /-- There is no byte register numbered `index`. -/
  | invalidRegister (index : Nat)
  /-- There is no key numbered `index`. -/
  | invalidKey (index : Nat)
  /-- A call with every stack slot in use. -/
  | stackOverflow
  /-- A return with no call outstanding. -/
  | stackUnderflow
  /-- `word` is no instruction. -/
  | unknownWord (word : Word)
  /-- A setting that makes no sense, for the stated reason. -/
  | invalidArgument (reason : String)
  /-- The instruction `word` at address `pc` failed because of `cause`. -/
  | fault (word pc : Word) (cause : Error)
  deriving DecidableEq, Inhabited

namespace Error

/-- The cause under every enclosing fault. -/
def cause : Error → Error
  | .fault _ _ inner => inner.cause
  | error => error

/-- What an error rests on: another error, or an error of the file system. -/
inductive Source where
  | error (inner : Error)
  | file (reason : FileError)
  deriving DecidableEq

/-- The direct source of an error, one level down. -/
def source? : Error → Option Source
  | .file reason => some (.file reason)
  | .fault _ _ inner => some (.error inner)
  | _ => none

/-! ## Texts -/

/-- The message of an error. A fault puts its address and word in front of the
    message of its cause. -/
def message : Error → String
  | .file reason => "io error: " ++ reason.message
  | .programTooLarge size limit =>
    "program too large: " ++ toString size ++ " bytes (max " ++ toString limit ++ ")"
  | .addressOutOfRange address => "memory access out of range: 0x" ++ Text.hex 4 address
  | .invalidRegister index => "invalid register index: " ++ toString index
  | .invalidKey index => "invalid key index: " ++ toString index
  | .stackOverflow => "call stack overflow"
  | .stackUnderflow => "return instruction with empty stack"
  | .unknownWord word => "unknown opcode: 0x" ++ Text.hex 4 word.toNat
  | .invalidArgument reason => "invalid argument: " ++ reason
  | .fault word pc inner =>
    "fault at pc 0x" ++ Text.hex 3 pc.toNat ++ " (opcode 0x" ++ Text.hex 4 word.toNat ++ "): "
      ++ inner.message

/-- The name of the kind of error. -/
def kind : Error → String
  | .file _ => "Io"
  | .programTooLarge .. => "ProgramTooLarge"
  | .addressOutOfRange _ => "AddressOutOfRange"
  | .invalidRegister _ => "InvalidRegister"
  | .invalidKey _ => "InvalidKey"
  | .stackOverflow => "StackOverflow"
  | .stackUnderflow => "StackUnderflow"
  | .unknownWord _ => "UnknownOpcode"
  | .invalidArgument _ => "InvalidArgument"
  | .fault .. => "Fault"

/-- The structural text of an error: its kind and its parts, numbers in decimal. -/
def structural (error : Error) : String :=
  match error with
  | .file reason => Text.positional error.kind [reason.structural]
  | .programTooLarge size limit =>
    Text.labelled error.kind [("size", toString size), ("max", toString limit)]
  | .addressOutOfRange index | .invalidRegister index | .invalidKey index =>
    Text.positional error.kind [toString index]
  | .stackOverflow | .stackUnderflow => error.kind
  | .unknownWord word => Text.positional error.kind [toString word.toNat]
  | .invalidArgument reason => Text.positional error.kind [Text.quoted reason]
  | .fault word pc inner =>
    Text.labelled error.kind
      [("opcode", toString word.toNat), ("pc", toString pc.toNat), ("cause", inner.structural)]

end Error

namespace Error.Source

/-- The message of a source. -/
def message : Source → String
  | .error inner => inner.message
  | .file reason => reason.message

end Error.Source

end Chip8
