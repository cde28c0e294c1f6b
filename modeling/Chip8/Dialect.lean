/-
  Chip8.Dialect

  The points on which interpreters of different times disagree, the two usual
  ways to settle them, and what to do with a word that is no instruction. Both
  are chosen by name: by an option, or by a variable of the environment.
-/
import Chip8.Text.Blank

namespace Chip8

/-! ## Dialects and policies -/

/-- How the disputed instructions behave. -/
structure Dialect where
  /-- Shifts take their operand from `V y`, not `V x`. -/
  shiftReadsY : Bool
  /-- Storing and loading registers moves the index past them. -/
  transferMovesIndex : Bool
  /-- A jump with offset adds `V x`, with `x` the top digit of its address, not V0. -/
  jumpReadsX : Bool
  deriving DecidableEq

namespace Dialect

/-- The dialect of the first interpreter. -/
def classic : Dialect := ⟨true, true, false⟩

/-- The dialect of interpreters on later computers. -/
def modern : Dialect := ⟨false, false, true⟩

end Dialect

/-- What to do with a word that is no instruction. -/
inductive UnknownWordPolicy where
  /-- Fail, and stay at the word. -/
  | halt
  /-- Go on after the word. -/
  | skip
  deriving DecidableEq

/-! ## Names -/

/-- A name that is none of those allowed where it was given. -/
structure UnknownName where
  /-- The variable of the environment that the setting belongs to. -/
  variableName : String
  /-- The name, in the form in which names are compared. -/
  given : String
  allowed : List String
  deriving DecidableEq

/-- The message for an unknown name. -/
def UnknownName.message (e : UnknownName) : String :=
  "invalid " ++ e.variableName ++ " '" ++ e.given ++ "', expected one of: "
    ++ ", ".intercalate e.allowed

/-- The variable that names the dialect. -/
def Dialect.variableName : String := "CHIP8_QUIRKS"

/-- The dialect called `name`. -/
def Dialect.ofName (name : String) : Except UnknownName Dialect :=
  match Text.normalize name with
  | "original" => .ok classic
  | "modern" => .ok modern
  | given => .error ⟨variableName, given, ["modern", "original"]⟩

/-- The variable that names the policy. -/
def UnknownWordPolicy.variableName : String := "CHIP8_UNKNOWN_OPCODE"

/-- The policy called `name`. -/
def UnknownWordPolicy.ofName (name : String) : Except UnknownName UnknownWordPolicy :=
  match Text.normalize name with
  | "halt" => .ok halt
  | "skip" => .ok skip
  | given => .error ⟨variableName, given, ["halt", "skip"]⟩

/-! ## The environment -/

/-- The variables of the environment, as bytes. -/
abbrev Environment := String → Option ByteArray

/-- The text of a variable. One that is not set, or is no text, reads as
    `default`. -/
def Environment.text (environment : Environment) (variableName default : String) : String :=
  ((environment variableName).bind String.fromUTF8?).getD default

/-- The dialect that the environment asks for, with its name. -/
def Dialect.ofEnvironment (environment : Environment) : Except UnknownName (String × Dialect) := do
  let name := Text.normalize (environment.text variableName "original")
  let dialect ← ofName name
  return (name, dialect)

/-- The policy that the environment asks for. -/
def UnknownWordPolicy.ofEnvironment (environment : Environment) :
    Except UnknownName UnknownWordPolicy :=
  ofName (environment.text variableName "halt")

end Chip8
