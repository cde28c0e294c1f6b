/-
  Chip8.CommandLine.Arguments

  Reading the arguments of the command line. Options have a name, and all but a
  few a value, which follows the name or an equals sign; each may be given once.
-/
import Chip8.Dialect

namespace Chip8.CommandLine

/-! ## Values -/

/-- A natural number below 2^64, in decimal digits behind at most one plus sign. -/
def number? (text : String) : Option Nat :=
  let digits := match text.toList with
    | '+' :: rest => rest
    | all => all
  if digits ≠ [] ∧ digits.all Char.isDigit then
    let value := digits.foldl (fun n c => 10 * n + (c.toNat - '0'.toNat)) 0
    if value < UInt64.size then some value else none
  else none

/-- The dialect of exactly that name. -/
def dialect? : String → Option Dialect
  | "original" => some .classic
  | "modern" => some .modern
  | _ => none

/-- The policy of exactly that name. -/
def policy? : String → Option UnknownWordPolicy
  | "halt" => some .halt
  | "skip" => some .skip
  | _ => none

/-- A path: any text but the empty one. -/
def path? (text : String) : Option String :=
  if text = "" then none else some text

/-! ## Arguments -/

/-- The options that have a value. -/
def valued : List String :=
  ["rom", "quirks", "unknown-opcode", "scale", "hz", "fps", "max-cycles", "seed"]

/-- The options that have none. -/
def flags : List String := ["headless"]

/-- The text behind the two dashes of a long option. -/
def long? (argument : String) : Option String :=
  match argument.toList with
  | '-' :: '-' :: rest => some (String.ofList rest)
  | _ => none

/-- Whether an argument can only be an option, and so is no value. -/
def isOption (argument : String) : Bool :=
  match argument.toList with
  | '-' :: _ :: _ => true
  | _ => false

/-- A name and, behind an equals sign, a value. -/
def splitValue (text : String) : String × Option String :=
  let chars := text.toList
  let name := String.ofList (chars.takeWhile (· != '='))
  match chars.dropWhile (· != '=') with
  | [] => (name, none)
  | _ :: value => (name, some (String.ofList value))

/-- One option as given: its name, and its value if it has one. -/
abbrev Given := String × Option String

/-- The options among the arguments, in order, unless there is anything else. Two
    dashes end the options, and then nothing may follow. -/
def options? : List String → Option (List Given)
  | [] => some []
  | argument :: rest =>
    if argument = "--" then
      if rest.isEmpty then some [] else none
    else
      match (long? argument).map splitValue with
      | none => none
      | some (name, some value) =>
        if name ∈ valued then (options? rest).map ((name, some value) :: ·) else none
      | some (name, none) =>
        if name ∈ flags then (options? rest).map ((name, none) :: ·)
        else if name ∈ valued then
          match rest with
          | [] => none
          | value :: rest =>
            if isOption value then none
            else (options? rest).map ((name, some value) :: ·)
        else none

/-- Whether no option is given twice. -/
def isOnce (given : List Given) : Bool :=
  decide (given.map Prod.fst).Nodup

/-- The value given for an option, read by `read`. It is an error if that refuses
    the value, and none if the option is not given. -/
def value? {α : Type} (given : List Given) (name : String) (read : String → Option α) :
    Option (Option α) :=
  match (given.lookup name).join with
  | none => some none
  | some text => (read text).map some

/-! ## The options together -/

/-- What the command line asks for. -/
structure Options where
  /-- The file of the program. -/
  path : String
  dialect : Option Dialect
  unknownWords : Option UnknownWordPolicy
  /-- Size of a pixel in a window. -/
  scale : Nat
  /-- Cycles in a second. -/
  speed : Nat
  /-- Pictures in a second. -/
  framesPerSecond : Nat
  /-- Number of cycles to run. -/
  limit : Nat
  seed : Option UInt64
  headless : Bool
  deriving DecidableEq

/-- The options that the arguments spell, if they are well formed. -/
def Options.ofArguments? (arguments : List String) : Option Options := do
  let given ← options? arguments
  guard (isOnce given)
  let path ← (← value? given "rom" path?)
  let dialect ← value? given "quirks" dialect?
  let unknownWords ← value? given "unknown-opcode" policy?
  let scale ← value? given "scale" number?
  let speed ← value? given "hz" number?
  let framesPerSecond ← value? given "fps" number?
  let limit ← value? given "max-cycles" number?
  let seed ← value? given "seed" number?
  return {
    path
    dialect
    unknownWords
    scale := scale.getD 16
    speed := speed.getD 700
    framesPerSecond := framesPerSecond.getD 60
    limit := limit.getD 2000
    seed := seed.map Nat.toUInt64
    headless := given.any fun option => option.1 == "headless" }

end Chip8.CommandLine
