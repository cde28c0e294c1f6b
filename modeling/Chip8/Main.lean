/-
  Chip8.Main

  The command line: arguments, environment and files in, text and an exit code
  out. What they mean is decided elsewhere.
-/
import Chip8.CommandLine.Program

namespace Chip8.Main

open Chip8 CommandLine

/-- The reason behind a failure to read a file. -/
def fileError : IO.Error → FileError
  | .noFileOrDirectory .. => .missing
  | .inappropriateType .. => .isDirectory
  | error => .other (toString error)

/-- The contents of the file at `path`. -/
def readFile (path : String) : IO (Except FileError (List UInt8)) := do
  try
    let contents ← IO.FS.readBinFile path
    return .ok contents.toList
  catch error => return .error (fileError error)

/-- The files that the options name, read beforehand. -/
def files (options : Option Options) : IO FileSystem := do
  match options with
  | none => return fun _ => .error .missing
  | some options =>
    let contents ← readFile options.path
    return fun path => if path = options.path then contents else .error .missing

/-- The variables that matter. -/
def environment : IO Environment := do
  let dialect ← IO.getEnv Dialect.variableName
  let policy ← IO.getEnv UnknownWordPolicy.variableName
  return fun name =>
    if name = Dialect.variableName then dialect.map String.toUTF8
    else if name = UnknownWordPolicy.variableName then policy.map String.toUTF8
    else none

/-- A random stream that starts anywhere. -/
def entropy : IO RandomStream.Generator := do
  let bytes ← IO.getRandomBytes 8
  return .ofSeed (bytes.foldl (fun seed byte => seed * 256 + byte.toUInt64) 0)

end Chip8.Main

section

open Chip8 Main CommandLine

/-- Runs the command line. -/
def main (arguments : List String) : IO UInt32 := do
  let files ← files (Options.ofArguments? arguments)
  let environment ← environment
  let ending := run files environment (← entropy) arguments
  for record in ending.log do
    if record.level = .warn ∨ record.level = .error then IO.eprintln record.line
  IO.print ending.standardOutput
  if let some error := ending.error? then IO.eprintln ("Error: " ++ error.structural)
  if ending.exitCode = 2 then IO.eprintln "usage: chip8-vm --rom FILE [--headless] [OPTIONS]"
  return ending.exitCode.toUInt32

end
