/-
  Chip8.CommandLine.Program

  The program behind the command line, as a function: from arguments, environment
  and files to an exit code, the text on standard output and an error.
-/
import Chip8.CommandLine.Arguments
import Chip8.Headless

namespace Chip8.CommandLine

open RandomStream (Generator)

/-- How the program ends. -/
structure Ending where
  /-- Zero on success, one after an error, two for arguments that are not well
      formed. -/
  exitCode : Nat
  standardOutput : String
  error? : Option Error
  log : List Record

namespace Ending

/-- The end of a program that was not given proper arguments. -/
def usage : Ending := ⟨2, "", none, []⟩

/-- The end of a program that failed. -/
def failure (error : Error) (log : List Record) : Ending := ⟨1, "", some error, log⟩

end Ending

/-- The line after the screen of a machine that ran to its end. -/
def summary (m : Machine) : String :=
  "headless finished: cycles=" ++ toString m.cycles ++ " pc=0x" ++ Text.hex 3 m.registers.pc.toNat
    ++ " awaiting_key=" ++ (if m.isAwaitingKey then "true" else "false") ++ "\n"

/-- The dialect to use: the option goes before the environment. -/
def chooseDialect (options : Options) (environment : Environment) :
    Except UnknownName Dialect :=
  match options.dialect with
  | some dialect => .ok dialect
  | none => (Dialect.ofEnvironment environment).map Prod.snd

/-- The policy to use: the option goes before the environment. -/
def choosePolicy (options : Options) (environment : Environment) :
    Except UnknownName UnknownWordPolicy :=
  match options.unknownWords with
  | some policy => .ok policy
  | none => UnknownWordPolicy.ofEnvironment environment

/-- Runs without a window, and shows what is left on the screen. -/
def runHeadless (files : FileSystem) (entropy : Generator) (options : Options)
    (dialect : Dialect) (unknownWords : UnknownWordPolicy) : Ending :=
  let config : Headless.Config :=
    { dialect, unknownWords, speed := options.speed, seed := options.seed }
  match Headless.run files entropy config options.path options.limit with
  | ⟨.error error, _, log⟩ => .failure error log
  | ⟨.ok (), m, log⟩ => ⟨0, m.screen.text ++ summary m, none, log⟩

/-- Does what the options ask for. Windows are not part of this program. -/
def perform (files : FileSystem) (environment : Environment) (entropy : Generator)
    (options : Options) : Ending :=
  match chooseDialect options environment with
  | .error name =>
    .failure (.invalidArgument "quirks must be original or modern") [.nameRejected name]
  | .ok dialect =>
    match choosePolicy options environment with
    | .error name =>
      .failure (.invalidArgument "unknown-opcode must be halt or skip") [.nameRejected name]
    | .ok policy =>
      if options.headless then runHeadless files entropy options dialect policy
      else
        .failure (.invalidArgument "built without the `window` feature; pass --headless")
          [.windowRequested options.scale options.framesPerSecond]

/-- Does what the arguments ask for. -/
def run (files : FileSystem) (environment : Environment) (entropy : Generator)
    (arguments : List String) : Ending :=
  match Options.ofArguments? arguments with
  | none => .usage
  | some options => perform files environment entropy options

end Chip8.CommandLine
