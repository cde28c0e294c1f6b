/-
  Chip8.Headless

  Runs without a window: a program file is run for a number of cycles, at a given
  speed against the timers, and what is left is the machine or an error.
-/
import Chip8.Machine.Run

namespace Chip8

open RandomStream (Generator)

namespace Headless

/-- How to run a program. -/
structure Config where
  dialect : Dialect
  unknownWords : UnknownWordPolicy
  /-- Cycles in a second. -/
  speed : Nat
  /-- The seed of the random stream. Without one it starts anywhere. -/
  seed : Option UInt64
  deriving DecidableEq

/-- The classic dialect at 700 cycles a second. -/
def Config.standard : Config where
  dialect := .classic
  unknownWords := .halt
  speed := 700
  seed := none

/-- Cycles from one tick to the next. -/
def Config.period (c : Config) : Nat :=
  max 1 (c.speed / Timers.rate)

/-- A machine with the program of a file, set up as configured. Without a seed its
    random stream is `entropy`. -/
def prepare (files : FileSystem) (entropy : Generator) (config : Config) (path : String) :
    Outcome Unit :=
  if config.speed = 0 then .failed (.invalidArgument "cpu_hz must be > 0") (.initial entropy)
  else
    (Machine.boot files (some path) entropy).andThen fun _ m =>
      let random := match config.seed with
        | none => m.random
        | some seed => .ofSeed seed
      ⟨.ok (), { m with dialect := config.dialect, unknownWords := config.unknownWords, random },
        [.programReady path]⟩

/-- Runs a machine that is ready for `limit` cycles. -/
def finish (config : Config) (limit : Nat) (m : Machine) : Outcome Unit :=
  let run := m.run config.period limit
  match run.error? with
  | none => ⟨.ok (), run.machine, run.log.toList⟩
  | some error => ⟨.error error, run.machine, (run.log.push (.halting run.completed error)).toList⟩

/-- Runs the program of a file for `limit` cycles. -/
def run (files : FileSystem) (entropy : Generator) (config : Config) (path : String)
    (limit : Nat) : Outcome Unit :=
  if limit = 0 then .failed (.invalidArgument "max_cycles must be > 0") (.initial entropy)
  else (prepare files entropy config path).andThen fun _ m => finish config limit m

end Headless

end Chip8
