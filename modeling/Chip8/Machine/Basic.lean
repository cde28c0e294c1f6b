/-
  Chip8.Machine.Basic

  The machine: everything that a program or a host can see or change, and what a
  call of the host gives back.
-/
import Chip8.CallStack
import Chip8.Dialect
import Chip8.Keypad
import Chip8.Memory
import Chip8.RandomStream.Generator
import Chip8.Record
import Chip8.Registers
import Chip8.Screen
import Chip8.Timers

namespace Chip8

open RandomStream (Generator)

/-- What a machine does with its next cycle. -/
inductive Mode where
  /-- It executes an instruction. -/
  | running
  /-- It waits for a key to go down, whose number goes to the register with the
      given number. The first key to go down while it waits is kept in
      `pressed` until the next cycle. -/
  | awaitingKey (register : Nat) (pressed : Option UInt8)
  deriving DecidableEq

/-- A machine. -/
structure Machine where
  memory : Memory
  registers : Registers
  stack : CallStack
  timers : Timers
  screen : Screen
  keypad : Keypad
  mode : Mode
  dialect : Dialect
  unknownWords : UnknownWordPolicy
  /-- The last word that was executed. -/
  lastWord : Word
  /-- Counts the words that are executed and the waits that a key ends, modulo 2^64. A word
      that starts a wait counts at its start, like any other. -/
  counter : UInt64
  /-- The file that the program came from, if it came from one. -/
  source : Option String
  random : Generator
  deriving DecidableEq

namespace Machine

/-- A machine just switched on. -/
def initial (random : Generator) : Machine where
  memory := .initial
  registers := .initial
  stack := .empty
  timers := .initial
  screen := .blank
  keypad := .released
  mode := .running
  dialect := .classic
  unknownWords := .halt
  lastWord := 0
  counter := 0
  source := none
  random := random

/-- What the counter shows, as a number. -/
def cycles (m : Machine) : Nat :=
  m.counter.toNat

/-- Whether the machine waits for a key. -/
def isAwaitingKey (m : Machine) : Bool :=
  match m.mode with
  | .running => false
  | .awaitingKey .. => true

/-- The machine with its program counter moved on. -/
def advance (m : Machine) (distance : Word) : Machine :=
  { m with registers := m.registers.advance distance }

/-- The machine with a random stream from its start. -/
def seed (m : Machine) (seed : UInt64) : Machine :=
  { m with random := .ofSeed seed }

end Machine

/-! ## Calls of the host -/

/-- What a call gives back: its result, the machine after it, which a failed call
    has too, and what was logged, oldest record first. -/
structure Outcome (α : Type) where
  result : Except Error α
  machine : Machine
  log : List Record

namespace Outcome

variable {α β : Type}

/-- A call that succeeded without a record. -/
def done (value : α) (m : Machine) : Outcome α := ⟨.ok value, m, []⟩

/-- A call that failed without a record. -/
def failed (error : Error) (m : Machine) : Outcome α := ⟨.error error, m, []⟩

/-- Goes on with another call, unless the first one failed. -/
def andThen (first : Outcome α) (next : α → Machine → Outcome β) : Outcome β :=
  match first.result with
  | .error error => ⟨.error error, first.machine, first.log⟩
  | .ok value =>
    let second := next value first.machine
    { second with log := first.log ++ second.log }

end Outcome

end Chip8
