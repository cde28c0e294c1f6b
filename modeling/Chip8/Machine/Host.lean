/-
  Chip8.Machine.Host

  What the host of a machine does besides letting it run: tick the timers, move
  keys, pass over an instruction, load programs and reset.
-/
import Chip8.FileSystem
import Chip8.Machine.Basic

namespace Chip8

open RandomStream (Generator)

/-- The mode after a key was pressed: a machine that waits keeps the first one. -/
def Mode.afterPress (mode : Mode) (key : UInt8) : Mode :=
  match mode with
  | .awaitingKey register none => .awaitingKey register (some key)
  | mode => mode

namespace Machine

/-! ## Instructions, timers and the screen -/

/-- The machine past the instruction at its program counter, and running. -/
def skipInstruction (m : Machine) : Machine :=
  { m.advance 2 with mode := .running }

/-- A machine after a tick. -/
structure Ticked where
  machine : Machine
  /-- Whether the sound was on when the tick came. -/
  sounded : Bool

/-- Ticks the timers once. -/
def tick (m : Machine) : Ticked where
  machine := { m with timers := m.timers.tick }
  sounded := m.timers.isSounding

/-- A machine after some ticks. -/
structure TickedTimes where
  machine : Machine
  /-- At how many of the ticks the sound was on. -/
  soundings : Nat

/-- Ticks the timers `count` times. -/
def tickTimes (m : Machine) : Nat → TickedTimes
  | 0 => ⟨m, 0⟩
  | count + 1 =>
    let first := m.tick
    let rest := first.machine.tickTimes count
    ⟨rest.machine, rest.soundings + first.sounded.toNat⟩

/-- The machine with a dark screen. -/
def clearScreen (m : Machine) : Machine :=
  { m with screen := .blank }

/-! ## Keys -/

/-- Moves the key with the given number. Only a key that was up before and is
    down now counts as pressed. -/
def setKey (m : Machine) (number : Nat) (isDown : Bool) : Outcome Unit :=
  match m.keypad.write number isDown with
  | .error error => .failed error m
  | .ok moved =>
    let mode := if moved.pressed then m.mode.afterPress number.toUInt8 else m.mode
    .done () { m with keypad := moved.keypad, mode }

/-! ## Programs -/

/-- Puts a program into memory. -/
def loadProgram (m : Machine) (program : List UInt8) : Outcome Unit :=
  match m.memory.loadProgram program with
  | .error error => .failed error m
  | .ok memory => ⟨.ok (), { m with memory }, [.programLoaded program.length]⟩

/-- Puts the program of a file into memory, and remembers the file. -/
def loadFile (m : Machine) (files : FileSystem) (path : String) : Outcome Unit :=
  match files path with
  | .error reason => .failed (.file reason) m
  | .ok program =>
    (m.loadProgram program).andThen fun _ m => .done () { m with source := some path }

/-- Loads the file at `path`, if there is a path. -/
def loadFile? (m : Machine) (files : FileSystem) (path : Option String) : Outcome Unit :=
  match path with
  | none => .done () m
  | some path => m.loadFile files path

/-- A machine just switched on, with the program of a file if a path is given. -/
def boot (files : FileSystem) (path : Option String) (random : Generator) : Outcome Unit :=
  (initial random).loadFile? files path

/-- The machine as it was switched on, except for what a reset keeps: the dialect,
    the policy, the file of its program and the place in the random stream. -/
def powerOn (m : Machine) : Machine :=
  { initial m.random with
    dialect := m.dialect, unknownWords := m.unknownWords, source := m.source }

/-- Switches the machine off and on, and loads its program again if that came from
    a file. -/
def reset (m : Machine) (files : FileSystem) : Outcome Unit :=
  let blank : Outcome Unit := ⟨.ok (), m.powerOn, [.machineReset]⟩
  blank.andThen fun _ m => m.loadFile? files m.source

end Machine

end Chip8
