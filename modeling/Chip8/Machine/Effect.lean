/-
  Chip8.Machine.Effect

  The parts that instructions are made of: each looks at one part of the machine
  or changes it, and those that can fail leave the machine as it was when they do.
-/
import Chip8.Machine.Basic

namespace Chip8

/-- What an instruction does to a machine while it is executed. An error keeps
    the machine as it is at that point. -/
abbrev Effect := EStateM Error Machine

namespace Effect

/-! ## Looking -/

/-- Something about the machine. -/
def look {α : Type} (f : Machine → α) : Effect α :=
  fun m => .ok (f m) m

/-- Something about the machine that may not exist. -/
def look? {α : Type} (f : Machine → Except Error α) : Effect α :=
  fun m => match f m with
    | .ok value => .ok value m
    | .error error => .error error m

/-- The value of `V x`. -/
def register (x : Fin 16) : Effect UInt8 :=
  look fun m => m.registers.get x

/-- The `length` bytes at the index. -/
def bytesAtIndex (length : Nat) : Effect (List UInt8) :=
  look? fun m => m.memory.readRange m.registers.index.toNat length

/-! ## Changing -/

/-- Changes the registers. -/
def registers (f : Registers → Registers) : Effect Unit :=
  fun m => .ok () { m with registers := f m.registers }

/-- Puts `value` in `V x`. -/
def setRegister (x : Fin 16) (value : UInt8) : Effect Unit :=
  registers fun r => r.set x value

/-- Puts `values` at the index. -/
def storeAtIndex (values : List UInt8) : Effect Unit :=
  fun m => match m.memory.writeRange m.registers.index.toNat values with
    | .ok memory => .ok () { m with memory }
    | .error error => .error error m

/-- Puts a return address on the stack. -/
def pushFrame (address : Word) : Effect Unit :=
  fun m => match m.stack.push address with
    | .ok stack => .ok () { m with stack }
    | .error error => .error error m

/-- Takes the newest return address from the stack. -/
def popFrame : Effect Word :=
  fun m => match m.stack.pop with
    | .ok (address, stack) => .ok address { m with stack }
    | .error error => .error error m

/-- Changes the timers. -/
def timers (f : Timers → Timers) : Effect Unit :=
  fun m => .ok () { m with timers := f m.timers }

/-- Clears the screen. -/
def blankScreen : Effect Unit :=
  fun m => .ok () { m with screen := .blank }

/-- Draws a sprite, and tells whether it collided. -/
def drawSprite (x y : Nat) (sprite : List UInt8) : Effect Bool :=
  fun m =>
    let drawn := m.screen.draw x y sprite
    .ok drawn.collided { m with screen := drawn.screen }

/-- Takes a random byte. -/
def randomByte : Effect UInt8 :=
  fun m => .ok m.random.byte { m with random := m.random.next }

/-- Waits for a key, whose number is to go to `V x`. -/
def awaitKey (x : Fin 16) : Effect Unit :=
  fun m => .ok () { m with mode := .awaitingKey x none }

end Effect

end Chip8
