/-
  Chip8.Keypad

  The sixteen keys, up or down. The host moves them and the machine looks.
-/
import Chip8.Error

namespace Chip8

/-- For each key whether it is down. -/
structure Keypad where
  down : Vector Bool 16
  deriving DecidableEq

namespace Keypad

/-- All keys up. -/
def released : Keypad := ⟨Vector.replicate 16 false⟩

/-- Whether a key is down. -/
def isDown (pad : Keypad) (key : Fin 16) : Bool :=
  getElem pad.down key.val (Digit.lt key)

/-- The keys that are down, in ascending order. -/
def held (pad : Keypad) : List (Fin 16) :=
  (List.finRange 16).filter pad.isDown

/-- The lowest key that is down. -/
def firstHeld? (pad : Keypad) : Option (Fin 16) :=
  (List.finRange 16).find? pad.isDown

/-- `number` as the number of a key. -/
def number (number : Nat) : Except Error (Fin 16) :=
  if h : number < 16 then .ok ⟨number, h⟩ else .error (.invalidKey number)

/-- Whether the key with the given number is down. -/
def read (pad : Keypad) (n : Nat) : Except Error Bool :=
  (number n).map pad.isDown

/-- The keypad after the host moved a key. -/
structure Moved where
  keypad : Keypad
  /-- Whether the key was up before and is down now. -/
  pressed : Bool

/-- Moves one key. -/
def move (pad : Keypad) (key : Fin 16) (isDown : Bool) : Moved where
  keypad := ⟨pad.down.set key isDown (Digit.lt key)⟩
  pressed := isDown && !pad.isDown key

/-- Moves the key with the given number. -/
def write (pad : Keypad) (n : Nat) (isDown : Bool) : Except Error Moved :=
  (number n).map fun key => pad.move key isDown

/-! ## What a move leaves -/

/-- A moved key is where it was moved to, and the others stay. -/
theorem isDown_move (pad : Keypad) (key other : Fin 16) (isDown : Bool) :
    (pad.move key isDown).keypad.isDown other =
      if key = other then isDown else pad.isDown other := by
  simp [move, Keypad.isDown, Vector.getElem_set, Fin.ext_iff]

end Keypad

end Chip8
