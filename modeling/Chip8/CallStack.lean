/-
  Chip8.CallStack

  The stack of return addresses: sixteen slots, of which the first `depth` hold
  the frames in use. A slot above them keeps what was last there, and nothing
  reads it.
-/
import Chip8.Error
import Chip8.Word

namespace Chip8

/-- Number of slots for return addresses. -/
def CallStack.capacity : Nat := 16

/-- Slots for return addresses. -/
structure CallStack where
  slots : Vector Word CallStack.capacity
  /-- Number of slots in use. -/
  depth : Nat
  depth_le : depth ≤ CallStack.capacity
  deriving DecidableEq

namespace CallStack

/-- The stack with no call outstanding. -/
def empty : CallStack where
  slots := Vector.replicate capacity 0
  depth := 0
  depth_le := by decide

/-- Whether no call is outstanding. -/
def isEmpty (s : CallStack) : Bool :=
  s.depth == 0

/-- The return addresses of the calls outstanding, oldest first. -/
def frames (s : CallStack) : List Word :=
  s.slots.toList.take s.depth

/-- The stack with `address` on top. -/
def push (s : CallStack) (address : Word) : Except Error CallStack :=
  if h : s.depth < capacity then
    .ok { slots := s.slots.set s.depth address, depth := s.depth + 1, depth_le := h }
  else .error .stackOverflow

/-- The newest return address, and the stack without it. -/
def pop (s : CallStack) : Except Error (Word × CallStack) :=
  if h : s.depth = 0 then .error .stackUnderflow
  else
    have := s.depth_le
    .ok (s.slots[s.depth - 1], { slots := s.slots, depth := s.depth - 1, depth_le := by omega })

/-! ## The frames -/

@[simp] theorem frames_empty : empty.frames = [] := rfl

@[simp] theorem length_frames (s : CallStack) : s.frames.length = s.depth := by
  have := s.depth_le
  simp [frames]
  omega

/-- A push appends to the frames, if there is a slot left. -/
theorem push_eq (s : CallStack) (address : Word) :
    (s.push address).map frames =
      if s.depth < capacity then .ok (s.frames ++ [address]) else .error .stackOverflow := by
  unfold push
  split
  · next h =>
    have hlen : (s.slots.toList.take s.depth).length = s.depth := by
      simp only [List.length_take, Vector.length_toList]
      omega
    simp only [Except.map, frames, Vector.toList_set, List.take_add_one]
    rw [List.take_set_of_le (Nat.le_refl _)]
    simp [h]
  · rfl

/-- A pop takes the last of the frames, if there is one. -/
theorem pop_eq (s : CallStack) :
    (s.pop).map (fun popped => (popped.1, popped.2.frames)) =
      match s.frames.getLast? with
      | some address => .ok (address, s.frames.dropLast)
      | none => .error .stackUnderflow := by
  have hle := s.depth_le
  unfold pop
  split
  · next h => simp [frames, h, Except.map]
  · next h =>
    have hlast : s.frames.getLast? = some s.slots[s.depth - 1] := by
      rw [List.getLast?_eq_getElem?, length_frames]
      simp [frames, show s.depth - 1 < s.depth by omega, show s.depth - 1 < capacity by omega]
    have hmin : min s.depth capacity = s.depth := by omega
    rw [hlast]
    simp [Except.map, frames, List.dropLast_eq_take, List.take_take, hmin]

end CallStack

end Chip8
