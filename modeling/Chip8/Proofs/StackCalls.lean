/-
  Chip8.Proofs.StackCalls

  The call stack as a list. A `FrameList` is a list of at most sixteen return addresses: a push
  appends to it and a pop takes its last element. A stack stands for the list of its frames
  (`CallStack.frameList`), which does not mention the slots above them. What one push or pop
  does to the stack, it does to the list (`CallStack.call_frameList`), and by induction any
  number of them look the same from outside at both (`calls_refine_list`).
-/
import Chip8.Proofs.Perform

namespace Chip8

/-- A call at a stack of return addresses. -/
inductive StackCall where
  | push (address : Word)
  | pop

/-- What can be seen of a stack once a call was answered. -/
structure StackAnswer where
  /-- What the call gave back: for a pop that succeeds, the address taken from the stack. -/
  result : Except Error (Option Word)
  /-- The return addresses, oldest first. -/
  frames : List Word
  depth : Nat
  isEmpty : Bool

/-! ## Lists -/

/-- At most sixteen return addresses, oldest first. -/
structure FrameList where
  toList : List Word
  length_le : toList.length ≤ 16

namespace FrameList

/-- No return address. -/
def empty : FrameList where
  toList := []
  length_le := by decide

/-- The list with one more address at its end. -/
def append (l : FrameList) (address : Word) (h : l.toList.length < 16) : FrameList where
  toList := l.toList ++ [address]
  length_le := by
    rw [List.length_append, List.length_singleton]
    exact h

/-- The list without its last address. -/
def dropLast (l : FrameList) : FrameList where
  toList := l.toList.dropLast
  length_le := by
    have hle := l.length_le
    rw [List.length_dropLast]
    omega

/-- What a call gives back, and the list after it. A push fails on sixteen addresses and a pop
    on none, and a call that fails leaves the list as it was. -/
def call (l : FrameList) : StackCall → Except Error (Option Word) × FrameList
  | .push address =>
    if h : l.toList.length < 16 then (.ok none, l.append address h)
    else (.error .stackOverflow, l)
  | .pop =>
    match l.toList.getLast? with
    | some address => (.ok (some address), l.dropLast)
    | none => (.error .stackUnderflow, l)

/-- The answers to some calls, one after the other. -/
def answers (l : FrameList) : List StackCall → List StackAnswer
  | [] => []
  | call :: calls =>
    let (result, after) := l.call call
    ⟨result, after.toList, after.toList.length, after.toList.isEmpty⟩ :: after.answers calls

end FrameList

/-! ## Stacks -/

namespace CallStack

/-- The list that a stack stands for. -/
def frameList (s : CallStack) : FrameList where
  toList := s.frames
  length_le := s.length_frames ▸ s.depth_le

/-- What a call gives back, and the stack after it. -/
def call (s : CallStack) : StackCall → Except Error (Option Word) × CallStack
  | .push address =>
    match s.push address with
    | .ok pushed => (.ok none, pushed)
    | .error error => (.error error, s)
  | .pop =>
    match s.pop with
    | .ok (address, popped) => (.ok (some address), popped)
    | .error error => (.error error, s)

/-- The answers to some calls, one after the other. -/
def answers (s : CallStack) : List StackCall → List StackAnswer
  | [] => []
  | call :: calls =>
    let (result, after) := s.call call
    ⟨result, after.frames, after.depth, after.isEmpty⟩ :: after.answers calls

/-! ## One call -/

theorem isEmpty_eq (s : CallStack) : s.isEmpty = s.frames.isEmpty := by
  have hlength := s.length_frames
  cases hframes : s.frames with
  | nil =>
      rw [hframes, List.length_nil] at hlength
      rw [isEmpty, ← hlength]
      rfl
  | cons frame frames =>
      rw [hframes, List.length_cons] at hlength
      rw [isEmpty, ← hlength]
      rfl

/-- What a push does to a stack, it does to the list of its frames. -/
theorem push_frameList (s : CallStack) (address : Word) :
    s.frameList.call (.push address) =
      ((s.call (.push address)).1, (s.call (.push address)).2.frameList) := by
  have hlength : s.frameList.toList.length = s.depth := s.length_frames
  have hle : s.depth ≤ 16 := s.depth_le
  rw [FrameList.call, call]
  by_cases hfull : s.depth = 16
  · -- a full stack and a full list are left alone
    rw [dif_neg (by omega), push_of_depth_eq s address hfull]
  · -- in the list there is no word about the slot that is overwritten
    have hframes := s.frames_pushed address hfull
    rw [dif_pos (by omega), push_of_depth_ne s address hfull]
    simp only [frameList, FrameList.append, hframes]

/-- What a pop does to a stack, it does to the list of its frames. -/
theorem pop_frameList (s : CallStack) :
    s.frameList.call .pop = ((s.call .pop).1, (s.call .pop).2.frameList) := by
  rw [FrameList.call, call]
  by_cases hnone : s.depth = 0
  · have hframes : s.frameList.toList = [] := by
      rw [← List.length_eq_zero_iff]
      exact s.length_frames.trans hnone
    rw [hframes, pop_of_depth_eq s hnone]
    rfl
  · -- the address stays behind in its slot, and the list forgets it
    have hframes : s.frameList.toList = s.popped.frames ++ [s.top] := s.frames_eq_popped hnone
    rw [hframes, pop_of_depth_ne s hnone, List.getLast?_concat]
    simp only [frameList, FrameList.dropLast, s.frames_eq_popped hnone, List.dropLast_concat]

theorem call_frameList (s : CallStack) (call : StackCall) :
    s.frameList.call call = ((s.call call).1, (s.call call).2.frameList) := by
  cases call with
  | push address => exact s.push_frameList address
  | pop => exact s.pop_frameList

/-! ## Any number of calls -/

/-- Calls at a stack look the same from outside as calls at the list of its frames. -/
theorem answers_frameList (s : CallStack) (calls : List StackCall) :
    s.answers calls = s.frameList.answers calls := by
  induction calls generalizing s with
  | nil => rfl
  | cons call calls ih =>
      simp only [answers, FrameList.answers, s.call_frameList call]
      rw [ih, isEmpty_eq, ← length_frames]
      rfl

/-- From the empty stack on, every push and pop answers as at a list of at most sixteen
    addresses, and so do those from any other stack and the list of its frames. What is in the
    slots above the frames plays no part, as it is not in the list. -/
theorem calls_refine_list (calls : List StackCall) :
    empty.answers calls = FrameList.empty.answers calls ∧
    ∀ s : CallStack, s.answers calls = s.frameList.answers calls := by
  refine ⟨?_, fun s => s.answers_frameList calls⟩
  have hempty : empty.frameList = FrameList.empty := rfl
  rw [answers_frameList, hempty]

/-- A pop that fails and an address left behind in its slot do not show in what comes later. -/
example :
    (empty.answers [.pop, .push 0x202, .pop, .push 0x300, .pop]).map StackAnswer.result =
      [.error .stackUnderflow, .ok none, .ok (some 0x202), .ok none, .ok (some 0x300)] := by
  rfl

end CallStack

end Chip8
