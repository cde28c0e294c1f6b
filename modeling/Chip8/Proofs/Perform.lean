/-
  Chip8.Proofs.Perform

  What performing an instruction comes to. `Instruction.obstacle?` says what keeps an
  instruction from being performed, `Instruction.work` what it leaves when nothing does
  and `Instruction.flow` where it sends the program counter then; `perform_eq` says that
  this is all. What holds of every instruction is proved of these three functions, by
  cases on the instruction.
-/
import Chip8.Machine.Execute

namespace Chip8

/-! ## The stack without its checks -/

namespace CallStack

theorem depth_sub_one_lt (s : CallStack) : s.depth - 1 < capacity := by
  have hle := s.depth_le
  have hpos : 0 < capacity := by decide
  omega

/-- The newest return address. On an empty stack it means nothing. -/
def top (s : CallStack) : Word :=
  getElem s.slots (s.depth - 1) s.depth_sub_one_lt

/-- The stack without its newest frame. -/
def popped (s : CallStack) : CallStack where
  slots := s.slots
  depth := s.depth - 1
  depth_le := Nat.le_of_lt s.depth_sub_one_lt

/-- The stack with one more frame, if there is a slot left. -/
def pushed (s : CallStack) (address : Word) : CallStack :=
  if h : s.depth < capacity then ⟨s.slots.set s.depth address, s.depth + 1, h⟩ else s

theorem pop_of_depth_eq (s : CallStack) (h : s.depth = 0) : s.pop = .error .stackUnderflow :=
  dif_pos h

theorem pop_of_depth_ne (s : CallStack) (h : s.depth ≠ 0) : s.pop = .ok (s.top, s.popped) :=
  dif_neg h

theorem push_of_depth_eq (s : CallStack) (address : Word) (h : s.depth = 16) :
    s.push address = .error .stackOverflow :=
  dif_neg (by rw [h]; exact Nat.lt_irrefl 16)

theorem push_of_depth_ne (s : CallStack) (address : Word) (h : s.depth ≠ 16) :
    s.push address = .ok (s.pushed address) := by
  have hlt : s.depth < capacity := Nat.lt_of_le_of_ne s.depth_le h
  rw [push, pushed, dif_pos hlt, dif_pos hlt]

theorem frames_pushed (s : CallStack) (address : Word) (h : s.depth ≠ 16) :
    (s.pushed address).frames = s.frames ++ [address] := by
  have hlt : s.depth < capacity := Nat.lt_of_le_of_ne s.depth_le h
  have heq := push_eq s address
  rw [push_of_depth_ne s address h, if_pos hlt] at heq
  exact Except.ok.inj heq

theorem frames_eq_popped (s : CallStack) (h : s.depth ≠ 0) :
    s.frames = s.popped.frames ++ [s.top] := by
  have hne : s.frames ≠ [] := by
    intro hnil
    exact h (by rw [← length_frames, hnil, List.length_nil])
  have heq := pop_eq s
  rw [pop_of_depth_ne s h, List.getLast?_eq_some_getLast hne] at heq
  simp only [Except.map, Except.ok.injEq, Prod.mk.injEq] at heq
  rw [heq.1, heq.2, List.dropLast_concat_getLast hne]

end CallStack

/-! ## What keeps an instruction from being performed -/

namespace Machine

/-- Why the `length` bytes at the index cannot be had, if they cannot. -/
def rangeObstacle? (m : Machine) (length : Nat) : Option Error :=
  if m.registers.index.toNat + length ≤ 4096 then none
  else some (.addressOutOfRange (max m.registers.index.toNat 4096))

theorem rangeObstacle?_eq_some_iff (m : Machine) (length : Nat) (cause : Error) :
    m.rangeObstacle? length = some cause ↔
      4096 < m.registers.index.toNat + length ∧
        cause = .addressOutOfRange (max m.registers.index.toNat 4096) := by
  unfold rangeObstacle?
  split
  · next h => simp [Nat.not_lt.mpr h]
  · next h => simp [Nat.not_le.mp h, eq_comm]

/-- The `length` bytes at the index, or none at all if they do not all exist. -/
def bytesAtIndex (m : Machine) (length : Nat) : List UInt8 :=
  if h : m.registers.index.toNat + length ≤ 4096 then
    m.memory.slice m.registers.index.toNat length h
  else []

theorem length_bytesAtIndex {m : Machine} {length : Nat} (h : m.rangeObstacle? length = none) :
    (m.bytesAtIndex length).length = length := by
  unfold rangeObstacle? at h
  split at h
  · next hfit => rw [bytesAtIndex, dif_pos hfit, Memory.length_slice]
  · cases h

end Machine

namespace Instruction

/-- Number of bytes at the index that an instruction reads or writes. -/
def window? : Instruction → Option Nat
  | .draw _ _ rows => some rows
  | .storeDecimal _ => some 3
  | .storeRegisters x => some (x + 1)
  | .loadRegisters x => some (x + 1)
  | _ => none

/-- Why an instruction cannot be performed, if it cannot. -/
def obstacle? (m : Machine) : Instruction → Option Error
  | .ret => if m.stack.depth = 0 then some .stackUnderflow else none
  | .call _ => if m.stack.depth = 16 then some .stackOverflow else none
  | .unknown word => some (.unknownWord word)
  | i => i.window?.bind m.rangeObstacle?

/-- The obstacles: an empty or a full stack, a range that leaves the memory, or a word
    that is no instruction. -/
theorem obstacle?_eq_some_iff (i : Instruction) (m : Machine) (cause : Error) :
    i.obstacle? m = some cause ↔
      (i = .ret ∧ m.stack.depth = 0 ∧ cause = .stackUnderflow) ∨
      (∃ address, i = .call address ∧ m.stack.depth = 16 ∧ cause = .stackOverflow) ∨
      (∃ length, i.window? = some length ∧ 4096 < m.registers.index.toNat + length ∧
        cause = .addressOutOfRange (max m.registers.index.toNat 4096)) ∨
      (∃ word, i = .unknown word ∧ cause = .unknownWord word) := by
  cases i with
  | ret | call | unknown => simp [obstacle?, window?, eq_comm]
  | draw | storeDecimal | storeRegisters | loadRegisters =>
      simp [obstacle?, window?, Machine.rangeObstacle?_eq_some_iff]
  | _ => simp [obstacle?, window?]

theorem obstacle?_ret_eq_none_iff (m : Machine) :
    obstacle? m .ret = none ↔ m.stack.depth ≠ 0 := by
  simp [obstacle?]

theorem obstacle?_call_eq_none_iff (m : Machine) (address : Word) :
    obstacle? m (.call address) = none ↔ m.stack.depth ≠ 16 := by
  simp [obstacle?]

theorem obstacle?_eq_unknownWord_iff (i : Instruction) (m : Machine) (word : Word) :
    i.obstacle? m = some (.unknownWord word) ↔ i = .unknown word := by
  rw [obstacle?_eq_some_iff]
  constructor
  · rintro (⟨-, -, h⟩ | ⟨_, -, -, h⟩ | ⟨_, -, -, h⟩ | ⟨unknown, rfl, h⟩)
    · cases h
    · cases h
    · cases h
    · rw [Error.unknownWord.inj h]
  · rintro rfl
    exact Or.inr (Or.inr (Or.inr ⟨word, rfl, rfl⟩))

end Instruction

/-! ## What an instruction does if nothing keeps it -/

/-- The registers with what an operation yields in `V x`, and its flag, if it has
    one, in VF. -/
def Operation.Yield.commit (yield : Operation.Yield) (r : Registers) (x : Fin 16) : Registers :=
  match yield.flag with
  | none => r.set x yield.value
  | some flag => r.setWithFlag x yield.value flag

/-- The registers after `x + 1` bytes were transferred in a dialect. -/
def Registers.afterTransfer (r : Registers) (dialect : Dialect) (x : Fin 16) : Registers :=
  if dialect.transferMovesIndex then r.setIndex (r.index + x.val.toUInt16 + 1) else r

theorem Operation.Yield.commit_pc (yield : Operation.Yield) (r : Registers) (x : Fin 16) :
    (yield.commit r x).pc = r.pc := by
  unfold commit
  split
  · rfl
  · rfl

theorem Operation.Yield.commit_index (yield : Operation.Yield) (r : Registers) (x : Fin 16) :
    (yield.commit r x).index = r.index := by
  unfold commit
  split
  · rfl
  · rfl

theorem Registers.afterTransfer_pc (r : Registers) (dialect : Dialect) (x : Fin 16) :
    (r.afterTransfer dialect x).pc = r.pc := by
  unfold afterTransfer
  split
  · rfl
  · rfl

theorem Registers.get_afterTransfer (r : Registers) (dialect : Dialect) (x y : Fin 16) :
    (r.afterTransfer dialect x).get y = r.get y := by
  unfold afterTransfer
  split
  · rfl
  · rfl

@[simp] theorem length_decimalDigits (value : UInt8) : (decimalDigits value).length = 3 := rfl

/-- The values that a transfer of V0 to `V x` takes from the registers. -/
def Registers.upTo (r : Registers) (x : Fin 16) : List UInt8 :=
  r.v.toList.take (x + 1)

@[simp] theorem Registers.length_upTo (r : Registers) (x : Fin 16) :
    (r.upTo x).length = x + 1 := by
  have hx := x.isLt
  simp only [upTo, List.length_take, Vector.length_toList]
  omega

namespace Instruction

/-- Where an instruction sends the program counter. -/
def flow (m : Machine) : Instruction → Flow
  | .ret => .jump m.stack.top
  | .jump address => .jump address
  | .call address => .jump address
  | .skipIf condition => if condition.holds m then .skip else .next
  | .jumpOffset x address =>
    .jump (address + (m.registers.get (if m.dialect.jumpReadsX then x else 0)).toUInt16)
  | .waitKey _ => .stay
  | _ => .next

/-- The machine after an instruction has done its work, the program counter aside. -/
def work (m : Machine) : Instruction → Machine
  | .clearScreen => { m with screen := .blank }
  | .ret => { m with stack := m.stack.popped }
  | .call _ => { m with stack := m.stack.pushed (m.registers.pc + 2).address }
  | .loadByte x byte => { m with registers := m.registers.set x byte }
  | .addByte x byte => { m with registers := m.registers.set x (m.registers.get x + byte) }
  | .combine operation x y =>
    let yield := operation.apply m.dialect (m.registers.get x) (m.registers.get y)
    { m with registers := yield.commit m.registers x }
  | .loadIndex address => { m with registers := m.registers.setIndex address }
  | .random x mask =>
    { m with
      registers := m.registers.set x (m.random.byte &&& mask), random := m.random.next }
  | .draw x y rows =>
    let drawn := m.screen.draw (m.registers.get x).toNat (m.registers.get y).toNat
      (m.bytesAtIndex rows)
    { m with screen := drawn.screen, registers := m.registers.setFlag drawn.collided }
  | .waitKey x => { m with mode := .awaitingKey x none }
  | .loadDelay x => { m with registers := m.registers.set x m.timers.delay }
  | .setDelay x => { m with timers := { m.timers with delay := m.registers.get x } }
  | .setSound x => { m with timers := { m.timers with sound := m.registers.get x } }
  | .addIndex x =>
    { m with
      registers := m.registers.setIndex (m.registers.index + (m.registers.get x).toUInt16) }
  | .fontGlyph x =>
    { m with registers :=
        m.registers.setIndex (Font.glyphAddress (lowDigit (m.registers.get x))).toUInt16 }
  | .storeDecimal x =>
    { m with memory :=
        m.memory.store m.registers.index.toNat (decimalDigits (m.registers.get x)) }
  | .storeRegisters x =>
    { m with
      memory := m.memory.store m.registers.index.toNat (m.registers.upTo x)
      registers := m.registers.afterTransfer m.dialect x }
  | .loadRegisters x =>
    { m with
      registers := (m.registers.setFirst (m.bytesAtIndex (x + 1))).afterTransfer m.dialect x }
  | .sys _ | .jump _ | .skipIf _ | .jumpOffset .. | .unknown _ => m

end Instruction

/-! ## The parts that can fail -/

namespace Effect

variable (m : Machine)

theorem popFrame_eq :
    popFrame m = if m.stack.depth = 0 then .error .stackUnderflow m
      else .ok m.stack.top { m with stack := m.stack.popped } := by
  by_cases h : m.stack.depth = 0
  · rw [popFrame, CallStack.pop_of_depth_eq _ h, if_pos h]
  · rw [popFrame, CallStack.pop_of_depth_ne _ h, if_neg h]

theorem pushFrame_eq (address : Word) :
    pushFrame address m = if m.stack.depth = 16 then .error .stackOverflow m
      else .ok () { m with stack := m.stack.pushed address } := by
  by_cases h : m.stack.depth = 16
  · rw [pushFrame, CallStack.push_of_depth_eq _ _ h, if_pos h]
  · rw [pushFrame, CallStack.push_of_depth_ne _ _ h, if_neg h]

theorem bytesAtIndex_eq (length : Nat) :
    bytesAtIndex length m = match m.rangeObstacle? length with
      | some cause => .error cause m
      | none => .ok (m.bytesAtIndex length) m := by
  by_cases h : m.registers.index.toNat + length ≤ 4096
  · simp only [bytesAtIndex, look?, Memory.readRange, Machine.rangeObstacle?,
      Machine.bytesAtIndex, dif_pos h, if_pos h]
  · simp only [bytesAtIndex, look?, Memory.readRange, Machine.rangeObstacle?, dif_neg h,
      if_neg h]

theorem storeAtIndex_eq (values : List UInt8) :
    storeAtIndex values m = match m.rangeObstacle? values.length with
      | some cause => .error cause m
      | none => .ok () { m with memory := m.memory.store m.registers.index.toNat values } := by
  unfold storeAtIndex Memory.writeRange Machine.rangeObstacle?
  by_cases h : m.registers.index.toNat + values.length ≤ 4096
  · rw [if_pos h, if_pos h]
  · rw [if_neg h, if_neg h]

theorem afterTransfer_eq (x : Fin 16) :
    afterTransfer x m =
      .ok () { m with registers := m.registers.afterTransfer m.dialect x } := by
  unfold afterTransfer Registers.afterTransfer
  simp only [bind, EStateM.bind, look]
  split
  · rfl
  · rfl

end Effect

/-! ## Instructions -/

namespace Instruction

/-- An instruction with an obstacle fails because of it and changes nothing. One
    without an obstacle does its work. -/
theorem perform_eq (i : Instruction) (m : Machine) :
    i.perform m = match i.obstacle? m with
      | some cause => .error cause m
      | none => .ok (i.flow m) (i.work m) := by
  cases i with
  | ret =>
      by_cases h : m.stack.depth = 0
      · simp only [perform, bind, EStateM.bind, Effect.popFrame_eq, obstacle?, if_pos h]
      · simp only [perform, bind, EStateM.bind, Effect.popFrame_eq, obstacle?, if_neg h]
        rfl
  | call address =>
      by_cases h : m.stack.depth = 16
      · simp only [perform, bind, EStateM.bind, Effect.look, Effect.pushFrame_eq, obstacle?,
          if_pos h]
      · simp only [perform, bind, EStateM.bind, Effect.look, Effect.pushFrame_eq, obstacle?,
          if_neg h]
        rfl
  | combine operation x y =>
      cases h : (operation.apply m.dialect (m.registers.get x) (m.registers.get y)).flag with
      | none =>
          simp only [perform, bind, EStateM.bind, Effect.look, Effect.register, work,
            Operation.Yield.commit, h]
          rfl
      | some flag =>
          simp only [perform, bind, EStateM.bind, Effect.look, Effect.register, work,
            Operation.Yield.commit, h]
          rfl
  | draw x y rows =>
      simp only [perform, bind, EStateM.bind, Effect.look, Effect.register,
        Effect.bytesAtIndex_eq, obstacle?, window?, Option.bind_some]
      cases m.rangeObstacle? rows with
      | some cause => rfl
      | none => rfl
  | storeDecimal x =>
      simp only [perform, bind, EStateM.bind, Effect.look, Effect.register,
        Effect.storeAtIndex_eq, obstacle?, window?, Option.bind_some, length_decimalDigits]
      cases m.rangeObstacle? 3 with
      | some cause => rfl
      | none => rfl
  | storeRegisters x =>
      have hlength := m.registers.length_upTo x
      unfold Registers.upTo at hlength
      simp only [perform, bind, EStateM.bind, Effect.look, Effect.storeAtIndex_eq,
        Effect.afterTransfer_eq, obstacle?, window?, Option.bind_some, hlength]
      cases m.rangeObstacle? (x + 1) with
      | some cause => rfl
      | none => rfl
  | loadRegisters x =>
      simp only [perform, bind, EStateM.bind, Effect.bytesAtIndex_eq, Effect.registers,
        Effect.afterTransfer_eq, obstacle?, window?, Option.bind_some]
      cases m.rangeObstacle? (x + 1) with
      | some cause => rfl
      | none => rfl
  -- the rest has no part that could fail
  | sys | clearScreen | jump | skipIf | loadByte | addByte | loadIndex | jumpOffset | random
  | waitKey | loadDelay | setDelay | setSound | addIndex | fontGlyph | unknown => rfl

theorem perform_of_obstacle {i : Instruction} {m : Machine} {cause : Error}
    (h : i.obstacle? m = some cause) : i.perform m = .error cause m := by
  rw [perform_eq, h]

theorem perform_of_no_obstacle {i : Instruction} {m : Machine} (h : i.obstacle? m = none) :
    i.perform m = .ok (i.flow m) (i.work m) := by
  rw [perform_eq, h]

end Instruction

end Chip8
