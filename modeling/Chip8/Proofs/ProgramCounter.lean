/-
  Chip8.Proofs.ProgramCounter

  Where the program counter goes. `Machine.pcAfter` reads it off the digits of a word and
  the machine before it, and `execute_pc` says that every word that is executed moves the
  program counter there.
-/
import Chip8.Proofs.Cycle

namespace Chip8

/-! ## The law, in terms of words -/

namespace Machine

/-- Whether a word skips the one after it: it is a skip, and its condition holds. There are
    sixteen keys, and the number of one is taken around them. -/
def Skips (m : Machine) (w : Word) : Prop :=
  let v := m.registers.get
  let key : Fin 16 := ⟨(v w.x).toNat % 16, Nat.mod_lt _ (by decide)⟩
  w.family = 0x3 ∧ v w.x = w.byte ∨
  w.family = 0x4 ∧ v w.x ≠ w.byte ∨
  w.family = 0x5 ∧ w.n = 0 ∧ v w.x = v w.y ∨
  w.family = 0x9 ∧ w.n = 0 ∧ v w.x ≠ v w.y ∨
  w.family = 0xE ∧ w.byte = 0x9E ∧ m.keypad.isDown key = true ∨
  w.family = 0xE ∧ w.byte = 0xA1 ∧ m.keypad.isDown key = false

instance Skips.decidable (m : Machine) (w : Word) : Decidable (m.Skips w) :=
  inferInstanceAs (Decidable (_ ∨ _ ∨ _ ∨ _ ∨ _ ∨ _))

/-- The program counter after a word. -/
def pcAfter (m : Machine) (w : Word) : Nat :=
  let pc := m.registers.pc.toNat
  let address := w.toNat % 4096
  if w.family = 0x1 ∨ w.family = 0x2 then address
  else if w = 0x00EE then (m.stack.frames.getLastD 0).toNat % 4096
  else if w.family = 0xB then
    (address + (m.registers.get (if m.dialect.jumpReadsX then w.x else 0)).toNat) % 4096
  else if w.family = 0xF ∧ w.byte = 0x0A then pc
  else if m.Skips w then (pc + 4) % 4096
  else (pc + 2) % 4096

end Machine

/-! ## Where a flow leads -/

/-- The program counter after a flow from `pc`. -/
def Flow.target (flow : Flow) (pc : Word) : Nat :=
  match flow with
  | .next => (pc.toNat + 2) % 4096
  | .skip => (pc.toNat + 4) % 4096
  | .jump address => address.toNat % 4096
  | .stay => pc.toNat

namespace Machine

theorem toNat_advance_pc (m : Machine) (distance : Word) :
    (m.advance distance).registers.pc.toNat =
      (m.registers.pc.toNat + distance.toNat) % 4096 :=
  Word.toNat_address_add _ _

theorem toNat_follow_pc (m : Machine) (flow : Flow) :
    (m.follow flow).registers.pc.toNat = flow.target m.registers.pc := by
  cases flow with
  | next => exact m.toNat_advance_pc 2
  | skip => exact m.toNat_advance_pc 4
  | jump address => exact address.toNat_address
  | stay => rfl

/-- The work of an instruction leaves the program counter to its flow. -/
theorem work_pc (m : Machine) (i : Instruction) : (i.work m).registers.pc = m.registers.pc := by
  cases i with
  | combine operation x y => exact Operation.Yield.commit_pc ..
  | storeRegisters x => exact Registers.afterTransfer_pc ..
  | loadRegisters x =>
      rw [Instruction.work, Registers.afterTransfer_pc, Registers.setFirst_pc]
  | _ => rfl

theorem toNat_performed_pc (m : Machine) (i : Instruction) :
    (m.performed i).registers.pc.toNat = (i.flow m).target m.registers.pc := by
  rw [performed, toNat_follow_pc, work_pc]

/-! ## Words -/

variable {m : Machine} {w : Word}

theorem ne_ret_of_family (h : w.family ≠ 0x0) : w ≠ 0x00EE := by
  rintro rfl
  exact h rfl

/-- A word that does not jump, return, wait or skip goes on to the next one. -/
theorem pcAfter_eq_next (hjump : ¬ (w.family = 0x1 ∨ w.family = 0x2)) (hret : w ≠ 0x00EE)
    (hoffset : w.family ≠ 0xB) (hwait : ¬ (w.family = 0xF ∧ w.byte = 0x0A))
    (hskips : ¬ m.Skips w) : m.pcAfter w = (m.registers.pc.toNat + 2) % 4096 := by
  rw [pcAfter, if_neg hjump, if_neg hret, if_neg hoffset, if_neg hwait, if_neg hskips]

/-- Of these families all words but 00EE and FX0A go on to the next one. -/
theorem pcAfter_of_plain (hfamily : w.family ∈ [0x0, 0x6, 0x7, 0x8, 0xA, 0xC, 0xD, 0xF])
    (hret : w ≠ 0x00EE) (hwait : w.family = 0xF → w.byte ≠ 0x0A) :
    m.pcAfter w = (m.registers.pc.toNat + 2) % 4096 := by
  have hjump : ¬ (w.family = 0x1 ∨ w.family = 0x2) := by
    rintro (h | h)
    all_goals simp [h] at hfamily
  have hoffset : w.family ≠ 0xB := by
    intro h
    simp [h] at hfamily
  have hskips : ¬ m.Skips w := by
    rintro (⟨h, -⟩ | ⟨h, -⟩ | ⟨h, -⟩ | ⟨h, -⟩ | ⟨h, -⟩ | ⟨h, -⟩)
    all_goals simp [h] at hfamily
  exact pcAfter_eq_next hjump hret hoffset (fun h => hwait h.1 h.2) hskips

/-- The families of the skips. -/
theorem pcAfter_of_skip (hfamily : w.family ∈ [0x3, 0x4, 0x5, 0x9, 0xE]) :
    m.pcAfter w = if m.Skips w then (m.registers.pc.toNat + 4) % 4096
      else (m.registers.pc.toNat + 2) % 4096 := by
  have hret : w ≠ 0x00EE := ne_ret_of_family fun h => by simp [h] at hfamily
  simp only [List.mem_cons, List.not_mem_nil, or_false] at hfamily
  rcases hfamily with h | h | h | h | h
  all_goals simp [pcAfter, h, hret]

/-- A word that is no instruction looks like none of the words that do not go on. -/
theorem pcAfter_of_unknown (hword : ¬ w.IsInstruction) :
    m.pcAfter w = (m.registers.pc.toNat + 2) % 4096 := by
  have hnone := (Instruction.decode?_eq_none_iff w).mpr hword
  have hjump : ¬ (w.family = 0x1 ∨ w.family = 0x2) := by
    rintro (h | h)
    all_goals simp [Instruction.decode?, h] at hnone
  have hret : w ≠ 0x00EE := by
    rintro rfl
    cases hnone
  have hoffset : w.family ≠ 0xB := by
    intro h
    simp [Instruction.decode?, h] at hnone
  have hwait : ¬ (w.family = 0xF ∧ w.byte = 0x0A) := by
    rintro ⟨h, hbyte⟩
    simp [Instruction.decode?, h, Instruction.ofDeviceByte?, hbyte] at hnone
  have hskips : ¬ m.Skips w := by
    rintro (⟨h, -⟩ | ⟨h, -⟩ | ⟨h, hn, -⟩ | ⟨h, hn, -⟩ | ⟨h, hbyte, -⟩ | ⟨h, hbyte, -⟩)
    · simp [Instruction.decode?, h] at hnone
    · simp [Instruction.decode?, h] at hnone
    · simp [Instruction.decode?, h, hn] at hnone
    · simp [Instruction.decode?, h, hn] at hnone
    · simp [Instruction.decode?, h, Instruction.ofKeyByte?, hbyte] at hnone
    · simp [Instruction.decode?, h, Instruction.ofKeyByte?, hbyte] at hnone
  exact pcAfter_eq_next hjump hret hoffset hwait hskips

theorem skips_iff {condition : Condition} (hmeans : w.Says (.skipIf condition)) :
    w.family ∈ [0x3, 0x4, 0x5, 0x9, 0xE] ∧ (m.Skips w ↔ condition.holds m = true) := by
  cases hmeans with
  | equalsByte hfamily | differsByte hfamily => simp [Skips, hfamily, Condition.holds]
  | equals hfamily hn | differs hfamily hn => simp [Skips, hfamily, hn, Condition.holds]
  | keyDown hfamily hbyte | keyUp hfamily hbyte =>
      simp [Skips, hfamily, hbyte, Condition.holds, lowDigit]

theorem target_skipIf {condition : Condition} (hmeans : w.Says (.skipIf condition)) :
    ((Instruction.skipIf condition).flow m).target m.registers.pc = m.pcAfter w := by
  obtain ⟨hfamily, hskips⟩ := skips_iff (m := m) hmeans
  rw [pcAfter_of_skip hfamily, Instruction.flow]
  by_cases h : condition.holds m = true
  · rw [if_pos h, if_pos (hskips.mpr h)]
    rfl
  · rw [if_neg h, if_neg fun hs => h (hskips.mp hs)]
    rfl

/-- The newest frame is the last one. -/
theorem top_eq_getLastD (hdepth : m.stack.depth ≠ 0) :
    m.stack.top = m.stack.frames.getLastD 0 := by
  rw [m.stack.frames_eq_popped hdepth]
  simp

/-- The flow of the instruction of a word leads where the digits of the word say. -/
theorem target_eq_pcAfter (h : (Instruction.decode w).obstacle? m = none) :
    ((Instruction.decode w).flow m).target m.registers.pc = m.pcAfter w := by
  -- `hi` tells 00EE from the other words of its family
  have hmeans := Instruction.decode_says w
  generalize hi : Instruction.decode w = i at h hmeans ⊢
  cases hmeans with
  | jump hfamily | call hfamily =>
      simp [Instruction.flow, Flow.target, pcAfter, hfamily, Word.toNat_address]
  | ret hword =>
      have hdepth := (Instruction.obstacle?_ret_eq_none_iff m).mp h
      subst hword
      simp only [Instruction.flow, Flow.target, top_eq_getLastD hdepth]
      rfl
  | jumpOffset hfamily =>
      have hret : w ≠ 0x00EE := ne_ret_of_family (by simp [hfamily])
      simp [Instruction.flow, Flow.target, pcAfter, hfamily, hret, Word.toNat_address]
  | waitKey hfamily hbyte =>
      have hret : w ≠ 0x00EE := ne_ret_of_family (by simp [hfamily])
      simp [Instruction.flow, Flow.target, pcAfter, hfamily, hbyte, hret]
  | equalsByte hfamily => exact target_skipIf (.equalsByte hfamily)
  | differsByte hfamily => exact target_skipIf (.differsByte hfamily)
  | equals hfamily hn => exact target_skipIf (.equals hfamily hn)
  | differs hfamily hn => exact target_skipIf (.differs hfamily hn)
  | keyDown hfamily hbyte => exact target_skipIf (.keyDown hfamily hbyte)
  | keyUp hfamily hbyte => exact target_skipIf (.keyUp hfamily hbyte)
  | clearScreen hword =>
      subst hword
      exact (pcAfter_of_plain (by decide) (by decide) (by decide)).symm
  | sys hfamily =>
      have hret : w ≠ 0x00EE := by
        rintro rfl
        cases hi
      exact (pcAfter_of_plain (by simp [hfamily]) hret (by simp [hfamily])).symm
  | unknown hword => cases h
  | loadByte hfamily | addByte hfamily | combine hfamily | loadIndex hfamily | random hfamily
  | draw hfamily =>
      have hret : w ≠ 0x00EE := ne_ret_of_family (by simp [hfamily])
      exact (pcAfter_of_plain (by simp [hfamily]) hret (by simp [hfamily])).symm
  | loadDelay hfamily hbyte | setDelay hfamily hbyte | setSound hfamily hbyte
  | addIndex hfamily hbyte | fontGlyph hfamily hbyte | storeDecimal hfamily hbyte
  | storeRegisters hfamily hbyte | loadRegisters hfamily hbyte =>
      have hret : w ≠ 0x00EE := ne_ret_of_family (by simp [hfamily])
      exact (pcAfter_of_plain (by simp [hfamily]) hret (by simp [hbyte])).symm

/-- A word that is executed moves the program counter to where its digits and the machine
    before it say: the address of a jump or call, the newest frame, the offset jump, the
    same place for a wait, past the next word for a skip whose condition holds, and the
    next word for all others. -/
theorem execute_pc (m : Machine) (w : Word) (h : (m.execute w).result = .ok ()) :
    (m.execute w).machine.registers.pc.toNat = m.pcAfter w ∧
      (w = 0x00EE → m.stack.frames ≠ []) := by
  rcases execute_of_ok h with ⟨hnone, hmachine⟩ | ⟨hunknown, -, hmachine⟩
  · constructor
    · rw [hmachine]
      exact (m.toNat_performed_pc _).trans (target_eq_pcAfter hnone)
    · rintro rfl hnil
      have hdepth : m.stack.depth = 0 := by rw [← m.stack.length_frames, hnil, List.length_nil]
      exact (Instruction.obstacle?_ret_eq_none_iff m).mp hnone hdepth
  · have hword := ((Instruction.decode_eq_unknown_iff w w).mp hunknown).1
    constructor
    · rw [hmachine, pcAfter_of_unknown hword]
      exact m.toNat_advance_pc 2
    · rintro rfl
      cases hunknown

/-- A machine of the modern dialect with 2 in VF and 2A in V3, while key A is held. -/
def holdingA : Machine :=
  { initial (.ofSeed 0) with
    registers := (Registers.initial.set 0xF 2).set 3 0x2A
    keypad := (Keypad.released.move 0xA true).keypad
    dialect := .modern }

/-- The jump is taken by VF and goes around the end of memory. The key that V3 stands for is A,
    which is down: EX9E skips, and EXA1 does not. -/
theorem execute_pc_holdingA :
    ((holdingA.execute 0xBFFF).result = .ok () ∧ (holdingA.execute 0xE39E).result = .ok () ∧
      (holdingA.execute 0xE3A1).result = .ok ()) ∧
    (holdingA.execute 0xBFFF).machine.registers.pc.toNat = 1 ∧
    (holdingA.execute 0xE39E).machine.registers.pc.toNat = 0x204 ∧
    (holdingA.execute 0xE3A1).machine.registers.pc.toNat = 0x202 := by
  have hjump := (execute_pc holdingA 0xBFFF rfl).1
  have hdown := (execute_pc holdingA 0xE39E rfl).1
  have hup := (execute_pc holdingA 0xE3A1 rfl).1
  exact ⟨⟨rfl, rfl, rfl⟩, hjump, hdown, hup⟩

end Machine

end Chip8
