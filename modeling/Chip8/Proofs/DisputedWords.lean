/-
  Chip8.Proofs.DisputedWords

  Where the dialect matters. `Word.Disputed` lists the words on which two dialects may
  disagree; every other word ignores a change from the one to the other
  (`ignores_spoken`). So a machine that executes no disputed word does the same in both
  dialects, call by call, and is left the same but for the dialect
  (`dialect_matters_for_disputed_words`).
-/
import Chip8.Proofs.Unnoticed

namespace Chip8

/-- The words that two dialects may take differently. -/
inductive Word.Disputed (w : Word) (first second : Dialect) : Prop
  /-- 8XY6 and 8XYE shift VX or VY. -/
  | shift (hfamily : w.family = 0x8) (hn : w.n = 0x6 ∨ w.n = 0xE) (hxy : w.x ≠ w.y)
      (hdialects : first.shiftReadsY ≠ second.shiftReadsY)
  /-- FX55 and FX65 move the index or leave it. -/
  | transfer (hfamily : w.family = 0xF) (hbyte : w.byte = 0x55 ∨ w.byte = 0x65)
      (hdialects : first.transferMovesIndex ≠ second.transferMovesIndex)
  /-- BNNN adds V0 or VX, which is another register from the address 100 on. -/
  | offset (hfamily : w.family = 0xB) (haddress : 0x100 ≤ w.address.toNat)
      (hdialects : first.jumpReadsX ≠ second.jumpReadsX)

/-- The change to another dialect. -/
def Change.spoken (dialect : Dialect) : Change :=
  .hidden (fun _ => dialect) id

/-! ## Words that are not disputed -/

/-- Where the dialects agree on shifts, and where the operands are the same, an operation
    yields the same in both. -/
theorem Operation.apply_of_shift {operation : Operation} {first second : Dialect} {a b : UInt8}
    (h : operation = .shiftRight ∨ operation = .shiftLeft →
      first.shiftReadsY ≠ second.shiftReadsY → a = b) :
    operation.apply second a b = operation.apply first a b := by
  by_cases hdialects : first.shiftReadsY = second.shiftReadsY
  · simp only [apply, hdialects]
  · cases operation with
    | shiftRight | shiftLeft =>
        have hab : a = b := h (by simp) hdialects
        simp only [apply, hab, ite_self]
    | _ => rfl

theorem Operation.code_of_shift {code : Fin 16} {operation : Operation}
    (hcode : ofCode? code = some operation)
    (hshift : operation = .shiftRight ∨ operation = .shiftLeft) : code = 0x6 ∨ code = 0xE := by
  rcases hshift with rfl | rfl
  · refine Or.inl ?_
    revert code
    decide
  · refine Or.inr ?_
    revert code
    decide

/-- The top digit of an address below 100 is zero. -/
theorem Word.x_eq_zero {w : Word} (h : w.address.toNat < 0x100) : w.x = 0 := by
  rw [toNat_address] at h
  simp only [x, Fin.ext_iff, Fin.val_zero]
  omega

section

variable {w : Word} {first second : Dialect} (h : ¬ w.Disputed first second)

include h

theorem Word.apply_of_not_disputed (hfamily : w.family = 0x8) {operation : Operation}
    (hcode : Operation.ofCode? w.n = some operation) (r : Registers) :
    operation.apply second (r.get w.x) (r.get w.y) =
      operation.apply first (r.get w.x) (r.get w.y) := by
  refine Operation.apply_of_shift fun hshift hdialects => ?_
  have hn := Operation.code_of_shift hcode hshift
  by_cases hxy : w.x = w.y
  · rw [hxy]
  · exact absurd (.shift hfamily hn hxy hdialects) h

theorem Word.afterTransfer_of_not_disputed (hfamily : w.family = 0xF)
    (hbyte : w.byte = 0x55 ∨ w.byte = 0x65) (r : Registers) (x : Fin 16) :
    r.afterTransfer second x = r.afterTransfer first x := by
  by_cases hdialects : first.transferMovesIndex = second.transferMovesIndex
  · simp only [Registers.afterTransfer, hdialects]
  · exact absurd (.transfer hfamily hbyte hdialects) h

theorem Word.offset_of_not_disputed (hfamily : w.family = 0xB) :
    (if second.jumpReadsX then w.x else 0) = if first.jumpReadsX then w.x else 0 := by
  by_cases hdialects : first.jumpReadsX = second.jumpReadsX
  · rw [hdialects]
  · -- X is zero, so that both dialects add V0
    have haddress : ¬ 0x100 ≤ w.address.toNat := fun hle => h (.offset hfamily hle hdialects)
    rw [x_eq_zero (Nat.not_le.mp haddress), ite_self, ite_self]

end

theorem Instruction.ignores_spoken {w : Word} {i : Instruction} {m : Machine}
    {dialect : Dialect} (hmeans : w.Says i) (h : ¬ w.Disputed m.dialect dialect) :
    i.Ignores (.spoken dialect) m := by
  cases hmeans with
  | combine hfamily hcode =>
      have hyield := Word.apply_of_not_disputed h hfamily hcode m.registers
      refine ⟨rfl, ?_⟩
      simp only [work, Machine.changed, Change.spoken, Change.hidden, hyield]
  | jumpOffset hfamily =>
      have hflow := congrArg (fun x => Flow.jump (w.address + (m.registers.get x).toUInt16))
        (Word.offset_of_not_disputed h hfamily)
      exact ⟨hflow, rfl⟩
  | storeRegisters hfamily hbyte =>
      have hindex := Word.afterTransfer_of_not_disputed h hfamily (Or.inl hbyte)
      refine ⟨rfl, ?_⟩
      simp only [work, Machine.changed, Change.spoken, Change.hidden, id, hindex]
  | loadRegisters hfamily hbyte =>
      have hindex := Word.afterTransfer_of_not_disputed h hfamily (Or.inr hbyte)
      refine ⟨rfl, ?_⟩
      simp only [work, Machine.changed, Change.spoken, Change.hidden, id, hindex]
      rfl
  | _ => exact ⟨rfl, rfl⟩

/-! ## Runs in two dialects -/

namespace Machine

theorem setKey_dialect (m : Machine) (number : Nat) (isDown : Bool) :
    (m.setKey number isDown).machine.dialect = m.dialect := by
  rw [m.setKey_machine number isDown]
  rfl

/-- While a program runs, its dialect stays. -/
theorem call_dialect (m : Machine) {call : HostCall} (hdrives : call.Drives) :
    (m.call call).machine.dialect = m.dialect := by
  cases hdrives with
  | cycle =>
      have hside := m.cycle_hostSide
      simp only [hostSide, Prod.mk.injEq] at hside
      exact hside.2.1
  | tick | skipInstruction => rfl
  | setKey number isDown => exact m.setKey_dialect number isDown

/-- Whether two machines are the same but for their dialects. -/
def SameInDialects (first second : Dialect) (a b : Machine) : Prop :=
  a.dialect = first ∧ b = a.changed (.spoken second)

/-- Machines in two dialects answer a call alike, if it executes no word that they dispute. -/
theorem call_spoken {first second : Dialect} {a b : Machine} {call : HostCall}
    (hab : SameInDialects first second a b) (hdrives : call.Drives)
    (h : ∀ w, a.executed? call = some w → ¬ w.Disputed first second) :
    AnswerAlike (SameInDialects first second) a b call := by
  obtain ⟨rfl, rfl⟩ := hab
  have hcall := call_changed hdrives fun w hw =>
    Instruction.ignores_spoken (Instruction.decode_says w) (h w hw)
  exact ⟨report_changed hcall.result, executed?_changed hcall.result,
    a.call_dialect hdrives, hcall.machine⟩

/-- A run in which no disputed word is executed, told in another dialect. -/
theorem run_spoken {m : Machine} {dialect : Dialect} {calls : List HostCall}
    (hdrives : ∀ call ∈ calls, call.Drives)
    (h : ∀ w ∈ m.executedWords calls, ¬ w.Disputed m.dialect dialect) :
    (m.changed (.spoken dialect)).reports calls = m.reports calls ∧
    (m.changed (.spoken dialect)).executedWords calls = m.executedWords calls ∧
    (m.changed (.spoken dialect)).afterCalls calls =
      (m.afterCalls calls).changed (.spoken dialect) := by
  -- the first machine keeps its dialect, so the same words stay disputed
  obtain ⟨hreports, hexecuted, -, hafter⟩ := run_alike
    (fun _ _ hab call hcall => call_spoken hab (hdrives call hcall)) ⟨rfl, rfl⟩ h
  exact ⟨hreports, hexecuted, hafter⟩

/-- Take two machines that are the same but for their dialects, and a run of cycles, ticks,
    key events and skips during which the first executes no word that the two dialects
    dispute. Then each call tells its host the same at both machines, both execute the same
    words, and they are left the same but for their dialects. -/
theorem dialect_matters_for_disputed_words {a b : Machine} {calls : List HostCall}
    (hsame : b = { a with dialect := b.dialect }) (hdrives : ∀ call ∈ calls, call.Drives)
    (hwords : ∀ w ∈ a.executedWords calls, ¬ w.Disputed a.dialect b.dialect) :
    b.reports calls = a.reports calls ∧
    b.executedWords calls = a.executedWords calls ∧
    b.afterCalls calls = { a.afterCalls calls with dialect := b.dialect } := by
  have hchanged : a.changed (.spoken b.dialect) = b := hsame.symm
  have hrun := run_spoken hdrives hwords
  rw [hchanged] at hrun
  exact hrun

/-- A machine that does nothing but halve V1. -/
def halvingV1 : Machine :=
  { initial (.ofSeed 0) with memory := .filled 0x81 0x16 }

theorem executed_halvingV1 : halvingV1.executed? .cycle = some 0x8116 := by
  have hmemory : halvingV1.memory = .filled 0x81 0x16 := rfl
  have hfetch := fetch_filled hmemory (by decide) (by decide)
  exact executed?_cycle_of_fetch rfl hfetch rfl

/-- A shift of VX by itself is not disputed, although the dialects disagree on shifts. -/
theorem dialect_matters_for_disputed_words_halvingV1 :
    let other : Machine := { halvingV1 with dialect := .modern }
    let calls : List HostCall := [.cycle, .tick, .setKey 3 true]
    (other = { halvingV1 with dialect := other.dialect } ∧ (∀ call ∈ calls, call.Drives) ∧
      halvingV1.executedWords calls = [0x8116] ∧
      halvingV1.dialect.shiftReadsY ≠ other.dialect.shiftReadsY) ∧
    other.reports calls = halvingV1.reports calls ∧ other.executedWords calls = [0x8116] ∧
    other.afterCalls calls = { halvingV1.afterCalls calls with dialect := .modern } := by
  intro other calls
  have hdrives : ∀ call ∈ calls, call.Drives := by
    simp [calls, HostCall.Drives.tick, HostCall.Drives.cycle, HostCall.Drives.setKey]
  have hwords : halvingV1.executedWords calls = [0x8116] := by
    simp [calls, executedWords, executed_halvingV1]
  have hundisputed : ∀ w ∈ halvingV1.executedWords calls,
      ¬ w.Disputed halvingV1.dialect other.dialect := by
    rw [hwords]
    intro w hw hdisputed
    rw [List.mem_singleton.mp hw] at hdisputed
    cases hdisputed with
    | shift hfamily hn hxy => exact hxy rfl
    | transfer hfamily => cases hfamily
    | offset hfamily => cases hfamily
  obtain ⟨hreports, hexecuted, hafter⟩ :=
    dialect_matters_for_disputed_words (b := other) rfl hdrives hundisputed
  exact ⟨⟨rfl, hdrives, hwords, by decide⟩, hreports, hexecuted.trans hwords, hafter⟩

end Machine

end Chip8
