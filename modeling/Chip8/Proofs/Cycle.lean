/-
  Chip8.Proofs.Cycle

  What one step of a machine can be. `Machine.execute_of_obstacle` and
  `Machine.execute_of_no_obstacle` give the ways in which a word is executed (fault,
  pass over, perform) and `Machine.cycle_of_…` the ways in which a cycle goes, each with
  everything it leaves. An invariant of machines is proved by going through these cases.
-/
import Chip8.Proofs.Patterns
import Chip8.Proofs.Perform

namespace Chip8

namespace Machine

/-! ## Executing a word -/

/-- The record with which the execution of a word starts. -/
def startRecord (m : Machine) (word : Word) : Record :=
  .executing m.registers.pc word m.dialect

/-- A word that is reported to be no instruction is the one that was executed. -/
theorem unknownWord_obstacle {m : Machine} {word unknown : Word}
    (h : (Instruction.decode word).obstacle? m = some (.unknownWord unknown)) :
    unknown = word := by
  have hunknown := (Instruction.obstacle?_eq_unknownWord_iff _ _ _).mp h
  exact ((Instruction.decode_eq_unknown_iff _ _).mp hunknown).2

/-- A word whose instruction has an obstacle is passed over, if it is unknown and the
    policy says so, and is a fault otherwise. -/
theorem execute_of_obstacle {m : Machine} {word : Word} {cause : Error}
    (h : (Instruction.decode word).obstacle? m = some cause) :
    m.execute word =
      if cause = .unknownWord word ∧ m.unknownWords = .skip then
        ⟨.ok (), (m.advance 2).complete word,
          [m.startRecord word, .skipping word m.registers.pc]⟩
      else ⟨.error (.fault word m.registers.pc cause), m, [m.startRecord word]⟩ := by
  simp only [execute, Instruction.perform_of_obstacle h, startRecord]
  split
  · next unknown hpolicy => rw [unknownWord_obstacle h, if_pos ⟨rfl, hpolicy⟩]
  · next hnot =>
    rw [if_neg]
    rintro ⟨hcause, hpolicy⟩
    exact hnot word hcause hpolicy

/-- The machine after an instruction without an obstacle. -/
def performed (m : Machine) (i : Instruction) : Machine :=
  (i.work m).follow (i.flow m)

/-- A word whose instruction has no obstacle is performed and completed. -/
theorem execute_of_no_obstacle {m : Machine} {word : Word}
    (h : (Instruction.decode word).obstacle? m = none) :
    m.execute word =
      ⟨.ok (), (m.performed (.decode word)).complete word, [m.startRecord word]⟩ := by
  simp only [execute, Instruction.perform_of_no_obstacle h, startRecord, performed]

/-- The same for a word of which it is known what it says. -/
theorem execute_of_decode {m : Machine} {word : Word} {i : Instruction}
    (hdecode : Instruction.decode word = i) (h : i.obstacle? m = none) :
    m.execute word = ⟨.ok (), (m.performed i).complete word, [m.startRecord word]⟩ := by
  subst hdecode
  exact execute_of_no_obstacle h

/-- A word that was executed without an error was performed, or was unknown and passed
    over. -/
theorem execute_of_ok {m : Machine} {word : Word} (h : (m.execute word).result = .ok ()) :
    ((Instruction.decode word).obstacle? m = none ∧
      (m.execute word).machine = (m.performed (.decode word)).complete word) ∨
    (Instruction.decode word = .unknown word ∧ m.unknownWords = .skip ∧
      (m.execute word).machine = (m.advance 2).complete word) := by
  cases hcause : (Instruction.decode word).obstacle? m with
  | none => exact Or.inl ⟨rfl, congrArg Outcome.machine (execute_of_no_obstacle hcause)⟩
  | some cause =>
      rw [execute_of_obstacle hcause] at h ⊢
      split at h
      · next hskip =>
        obtain ⟨rfl, hpolicy⟩ := hskip
        have hunknown := (Instruction.obstacle?_eq_unknownWord_iff _ _ _).mp hcause
        exact Or.inr ⟨hunknown, hpolicy, by rw [if_pos ⟨rfl, hpolicy⟩]⟩
      · cases h

/-! ## Cycles -/

/-- The word whose two bytes are at `address` and after it. -/
def wordAt (m : Machine) (address : Nat) (h : address + 2 ≤ 4096) : Word :=
  .ofBytes m.memory.bytes[address] m.memory.bytes[address + 1]

theorem fetch_of_le {m : Machine} (h : m.registers.pc.toNat + 2 ≤ 4096) :
    m.fetch = .ok (m.wordAt m.registers.pc.toNat h) := by
  rw [fetch, dif_pos h, wordAt]

theorem fetch_of_lt {m : Machine} (h : 4096 < m.registers.pc.toNat + 2) :
    m.fetch = .error (.addressOutOfRange (max m.registers.pc.toNat 4096)) := by
  rw [fetch, dif_neg (Nat.not_le.mpr h)]

theorem cycle_of_fetch {m : Machine} {word : Word} (hmode : m.mode = .running)
    (hfetch : m.fetch = .ok word) : m.cycle = m.execute word := by
  simp only [cycle, hmode, hfetch]

theorem cycle_of_fetch_error {m : Machine} {cause : Error} (hmode : m.mode = .running)
    (hfetch : m.fetch = .error cause) :
    m.cycle = .failed (.fault 0 m.registers.pc cause) m := by
  simp only [cycle, hmode, hfetch]

theorem cycle_of_no_press {m : Machine} {register : Nat}
    (hmode : m.mode = .awaitingKey register none) : m.cycle = .done () m := by
  simp only [cycle, hmode]

/-- The machine after a wait ended with a key for `V x`. -/
def resumed (m : Machine) (x : Fin 16) (key : UInt8) : Machine :=
  { m with
    registers := (m.registers.set x key).advance 2, mode := .running, counter := m.counter + 1 }

theorem cycle_of_press {m : Machine} {register : Nat} {key : UInt8}
    (hmode : m.mode = .awaitingKey register (some key)) (h : register < 16) :
    m.cycle = .done () (m.resumed ⟨register, h⟩ key) := by
  simp only [cycle, hmode, resume, Registers.write, Registers.number, dif_pos h, Except.map,
    resumed]

theorem cycle_of_press_out_of_range {m : Machine} {register : Nat} {key : UInt8}
    (hmode : m.mode = .awaitingKey register (some key)) (h : 16 ≤ register) :
    m.cycle =
      .failed (.fault m.lastWord m.registers.pc (.invalidRegister register)) m := by
  simp only [cycle, hmode, resume, Registers.write, Registers.number,
    dif_neg (Nat.not_lt.mpr h), Except.map]

end Machine

end Chip8
