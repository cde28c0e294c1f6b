/-
  Chip8.Proofs.Alignment

  Words at even addresses. A machine is aligned if its program counter and its frames are
  even. Its steps go two bytes further, skip, return, or go where a word aims
  (`call_pc_cases`), and a call pushes the address after it. All of these but the aims of
  words are even of themselves, also around the end of memory (`pcAfter_even`). So a run
  whose words aim at even addresses only keeps a machine aligned (`afterCalls_aligned`), and
  an aligned machine always finds a word at its program counter (`fetch_of_aligned`).
-/
import Chip8.Proofs.CallBracket
import Chip8.Proofs.ProgramCounter
import Chip8.Proofs.Reset

namespace Chip8

open RandomStream (Generator)

namespace Machine

/-- The program counter is an even address of 12 bits, and the frames are even. -/
structure Aligned (m : Machine) : Prop where
  pc_lt : m.registers.pc.toNat < 4096
  pc_even : m.registers.pc.toNat % 2 = 0
  frames_even : ∀ frame ∈ m.stack.frames, frame.toNat % 2 = 0

/-- Whether a word aims at an even address if it is a jump, a call or an offset jump. -/
structure AimsEven (m : Machine) (w : Word) : Prop where
  address : w.family = 0x1 ∨ w.family = 0x2 → w.toNat % 4096 % 2 = 0
  offset : w.family = 0xB →
    (w.toNat % 4096 + (m.registers.get (if m.dialect.jumpReadsX then w.x else 0)).toNat) %
      4096 % 2 = 0

/-- Whether every word that some calls execute aims at an even address. -/
def AimsEvenAlong (m : Machine) : List HostCall → Prop
  | [] => True
  | call :: calls =>
    (∀ w, m.executed? call = some w → m.AimsEven w) ∧
      (m.call call).machine.AimsEvenAlong calls

variable {m : Machine}

theorem Aligned.of_eq {n : Machine} (h : m.Aligned) (hpc : n.registers.pc = m.registers.pc)
    (hstack : n.stack = m.stack) : n.Aligned := by
  refine ⟨?_, ?_, ?_⟩
  · rw [hpc]
    exact h.pc_lt
  · rw [hpc]
    exact h.pc_even
  · rw [hstack]
    exact h.frames_even

/-! ## Machines just switched on -/

theorem initial_aligned (random : Generator) : (initial random).Aligned := by
  have hpc : (initial random).registers.pc = 0x200 := rfl
  refine ⟨?_, ?_, ?_⟩
  · rw [hpc]
    decide
  · rw [hpc]
    decide
  · simp [initial]

theorem powerOn_aligned (m : Machine) : m.powerOn.Aligned :=
  (initial_aligned m.random).of_eq rfl rfl

/-- A program that is loaded touches neither the registers nor the stack. -/
theorem loadFile?_aligned (h : m.Aligned) (files : FileSystem) (path? : Option String) :
    (m.loadFile? files path?).machine.Aligned := by
  have hothers := (m.loadFile?_sameButProgram files path?).others
  exact h.of_eq (by rw [hothers]) (by rw [hothers])

theorem boot_aligned (files : FileSystem) (path? : Option String) (random : Generator) :
    (boot files path? random).machine.Aligned :=
  loadFile?_aligned (initial_aligned random) files path?

theorem reset_aligned (m : Machine) (files : FileSystem) :
    (m.reset files).machine.Aligned := by
  rw [(m.reset_loads files).2]
  exact loadFile?_aligned m.powerOn_aligned files m.source

/-! ## One step -/

/-- A step of a running program leaves the program counter, moves it on by a word, or moves
    it to where the word that it executes goes. -/
theorem call_pc_cases (m : Machine) {call : HostCall} (hdrives : call.Drives) :
    (m.call call).machine.registers.pc = m.registers.pc ∨
    (m.call call).machine.registers.pc.toNat = (m.registers.pc.toNat + 2) % 4096 ∨
    ∃ w, m.executed? call = some w ∧
      (m.call call).machine.registers.pc.toNat = m.pcAfter w := by
  cases hdrives with
  | tick => exact Or.inl rfl
  | setKey number isDown =>
      have hmachine : (m.call (.setKey number isDown)).machine = _ :=
        m.setKey_machine number isDown
      rw [hmachine]
      exact Or.inl rfl
  | skipInstruction => exact Or.inr (Or.inl (m.toNat_advance_pc 2))
  | cycle =>
      rcases m.cycle_machine_cases with
        hsame | ⟨x, key, -, hresumed⟩ | ⟨w, hmode, hfetch, hcycle, hok⟩
      · exact Or.inl (congrArg (·.registers.pc) hsame)
      · -- the end of a wait
        rw [call_cycle, hresumed]
        exact Or.inr (Or.inl (m.toNat_advance_pc 2))
      · rw [call_cycle, hcycle]
        rcases execute_of_ok hok with ⟨hnone, hperformed⟩ | ⟨-, -, hpassed⟩
        · refine Or.inr (Or.inr ⟨w, executed?_cycle_of_fetch hmode hfetch hok, ?_⟩)
          rw [hperformed]
          exact (m.toNat_performed_pc _).trans (target_eq_pcAfter hnone)
        · -- an unknown word that is passed over
          rw [hpassed]
          exact Or.inr (Or.inl (m.toNat_advance_pc 2))

/-- From an aligned machine a word that aims even goes to an even address. -/
theorem pcAfter_even {w : Word} (h : m.Aligned) (haims : m.AimsEven w) : m.pcAfter w % 2 = 0 := by
  have hpc := h.pc_even
  unfold pcAfter
  dsimp only
  split
  · next hfamily => exact haims.address hfamily
  split
  · -- 00EE goes to the newest frame, or to address 0 where there is none
    have hlast : m.stack.frames.getLastD 0 ∈ 0 :: m.stack.frames := List.getLastD_mem_cons
    rcases List.mem_cons.mp hlast with hnone | hframe
    · rw [hnone]
      rfl
    · have hframe := h.frames_even _ hframe
      omega
  split
  · next hfamily => exact haims.offset hfamily
  split
  · exact hpc
  -- 4096 is even, so going around the end of memory keeps the parity
  split
  · omega
  · omega

theorem pcAfter_lt (h : m.registers.pc.toNat < 4096) (w : Word) : m.pcAfter w < 4096 := by
  unfold pcAfter
  dsimp only
  repeat' split
  all_goals omega

theorem call_frames_even {call : HostCall} (h : m.Aligned) (hdrives : call.Drives) :
    ∀ frame ∈ (m.call call).machine.stack.frames, frame.toNat % 2 = 0 := by
  have hpc := h.pc_even
  rcases m.call_stack_cases hdrives with hsame | hpush | ⟨rfl, -, hpop, -⟩
  · rw [hsame]
    exact h.frames_even
  · intro frame hframe
    rw [hpush, List.mem_append, List.mem_singleton] at hframe
    rcases hframe with hold | rfl
    · exact h.frames_even frame hold
    · have hret : (m.registers.pc + 2).address.toNat = (m.registers.pc.toNat + 2) % 4096 :=
        Word.toNat_address_add _ _
      omega
  · intro frame hframe
    apply h.frames_even
    rw [hpop]
    exact List.mem_append_left _ hframe

/-- A step whose word, if it executes one, aims even keeps a machine aligned. -/
theorem call_aligned {call : HostCall} (h : m.Aligned) (hdrives : call.Drives)
    (haims : ∀ w, m.executed? call = some w → m.AimsEven w) :
    (m.call call).machine.Aligned := by
  have hlt := h.pc_lt
  have hpc := h.pc_even
  have hframes := call_frames_even h hdrives
  rcases m.call_pc_cases hdrives with hsame | hnext | ⟨w, hw, hafter⟩
  · rw [← hsame] at hlt hpc
    exact ⟨hlt, hpc, hframes⟩
  · exact ⟨by omega, by omega, hframes⟩
  · have heven := pcAfter_even h (haims w hw)
    have hbound := m.pcAfter_lt hlt w
    exact ⟨by omega, by omega, hframes⟩

/-- An aligned machine has a word at its program counter. -/
theorem fetch_of_aligned (h : m.Aligned) : ∃ w, m.fetch = .ok w := by
  have hlt := h.pc_lt
  have hpc := h.pc_even
  have hfit : m.registers.pc.toNat + 2 ≤ 4096 := by omega
  exact ⟨_, fetch_of_le hfit⟩

/-- The word 0 can always be executed, so an address fault that names it is one of the fetch,
    and an aligned machine has a word to fetch. -/
theorem cycle_ne_fetch_fault (h : m.Aligned) (pc : Word) (address : Nat) :
    m.cycle.result ≠ .error (.fault 0 pc (.addressOutOfRange address)) := by
  intro hresult
  rcases (m.cycle_result_error_iff _).mp hresult with
    ⟨register, key, -, -, hfault⟩ | ⟨-, hend, -⟩ | ⟨-, hfit, hexecute⟩
  · simp at hfault
  · have hlt := h.pc_lt
    have hpc := h.pc_even
    omega
  · obtain ⟨cause, hobstacle, -, hfault⟩ := (m.execute_result_error_iff _ _).mp hexecute
    simp only [Error.fault.injEq] at hfault
    rw [← hfault.1] at hobstacle
    cases hobstacle

/-! ## Any number of steps -/

theorem aimsEvenAlong_append (m : Machine) (first second : List HostCall) :
    m.AimsEvenAlong (first ++ second) ↔
      m.AimsEvenAlong first ∧ (m.afterCalls first).AimsEvenAlong second := by
  induction first generalizing m with
  | nil => exact ⟨fun h => ⟨trivial, h⟩, fun h => h.2⟩
  | cons call calls ih =>
      rw [List.cons_append, AimsEvenAlong, ih, AimsEvenAlong, afterCalls_cons, and_assoc]

theorem afterCalls_aligned {calls : List HostCall} (h : m.Aligned)
    (hdrives : ∀ call ∈ calls, call.Drives) (haims : m.AimsEvenAlong calls) :
    (m.afterCalls calls).Aligned := by
  induction calls generalizing m with
  | nil => exact h
  | cons call calls ih =>
      have hstep := call_aligned h (hdrives call (List.mem_cons_self ..)) haims.1
      exact ih hstep (fun c hc => hdrives c (List.mem_cons_of_mem _ hc)) haims.2

/-- Machines just switched on or reset are aligned, whether or not their program could be
    loaded. If an aligned machine is only driven, and every jump and call that is executed has
    an even address and every offset jump an even target, then the machine is aligned at the
    start, between the calls and after the last one, and a cycle finds a word there: none
    fails for an address from which no word can be fetched. -/
theorem aligned_run :
    (∀ files path? random, (boot files path? random).machine.Aligned) ∧
    (∀ (m : Machine) files, (m.reset files).machine.Aligned) ∧
    ∀ (m : Machine) (calls : List HostCall), m.Aligned → (∀ call ∈ calls, call.Drives) →
      m.AimsEvenAlong calls →
      ∀ before later, calls = before ++ later →
        let n := m.afterCalls before
        n.Aligned ∧ (∃ w, n.fetch = .ok w) ∧
        ∀ pc address, n.cycle.result ≠ .error (.fault 0 pc (.addressOutOfRange address)) := by
  refine ⟨boot_aligned, reset_aligned, ?_⟩
  rintro m calls hm hdrives haims before later rfl n
  have hbefore : ∀ call ∈ before, call.Drives := fun call hcall =>
    hdrives call (List.mem_append_left _ hcall)
  have hn : n.Aligned := afterCalls_aligned hm hbefore ((m.aimsEvenAlong_append _ _).mp haims).1
  exact ⟨hn, fetch_of_aligned hn, cycle_ne_fetch_fault hn⟩

/-- A machine at the end of memory where every word is 2FFE. -/
def callingFromEnd : Machine :=
  { initial (.ofSeed 0) with
    memory := .filled 0x2F 0xFE, registers := { Registers.initial with pc := 0xFFE } }

/-- The call returns to address 0, where the skip goes as well. -/
theorem aligned_run_callingFromEnd :
    let calls : List HostCall := [.cycle, .tick, .skipInstruction]
    let after := callingFromEnd.afterCalls calls
    callingFromEnd.fetch = .ok 0x2FFE ∧ callingFromEnd.Aligned ∧
    after.Aligned ∧ after.stack.frames = [0] ∧ after.registers.pc = 0 ∧
    after.fetch = .ok 0x2FFE := by
  intro calls after
  have hframes : callingFromEnd.stack.frames = [] := rfl
  have hm : callingFromEnd.Aligned := ⟨by decide, by decide, by simp [hframes]⟩
  have hmemory : callingFromEnd.memory = .filled 0x2F 0xFE := rfl
  have hfetch : callingFromEnd.fetch = .ok 0x2FFE := fetch_filled hmemory hm.pc_even hm.pc_lt
  have hcycle : callingFromEnd.cycle = callingFromEnd.execute 0x2FFE := cycle_of_fetch rfl hfetch
  have hdrives : ∀ call ∈ calls, call.Drives := by
    simp [calls, HostCall.Drives.cycle, HostCall.Drives.tick, HostCall.Drives.skipInstruction]
  have haims : callingFromEnd.AimsEvenAlong calls := by
    refine ⟨fun w hw => ?_, fun w hw => ?_, fun w hw => ?_, trivial⟩
    · have hword := (fetch_of_executed hw).2
      rw [hfetch] at hword
      cases hword
      exact ⟨fun _ => by decide, fun hfamily => absurd hfamily (by decide)⟩
    · cases hw
    · cases hw
  have hafter : after.Aligned := (aligned_run.2.2 _ _ hm hdrives haims calls [] rfl).1
  have hmachine :
      after = ((callingFromEnd.execute 0x2FFE).machine.call .tick).machine.skipInstruction := by
    rw [← hcycle]
    rfl
  refine ⟨hfetch, hm, hafter, ?_, ?_, ?_⟩
  · rw [hmachine]
    rfl
  · rw [hmachine]
    rfl
  · exact fetch_filled (by rw [hmachine]; rfl) hafter.pc_even hafter.pc_lt

end Machine

end Chip8
