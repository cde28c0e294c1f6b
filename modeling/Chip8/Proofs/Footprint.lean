/-
  Chip8.Proofs.Footprint

  Who may change what. `Machine.MayChange` lists, for each part of a machine, the words
  that may change it, with the range of addresses or registers that they may reach;
  `execute_footprint` says that a word that is executed leaves every other part as it
  was. No word moves a key or changes the dialect, the policy or the file of the
  program, and so no number of cycles does.
-/
import Chip8.Proofs.Faults
import Chip8.Proofs.SkipPolicy

namespace Chip8

/-! ## Parts and who may change them -/

/-- A part of a machine, the program counter and the counters aside. -/
inductive Part where
  | memory (address : Nat)
  | register (x : Fin 16)
  | index
  | stack
  | delay
  | sound
  | screen
  | mode
  | random
  | keypad
  | dialect
  | unknownWords
  | source

namespace Machine

/-- Whether `n` has the same in a part as `m`. -/
def SameIn (m n : Machine) : Part → Prop
  | .memory address => n.memory.bytes[address]? = m.memory.bytes[address]?
  | .register x => n.registers.get x = m.registers.get x
  | .index => n.registers.index = m.registers.index
  | .stack => n.stack = m.stack
  | .delay => n.timers.delay = m.timers.delay
  | .sound => n.timers.sound = m.timers.sound
  | .screen => n.screen = m.screen
  | .mode => n.mode = m.mode
  | .random => n.random = m.random
  | .keypad => n.keypad = m.keypad
  | .dialect => n.dialect = m.dialect
  | .unknownWords => n.unknownWords = m.unknownWords
  | .source => n.source = m.source

/-- The parts of `m` that the word `w` may change. -/
inductive MayChange (m : Machine) (w : Word) : Part → Prop
  /-- FX33 stores three digits at the index. -/
  | digits (hfamily : w.family = 0xF) (hbyte : w.byte = 0x33) {address : Nat}
      (hfirst : m.registers.index.toNat ≤ address)
      (hlast : address ≤ m.registers.index.toNat + 2) : MayChange m w (.memory address)
  /-- FX55 stores V0 to VX at the index. -/
  | stored (hfamily : w.family = 0xF) (hbyte : w.byte = 0x55) {address : Nat}
      (hfirst : m.registers.index.toNat ≤ address)
      (hlast : address ≤ m.registers.index.toNat + w.x) : MayChange m w (.memory address)
  /-- 6XNN, 7XNN, 8XYN, CXNN and FX07 set VX. -/
  | result (hword : w.family = 0x6 ∨ w.family = 0x7 ∨ w.family = 0x8 ∨ w.family = 0xC ∨
      w.family = 0xF ∧ w.byte = 0x07) : MayChange m w (.register w.x)
  /-- FX65 sets V0 to VX. -/
  | loaded (hfamily : w.family = 0xF) (hbyte : w.byte = 0x65) {y : Fin 16} (hle : y ≤ w.x) :
      MayChange m w (.register y)
  /-- 8XY4 to 8XY7, 8XYE and DXYN set VF. -/
  | flag (hword : w.family = 0x8 ∧ (w.n = 0x4 ∨ w.n = 0x5 ∨ w.n = 0x6 ∨ w.n = 0x7 ∨ w.n = 0xE) ∨
      w.family = 0xD) : MayChange m w (.register 0xF)
  /-- ANNN, FX1E and FX29 set the index. -/
  | index (hword : w.family = 0xA ∨ w.family = 0xF ∧ (w.byte = 0x1E ∨ w.byte = 0x29)) :
      MayChange m w .index
  /-- FX55 and FX65 move the index, if the dialect has it so. -/
  | transfer (hfamily : w.family = 0xF) (hbyte : w.byte = 0x55 ∨ w.byte = 0x65)
      (hdialect : m.dialect.transferMovesIndex = true) : MayChange m w .index
  /-- 2NNN pushes a frame and 00EE removes one. -/
  | stack (hword : w.family = 0x2 ∨ w = 0x00EE) : MayChange m w .stack
  /-- FX15 sets the delay timer. -/
  | delay (hfamily : w.family = 0xF) (hbyte : w.byte = 0x15) : MayChange m w .delay
  /-- FX18 sets the sound timer. -/
  | sound (hfamily : w.family = 0xF) (hbyte : w.byte = 0x18) : MayChange m w .sound
  /-- 00E0 clears the screen and DXYN draws on it. -/
  | screen (hword : w = 0x00E0 ∨ w.family = 0xD) : MayChange m w .screen
  /-- FX0A waits for a key. -/
  | mode (hfamily : w.family = 0xF) (hbyte : w.byte = 0x0A) : MayChange m w .mode
  /-- CXNN takes a random byte. -/
  | random (hfamily : w.family = 0xC) : MayChange m w .random

end Machine

/-! ## What stores and setters leave alone -/

theorem Memory.getElem?_store {values : List UInt8} {start address : Nat} (m : Memory)
    (h : address < start ∨ start + values.length ≤ address) :
    (m.store start values).bytes[address]? = m.bytes[address]? := by
  by_cases hlt : address < 4096
  · rw [Vector.getElem?_eq_getElem hlt, Vector.getElem?_eq_getElem hlt, store_bytes_getElem]
    split
    · next hle =>
      -- past the start, so past the last of the values
      have hpast : values.length ≤ address - start := by omega
      rw [List.getD_eq_getElem?_getD, List.getElem?_eq_none hpast, Option.getD_none]
    · rfl
  · have hge := Nat.not_lt.mp hlt
    rw [Vector.getElem?_eq_none hge, Vector.getElem?_eq_none hge]

theorem Registers.afterTransfer_of_not (r : Registers) {dialect : Dialect} (x : Fin 16)
    (h : dialect.transferMovesIndex ≠ true) : r.afterTransfer dialect x = r :=
  if_neg h

theorem Operation.Yield.get_commit {yield : Operation.Yield} {x y : Fin 16} (r : Registers)
    (hx : x ≠ y) (hflag : yield.flag = none ∨ Registers.flagRegister ≠ y) :
    (yield.commit r x).get y = r.get y := by
  unfold commit
  split
  · rw [Registers.get_set, if_neg hx]
  · next flag hsome =>
    rcases hflag with hnone | hy
    · rw [hnone] at hsome
      cases hsome
    · rw [Registers.get_setWithFlag, if_neg hx, if_neg hy]

theorem Machine.length_bytesAtIndex_le (m : Machine) (length : Nat) :
    (m.bytesAtIndex length).length ≤ length := by
  unfold bytesAtIndex
  split
  · exact Nat.le_of_eq (Memory.length_slice ..)
  · exact Nat.zero_le _

/-- An operation with a flag is one of those whose words may change VF. -/
theorem Operation.ofCode?_of_flag {code : Fin 16} {operation : Operation} {dialect : Dialect}
    {a b : UInt8} {flag : Bool} (hcode : ofCode? code = some operation)
    (hflag : (operation.apply dialect a b).flag = some flag) :
    code = 0x4 ∨ code = 0x5 ∨ code = 0x6 ∨ code = 0x7 ∨ code = 0xE := by
  unfold ofCode? at hcode
  split at hcode
  -- copy, or, and, xor have no flag, and the last case no operation
  case h_1 | h_2 | h_3 | h_4 =>
    cases hcode
    cases hflag
  case h_10 => cases hcode
  all_goals simp

/-! ## What each word leaves alone -/

namespace Machine

variable (m : Machine) {w : Word} {i : Instruction}

theorem work_memory (hmeans : w.Says i) (address : Nat) :
    m.SameIn (i.work m) (.memory address) ∨ m.MayChange w (.memory address) := by
  cases hmeans with
  | storeDecimal hfamily hbyte =>
      by_cases h : m.registers.index.toNat ≤ address ∧ address ≤ m.registers.index.toNat + 2
      · exact Or.inr (.digits hfamily hbyte h.1 h.2)
      · refine Or.inl (m.memory.getElem?_store ?_)
        rw [length_decimalDigits]
        omega
  | storeRegisters hfamily hbyte =>
      by_cases h : m.registers.index.toNat ≤ address ∧ address ≤ m.registers.index.toNat + w.x
      · exact Or.inr (.stored hfamily hbyte h.1 h.2)
      · refine Or.inl (m.memory.getElem?_store ?_)
        rw [Registers.length_upTo]
        omega
  | _ => exact Or.inl rfl

/-- Setting one register leaves the others alone. -/
theorem sameIn_set {m n : Machine} {x y : Fin 16} {value : UInt8}
    (hset : n.registers = m.registers.set x value)
    (hx : m.MayChange w (.register x)) :
    m.SameIn n (.register y) ∨ m.MayChange w (.register y) := by
  by_cases h : x = y
  · subst h
    exact Or.inr hx
  · refine Or.inl ?_
    rw [SameIn, hset, Registers.get_set, if_neg h]

theorem work_register (hmeans : w.Says i) (y : Fin 16) :
    m.SameIn (i.work m) (.register y) ∨ m.MayChange w (.register y) := by
  cases hmeans with
  | loadByte hfamily => exact sameIn_set rfl (.result (by simp [hfamily]))
  | addByte hfamily => exact sameIn_set rfl (.result (by simp [hfamily]))
  | random hfamily => exact sameIn_set rfl (.result (by simp [hfamily]))
  | loadDelay hfamily hbyte => exact sameIn_set rfl (.result (by simp [hfamily, hbyte]))
  | draw hfamily => exact sameIn_set rfl (.flag (Or.inr hfamily))
  | combine hfamily hcode =>
      rename_i operation
      by_cases hx : w.x = y
      · exact Or.inr (hx ▸ .result (by simp [hfamily]))
      · by_cases hy : Registers.flagRegister = y
        -- VF, which changes only if the operation has a flag
        · cases hflag :
              (operation.apply m.dialect (m.registers.get w.x) (m.registers.get w.y)).flag with
          | none => exact Or.inl (Operation.Yield.get_commit _ hx (Or.inl hflag))
          | some flag =>
              exact Or.inr (hy ▸ .flag (Or.inl ⟨hfamily, Operation.ofCode?_of_flag hcode hflag⟩))
        · exact Or.inl (Operation.Yield.get_commit _ hx (Or.inr hy))
  | loadRegisters hfamily hbyte =>
      by_cases h : y ≤ w.x
      · exact Or.inr (.loaded hfamily hbyte h)
      · refine Or.inl ?_
        have hlength := m.length_bytesAtIndex_le (w.x + 1)
        have hpast : (m.bytesAtIndex (w.x + 1)).length ≤ y := by omega
        rw [SameIn, Instruction.work, Registers.get_afterTransfer, Registers.get_setFirst,
          List.getD_eq_getElem?_getD, List.getElem?_eq_none hpast, Option.getD_none]
  | storeRegisters => exact Or.inl (Registers.get_afterTransfer ..)
  | _ => exact Or.inl rfl

theorem work_index (hmeans : w.Says i) :
    m.SameIn (i.work m) .index ∨ m.MayChange w .index := by
  cases hmeans with
  | loadIndex hfamily => exact Or.inr (.index (Or.inl hfamily))
  | addIndex hfamily hbyte => exact Or.inr (.index (Or.inr ⟨hfamily, Or.inl hbyte⟩))
  | fontGlyph hfamily hbyte => exact Or.inr (.index (Or.inr ⟨hfamily, Or.inr hbyte⟩))
  | storeRegisters hfamily hbyte =>
      by_cases h : m.dialect.transferMovesIndex = true
      · exact Or.inr (.transfer hfamily (Or.inl hbyte) h)
      · refine Or.inl ?_
        rw [SameIn, Instruction.work, Registers.afterTransfer_of_not _ _ h]
  | loadRegisters hfamily hbyte =>
      by_cases h : m.dialect.transferMovesIndex = true
      · exact Or.inr (.transfer hfamily (Or.inr hbyte) h)
      · refine Or.inl ?_
        rw [SameIn, Instruction.work, Registers.afterTransfer_of_not _ _ h,
          Registers.setFirst_index]
  | combine => exact Or.inl (Operation.Yield.commit_index ..)
  | _ => exact Or.inl rfl

/-- What an instruction does without the program counter, it does to parts that its word
    may change. -/
theorem work_sameIn (hmeans : w.Says i) (part : Part) :
    m.SameIn (i.work m) part ∨ m.MayChange w part := by
  -- for each part, the words that reach it by name, and all others by computation
  cases part with
  | memory address => exact m.work_memory hmeans address
  | register y => exact m.work_register hmeans y
  | index => exact m.work_index hmeans
  | stack =>
      cases hmeans with
      | call hfamily => exact Or.inr (.stack (Or.inl hfamily))
      | ret hword => exact Or.inr (.stack (Or.inr hword))
      | _ => exact Or.inl rfl
  | delay =>
      cases hmeans with
      | setDelay hfamily hbyte => exact Or.inr (.delay hfamily hbyte)
      | _ => exact Or.inl rfl
  | sound =>
      cases hmeans with
      | setSound hfamily hbyte => exact Or.inr (.sound hfamily hbyte)
      | _ => exact Or.inl rfl
  | screen =>
      cases hmeans with
      | clearScreen hword => exact Or.inr (.screen (Or.inl hword))
      | draw hfamily => exact Or.inr (.screen (Or.inr hfamily))
      | _ => exact Or.inl rfl
  | mode =>
      cases hmeans with
      | waitKey hfamily hbyte => exact Or.inr (.mode hfamily hbyte)
      | _ => exact Or.inl rfl
  | random =>
      cases hmeans with
      | random hfamily => exact Or.inr (.random hfamily)
      | _ => exact Or.inl rfl
  | keypad | dialect | unknownWords | source =>
      cases hmeans with
      | _ => exact Or.inl rfl

theorem sameIn_follow {n : Machine} {part : Part} (h : m.SameIn n part) (flow : Flow) :
    m.SameIn (n.follow flow) part := by
  cases flow with
  | _ =>
      cases part with
      | _ => exact h

theorem sameIn_complete {n : Machine} {part : Part} (h : m.SameIn n part) (word : Word) :
    m.SameIn (n.complete word) part := by
  cases part with
  | _ => exact h

theorem sameIn_refl (part : Part) : m.SameIn m part := by
  cases part with
  | _ => rfl

variable {m}

theorem execute_sameIn (h : (m.execute w).result = .ok ()) (part : Part) :
    m.SameIn (m.execute w).machine part ∨ m.MayChange w part := by
  have hmeans := Instruction.decode_says w
  rcases execute_of_ok h with ⟨-, hmachine⟩ | ⟨-, -, hmachine⟩
  · rcases m.work_sameIn hmeans part with hsame | hchange
    · rw [hmachine]
      exact Or.inl (m.sameIn_complete (m.sameIn_follow hsame _) w)
    · exact Or.inr hchange
  · -- to pass over a word is to follow it to the next one without its work
    rw [hmachine]
    exact Or.inl (m.sameIn_complete (m.sameIn_follow (m.sameIn_refl part) .next) w)

/-! ## The stack under calls and returns -/

/-- A call appends the address after it to the frames. -/
theorem execute_call_frames (hfamily : w.family = 0x2) (h : (m.execute w).result = .ok ()) :
    (m.execute w).machine.stack.frames =
      m.stack.frames ++ [(m.registers.pc + 2).address] := by
  have hdecode := Instruction.decode_call hfamily
  rcases execute_of_ok h with ⟨hnone, hmachine⟩ | ⟨hunknown, -, -⟩
  · rw [hdecode] at hnone hmachine
    have hdepth := (Instruction.obstacle?_call_eq_none_iff m _).mp hnone
    rw [hmachine]
    exact m.stack.frames_pushed _ hdepth
  · rw [hdecode] at hunknown
    cases hunknown

/-- A return takes the newest frame and goes there. -/
theorem execute_ret_frames (h : (m.execute 0x00EE).result = .ok ()) :
    m.stack.frames = (m.execute 0x00EE).machine.stack.frames ++ [m.stack.top] ∧
      (m.execute 0x00EE).machine.registers.pc = m.stack.top.address := by
  rcases execute_of_ok h with ⟨hnone, hmachine⟩ | ⟨hunknown, -, -⟩
  · rw [Instruction.decode_ret] at hnone hmachine
    have hdepth := (Instruction.obstacle?_ret_eq_none_iff m).mp hnone
    rw [hmachine]
    exact ⟨m.stack.frames_eq_popped hdepth, rfl⟩
  · cases hunknown

/-! ## What is the host's -/

/-- The keypad and the settings, which no word changes. -/
def hostSide (m : Machine) : Keypad × Dialect × UnknownWordPolicy × Option String :=
  (m.keypad, m.dialect, m.unknownWords, m.source)

theorem execute_hostSide (h : (m.execute w).result = .ok ()) :
    (m.execute w).machine.hostSide = m.hostSide := by
  have hkept : ∀ part, ¬ m.MayChange w part → m.SameIn (m.execute w).machine part :=
    fun part hnot => (execute_sameIn h part).resolve_right hnot
  have hkeypad := hkept .keypad nofun
  have hdialect := hkept .dialect nofun
  have hpolicy := hkept .unknownWords nofun
  have hsource := hkept .source nofun
  rw [hostSide, hkeypad, hdialect, hpolicy, hsource, hostSide]

theorem cycle_hostSide (m : Machine) : m.cycle.machine.hostSide = m.hostSide := by
  rcases m.cycle_machine_cases with hsame | ⟨x, key, -, hresumed⟩ | ⟨word, -, -, hcycle, hok⟩
  · rw [hsame]
  · rw [hresumed]
    rfl
  · rw [hcycle]
    exact execute_hostSide hok

theorem afterCycles_hostSide (m : Machine) (count : Nat) :
    (m.afterCalls (List.replicate count .cycle)).hostSide = m.hostSide := by
  refine afterCalls_induction (P := fun n => n.hostSide = m.hostSide) _ rfl ?_
  intro n hn call hcall
  rw [List.eq_of_mem_replicate hcall]
  exact n.cycle_hostSide.trans hn

/-! ## The footprint -/

/-- A word that is executed is counted and remembered. -/
theorem execute_counted (h : (m.execute w).result = .ok ()) :
    (m.execute w).machine.counter = m.counter + 1 ∧ (m.execute w).machine.lastWord = w := by
  rcases execute_of_ok h with ⟨-, hmachine⟩ | ⟨-, -, hmachine⟩
  · have hcounter := congrArg Books.counter (m.performed_books (.decode w))
    rw [hmachine]
    exact ⟨congrArg (· + 1) hcounter, rfl⟩
  · rw [hmachine]
    exact ⟨rfl, rfl⟩

/-- An unknown word that is passed over changes the program counter and the counters. -/
theorem execute_unknown_machine (hword : ¬ w.IsInstruction)
    (h : (m.execute w).result = .ok ()) :
    (m.execute w).machine = (m.advance 2).complete w := by
  have hdecode := (Instruction.decode_eq_unknown_iff w w).mpr ⟨hword, rfl⟩
  rcases execute_of_ok h with ⟨hnone, -⟩ | ⟨-, -, hmachine⟩
  · rw [hdecode] at hnone
    cases hnone
  · exact hmachine

/-- A word that is executed changes no part that it may not change. A call appends one
    frame and a return removes the newest. The word is kept as the last one and counted,
    modulo 2^64, and if it is unknown, that and the program counter are all that changes. No
    number of cycles moves a key or changes the dialect, the policy or the file of the
    program. -/
theorem execute_footprint (m : Machine) :
    (∀ w, (m.execute w).result = .ok () →
      let n := (m.execute w).machine
      (∀ part, ¬ m.MayChange w part → m.SameIn n part) ∧
      (w.family = 0x2 → ∃ frame, n.stack.frames = m.stack.frames ++ [frame]) ∧
      (w = 0x00EE → ∃ frame, m.stack.frames = n.stack.frames ++ [frame]) ∧
      n.lastWord = w ∧ n.counter = m.counter + 1 ∧
      (¬ w.IsInstruction → n =
        { m with
          registers := { m.registers with pc := n.registers.pc }
          lastWord := w
          counter := m.counter + 1 })) ∧
    (∀ count,
      let n := m.afterCalls (List.replicate count .cycle)
      n.keypad = m.keypad ∧ n.dialect = m.dialect ∧ n.unknownWords = m.unknownWords ∧
        n.source = m.source) := by
  constructor
  · intro w h n
    obtain ⟨hcounter, hlast⟩ := execute_counted h
    refine ⟨fun part hnot => (execute_sameIn h part).resolve_right hnot,
      fun hfamily => ⟨_, execute_call_frames hfamily h⟩, ?_, hlast, hcounter, ?_⟩
    · rintro rfl
      exact ⟨_, (execute_ret_frames h).1⟩
    · intro hword
      have hmachine : n = _ := execute_unknown_machine hword h
      rw [hmachine]
      rfl
  · intro count n
    have hside : n.hostSide = m.hostSide := m.afterCycles_hostSide count
    simpa only [hostSide, Prod.mk.injEq] using hside

/-- A machine whose index has the last three bytes of memory behind it, and whose counter
    cannot go higher. -/
def threeFromEnd : Machine :=
  { initial (.ofSeed 0) with
    registers := { Registers.initial with index := 0xFFD }
    counter := 0xFFFFFFFFFFFFFFFF }

theorem execute_footprint_threeFromEnd :
    let n := (threeFromEnd.execute 0xF333).machine
    ((threeFromEnd.execute 0xF333).result = .ok () ∧
      ¬ threeFromEnd.MayChange 0xF333 (.memory 0xFFC)) ∧
    threeFromEnd.SameIn n (.memory 0xFFC) ∧ n.lastWord = 0xF333 ∧ n.counter = 0 := by
  have hok : (threeFromEnd.execute 0xF333).result = .ok () := rfl
  have hnot : ¬ threeFromEnd.MayChange 0xF333 (.memory 0xFFC) := by
    intro h
    cases h with
    | digits _ _ hfirst => exact absurd hfirst (by decide)
    | stored _ hbyte => exact absurd hbyte (by decide)
  obtain ⟨hsame, -, -, hlast, hcounter, -⟩ := (execute_footprint threeFromEnd).1 0xF333 hok
  exact ⟨⟨hok, hnot⟩, hsame _ hnot, hlast, hcounter.trans (by decide)⟩

end Machine

end Chip8
