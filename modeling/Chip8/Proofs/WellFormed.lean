/-
  Chip8.Proofs.WellFormed

  The invariant of machines: address registers and return addresses have 12 bits, the
  stack has at most sixteen frames, and a wait is for a register and a key that
  exist. A machine just switched on has it, every call of the host keeps it
  (`call_wellFormed`), and so every machine that calls can lead to has it
  (`boot_afterCalls_wellFormed`).
-/
import Chip8.Proofs.Faults
import Chip8.Proofs.HostCall

namespace Chip8

open RandomStream (Generator)

/-! ## Registers -/

/-- Both address registers have 12 bits. -/
structure Registers.WellFormed (r : Registers) : Prop where
  pc_lt : r.pc.toNat < 4096
  index_lt : r.index.toNat < 4096

namespace Registers.WellFormed

variable {r : Registers}

theorem initial : Registers.initial.WellFormed := ⟨by decide, by decide⟩

theorem set (h : r.WellFormed) (x : Fin 16) (value : UInt8) : (r.set x value).WellFormed :=
  ⟨h.pc_lt, h.index_lt⟩

theorem setFlag (h : r.WellFormed) (flag : Bool) : (r.setFlag flag).WellFormed :=
  h.set ..

theorem setFirst (h : r.WellFormed) (values : List UInt8) :
    (r.setFirst values).WellFormed := by
  constructor
  · rw [r.setFirst_pc]
    exact h.pc_lt
  · rw [r.setFirst_index]
    exact h.index_lt

theorem setIndex (h : r.WellFormed) (address : Word) : (r.setIndex address).WellFormed :=
  ⟨h.pc_lt, address.toNat_address_lt⟩

theorem setPc (h : r.WellFormed) (address : Word) : (r.setPc address).WellFormed :=
  ⟨address.toNat_address_lt, h.index_lt⟩

theorem advance (h : r.WellFormed) (distance : Word) : (r.advance distance).WellFormed :=
  h.setPc _

theorem commit (h : r.WellFormed) (yield : Operation.Yield) (x : Fin 16) :
    (yield.commit r x).WellFormed := by
  unfold Operation.Yield.commit
  split
  · exact h.set x _
  · exact (h.setFlag _).set x _

theorem afterTransfer (h : r.WellFormed) (dialect : Dialect) (x : Fin 16) :
    (r.afterTransfer dialect x).WellFormed := by
  unfold Registers.afterTransfer
  split
  · exact h.setIndex _
  · exact h

end Registers.WellFormed

/-! ## Stack and mode -/

/-- There are at most sixteen frames, and each is an address of 12 bits. -/
structure CallStack.WellFormed (s : CallStack) : Prop where
  length_le : s.frames.length ≤ 16
  frame_lt : ∀ frame ∈ s.frames, frame.toNat < 4096

namespace CallStack.WellFormed

variable {s : CallStack}

theorem empty : CallStack.empty.WellFormed := ⟨by decide, by simp⟩

theorem pushed {address : Word} (h : s.WellFormed) (hdepth : s.depth ≠ 16)
    (haddress : address.toNat < 4096) : (s.pushed address).WellFormed := by
  refine ⟨(s.pushed address).length_frames ▸ (s.pushed address).depth_le, ?_⟩
  intro frame hframe
  -- a frame is an old one or the address just pushed
  rw [s.frames_pushed address hdepth, List.mem_append, List.mem_singleton] at hframe
  rcases hframe with hold | rfl
  · exact h.frame_lt frame hold
  · exact haddress

theorem popped (h : s.WellFormed) (hdepth : s.depth ≠ 0) : s.popped.WellFormed := by
  refine ⟨s.popped.length_frames ▸ s.popped.depth_le, ?_⟩
  intro frame hframe
  apply h.frame_lt frame
  rw [s.frames_eq_popped hdepth]
  exact List.mem_append_left _ hframe

end CallStack.WellFormed

/-- A wait is for a register that exists, and a key kept for it exists too. -/
structure Mode.WellFormed (mode : Mode) : Prop where
  register_lt : ∀ register pressed, mode = .awaitingKey register pressed → register < 16
  key_lt : ∀ register key, mode = .awaitingKey register (some key) → key.toNat < 16

namespace Mode.WellFormed

theorem running : Mode.running.WellFormed := by
  constructor
  · intro register pressed h
    cases h
  · intro register key h
    cases h

theorem awaitingKey (x : Fin 16) : (Mode.awaitingKey x none).WellFormed := by
  constructor
  · intro register pressed h
    cases h
    exact x.isLt
  · intro register key h
    cases h

theorem afterPress {mode : Mode} (h : mode.WellFormed) {key : UInt8} (hkey : key.toNat < 16) :
    (mode.afterPress key).WellFormed := by
  constructor
  · intro register pressed heq
    obtain ⟨before, hbefore⟩ := Mode.afterPress_eq_awaitingKey heq
    exact h.register_lt register before hbefore
  · intro register latched heq
    unfold Mode.afterPress at heq
    split at heq
    · cases heq
      exact hkey
    · exact h.key_lt register latched heq

end Mode.WellFormed

namespace Machine

/-- What holds of every machine that was ever switched on. -/
structure WellFormed (m : Machine) : Prop where
  registers : m.registers.WellFormed
  stack : m.stack.WellFormed
  mode : m.mode.WellFormed

theorem initial_wellFormed (random : Generator) : (initial random).WellFormed :=
  ⟨.initial, .empty, .running⟩

end Machine

/-! ## What instructions keep -/

theorem Instruction.work_wellFormed {i : Instruction} {m : Machine} (hm : m.WellFormed)
    (h : i.obstacle? m = none) : (i.work m).WellFormed := by
  obtain ⟨hregisters, hstack, hmode⟩ := hm
  cases i with
  | ret =>
      have hdepth := (obstacle?_ret_eq_none_iff m).mp h
      exact ⟨hregisters, hstack.popped hdepth, hmode⟩
  | call address =>
      -- the return address is cut to 12 bits before it is pushed
      have hdepth := (obstacle?_call_eq_none_iff m address).mp h
      exact ⟨hregisters, hstack.pushed hdepth (Word.toNat_address_lt _), hmode⟩
  | draw x y rows => exact ⟨hregisters.setFlag _, hstack, hmode⟩
  | storeDecimal x => exact ⟨hregisters, hstack, hmode⟩
  | storeRegisters x => exact ⟨hregisters.afterTransfer _ x, hstack, hmode⟩
  | loadRegisters x => exact ⟨(hregisters.setFirst _).afterTransfer _ x, hstack, hmode⟩
  | combine operation x y => exact ⟨hregisters.commit _ x, hstack, hmode⟩
  | waitKey x => exact ⟨hregisters, hstack, .awaitingKey x⟩
  | loadByte | addByte | random | loadDelay => exact ⟨hregisters.set .., hstack, hmode⟩
  | loadIndex | addIndex | fontGlyph => exact ⟨hregisters.setIndex _, hstack, hmode⟩
  | sys | clearScreen | jump | skipIf | jumpOffset | setDelay | setSound | unknown =>
      exact ⟨hregisters, hstack, hmode⟩

namespace Machine

theorem advance_wellFormed {m : Machine} (hm : m.WellFormed) (distance : Word) :
    (m.advance distance).WellFormed :=
  ⟨hm.registers.advance distance, hm.stack, hm.mode⟩

theorem follow_wellFormed {m : Machine} (hm : m.WellFormed) (flow : Flow) :
    (m.follow flow).WellFormed := by
  cases flow with
  | next => exact advance_wellFormed hm 2
  | skip => exact advance_wellFormed hm 4
  | jump address => exact ⟨hm.registers.setPc address, hm.stack, hm.mode⟩
  | stay => exact hm

theorem execute_wellFormed {m : Machine} (hm : m.WellFormed) (word : Word) :
    (m.execute word).machine.WellFormed := by
  cases h : (Instruction.decode word).obstacle? m with
  | none =>
      have hwork := Instruction.work_wellFormed hm h
      have hafter := follow_wellFormed hwork ((Instruction.decode word).flow m)
      rw [execute_of_no_obstacle h]
      exact ⟨hafter.registers, hafter.stack, hafter.mode⟩
  | some cause =>
      rw [execute_of_obstacle h]
      split
      · have hnext := advance_wellFormed hm 2
        exact ⟨hnext.registers, hnext.stack, hnext.mode⟩
      · exact hm

theorem cycle_wellFormed {m : Machine} (hm : m.WellFormed) : m.cycle.machine.WellFormed := by
  rcases m.cycle_machine_cases with hsame | ⟨x, key, -, hresumed⟩ | ⟨word, -, -, hcycle, -⟩
  · rw [hsame]
    exact hm
  · rw [hresumed]
    exact ⟨(hm.registers.set x key).advance 2, hm.stack, .running⟩
  · rw [hcycle]
    exact execute_wellFormed hm word

/-! ## What the other calls keep -/

theorem keyMoved_wellFormed {m : Machine} (hm : m.WellFormed) (key : Fin 16) (isDown : Bool) :
    (m.keyMoved key isDown).WellFormed := by
  have hkey : key.val.toUInt8.toNat < 16 := by
    have hlt := key.isLt
    rw [UInt8.toNat_ofNat']
    omega
  refine ⟨hm.registers, hm.stack, ?_⟩
  unfold keyMoved
  dsimp only
  split
  · exact hm.mode.afterPress hkey
  · exact hm.mode

theorem setKey_wellFormed {m : Machine} (hm : m.WellFormed) (number : Nat) (isDown : Bool) :
    (m.setKey number isDown).machine.WellFormed := by
  by_cases h : number < 16
  · rw [setKey_of_lt m isDown h]
    exact keyMoved_wellFormed hm _ isDown
  · rw [setKey_of_le m isDown (Nat.not_lt.mp h)]
    exact hm

theorem loadProgram_wellFormed {m : Machine} (hm : m.WellFormed) (program : List UInt8) :
    (m.loadProgram program).machine.WellFormed := by
  unfold loadProgram
  split
  · exact hm
  · exact ⟨hm.registers, hm.stack, hm.mode⟩

theorem loadFile_wellFormed {m : Machine} (hm : m.WellFormed) (files : FileSystem)
    (path : String) : (m.loadFile files path).machine.WellFormed := by
  unfold loadFile
  split
  · exact hm
  · next program _ =>
    have hload := loadProgram_wellFormed hm program
    unfold Outcome.andThen
    split
    · exact hload
    · exact ⟨hload.registers, hload.stack, hload.mode⟩

theorem loadFile?_wellFormed {m : Machine} (hm : m.WellFormed) (files : FileSystem)
    (path : Option String) : (m.loadFile? files path).machine.WellFormed := by
  cases path with
  | none => exact hm
  | some path => exact loadFile_wellFormed hm files path

theorem reset_wellFormed (m : Machine) (files : FileSystem) :
    (m.reset files).machine.WellFormed := by
  have hpower : m.powerOn.WellFormed := ⟨.initial, .empty, .running⟩
  have hload := loadFile?_wellFormed hpower files m.powerOn.source
  simpa only [reset, Outcome.andThen] using hload

theorem boot_wellFormed (files : FileSystem) (path : Option String) (random : Generator) :
    (boot files path random).machine.WellFormed :=
  loadFile?_wellFormed (initial_wellFormed random) files path

theorem call_wellFormed {m : Machine} (hm : m.WellFormed) (call : HostCall) :
    (m.call call).machine.WellFormed := by
  cases call with
  | cycle => exact cycle_wellFormed hm
  | execute word => exact execute_wellFormed hm word
  | setKey number isDown => exact setKey_wellFormed hm number isDown
  | skipInstruction => exact ⟨hm.registers.advance 2, hm.stack, .running⟩
  | loadProgram program => exact loadProgram_wellFormed hm program
  | loadFile files path => exact loadFile_wellFormed hm files path
  | reset files => exact reset_wellFormed m files
  | tick | clearScreen | seed | setDialect | setPolicy =>
      exact ⟨hm.registers, hm.stack, hm.mode⟩

/-- Whatever calls a machine has seen since it was switched on, succeeding or failing,
    it is well-formed. -/
theorem boot_afterCalls_wellFormed (files : FileSystem) (path : Option String)
    (random : Generator) (calls : List HostCall) :
    ((boot files path random).machine.afterCalls calls).WellFormed :=
  afterCalls_induction calls (boot_wellFormed files path random)
    fun _ hm call _ => call_wellFormed hm call

end Machine

end Chip8
