/-
  Chip8.Proofs.CallBracket

  Calls and returns as brackets. Whatever a program does inside a call, it leaves the
  frames of the callers and the return address above them alone (`afterCalls_prefix`):
  the only way below them is the return that takes this very address
  (`returns_of_call`). So a call that comes back comes back right after itself, with the
  frames that it found (`call_brackets`).
-/
import Chip8.Proofs.Footprint

namespace Chip8

namespace Machine

/-- Whether the next cycle of a machine executes 00EE. -/
structure Returns (m : Machine) : Prop where
  running : m.mode = .running
  fetched : m.fetch = .ok 0x00EE
  succeeds : m.cycle.result = .ok ()

/-- Whether there are more than `depth` frames from the start to the end of some calls. -/
def StaysAbove (depth : Nat) (m : Machine) : List HostCall → Prop
  | [] => depth < m.stack.depth
  | call :: calls => depth < m.stack.depth ∧ StaysAbove depth (m.call call).machine calls

/-! ## One step -/

theorem setKey_stack (m : Machine) (number : Nat) (isDown : Bool) :
    (m.setKey number isDown).machine.stack = m.stack := by
  by_cases h : number < 16
  · rw [setKey_of_lt m isDown h]
    rfl
  · rw [setKey_of_le m isDown (Nat.not_lt.mp h)]
    rfl

/-- A step of a running program leaves the stack alone, pushes the address after a call, or
    is a return. -/
theorem call_stack_cases (m : Machine) {call : HostCall} (hdrives : call.Drives) :
    (m.call call).machine.stack = m.stack ∨
    (m.call call).machine.stack.frames = m.stack.frames ++ [(m.registers.pc + 2).address] ∨
    (call = .cycle ∧ m.Returns ∧
      m.stack.frames = m.cycle.machine.stack.frames ++ [m.stack.top] ∧
      m.cycle.machine.registers.pc = m.stack.top.address) := by
  cases hdrives with
  | tick => exact Or.inl rfl
  | setKey number isDown => exact Or.inl (m.setKey_stack number isDown)
  | skipInstruction => exact Or.inl rfl
  | cycle =>
      show m.cycle.machine.stack = m.stack ∨
        m.cycle.machine.stack.frames = m.stack.frames ++ [(m.registers.pc + 2).address] ∨ _
      rcases m.cycle_machine_cases with
        hsame | ⟨x, key, -, hresumed⟩ | ⟨word, hmode, hfetch, hcycle, hok⟩
      · exact Or.inl (congrArg stack hsame)
      · rw [hresumed]
        exact Or.inl rfl
      · rcases execute_sameIn hok .stack with hsame | hchange
        · rw [hcycle]
          exact Or.inl hsame
        · -- only a call and a return may change the stack
          cases hchange with
          | stack hword =>
              rcases hword with hfamily | rfl
              · rw [hcycle]
                exact Or.inr (Or.inl (execute_call_frames hfamily hok))
              · obtain ⟨hframes, hpc⟩ := execute_ret_frames hok
                rw [← hcycle] at hok hframes hpc
                exact Or.inr (Or.inr ⟨rfl, ⟨hmode, hfetch, hok⟩, hframes, hpc⟩)

variable {m : Machine} {frames : List Word}

/-- A step keeps the oldest frames if there are as many left. -/
theorem call_prefix {call : HostCall} (hdrives : call.Drives) (h : frames <+: m.stack.frames)
    (hdepth : frames.length ≤ (m.call call).machine.stack.depth) :
    frames <+: (m.call call).machine.stack.frames := by
  rcases m.call_stack_cases hdrives with hsame | hpush | ⟨rfl, -, hpop, -⟩
  · rw [hsame]
    exact h
  · rw [hpush]
    exact h.trans (List.prefix_append _ _)
  · have hleft : m.cycle.machine.stack.frames <+: m.stack.frames := ⟨_, hpop.symm⟩
    rw [← CallStack.length_frames] at hdepth
    exact List.prefix_of_prefix_length_le h hleft hdepth

/-- A step after which the frames reach no further than some of the oldest ones is the
    return that takes the frame above these. -/
theorem returns_of_call {call : HostCall} {ret : Word} (hdrives : call.Drives)
    (h : frames ++ [ret] <+: m.stack.frames)
    (hdepth : (m.call call).machine.stack.depth ≤ frames.length) :
    call = .cycle ∧ m.Returns ∧ m.cycle.machine.stack.frames = frames ∧
      m.cycle.machine.registers.pc = ret.address := by
  have hle := h.length_le
  rw [List.length_append, List.length_singleton] at hle
  rw [← CallStack.length_frames] at hdepth
  rcases m.call_stack_cases hdrives with hsame | hpush | ⟨rfl, hreturns, hpop, hpc⟩
  · rw [hsame] at hdepth
    omega
  · rw [hpush, List.length_append] at hdepth
    omega
  · -- one frame was taken, so the prefix was all there was
    have hlength : (frames ++ [ret]).length = m.stack.frames.length := by
      have hpopped := congrArg List.length hpop
      rw [List.length_append, List.length_singleton] at hpopped ⊢
      have hdepth' : m.cycle.machine.stack.frames.length ≤ frames.length := hdepth
      omega
    have hall : frames ++ [ret] = m.cycle.machine.stack.frames ++ [m.stack.top] :=
      (h.eq_of_length hlength).trans hpop
    obtain ⟨hframes, hret⟩ := List.append_inj' hall rfl
    obtain rfl : ret = m.stack.top := List.singleton_inj.mp hret
    exact ⟨rfl, hreturns, hframes.symm, hpc⟩

/-! ## A whole call -/

/-- While the stack stays above some of the oldest frames, these stay. -/
theorem afterCalls_prefix {calls : List HostCall} {depth : Nat}
    (hdrives : ∀ call ∈ calls, call.Drives) (habove : m.StaysAbove depth calls)
    (h : frames <+: m.stack.frames) (hlength : frames.length ≤ depth + 1) :
    frames <+: (m.afterCalls calls).stack.frames := by
  -- the next state has more than `depth` frames, so no step of the run reaches below them
  induction calls generalizing m with
  | nil => exact h
  | cons call calls ih =>
      have hnext : depth < (m.call call).machine.stack.depth := by
        cases calls with
        | nil => exact habove.2
        | cons => exact habove.2.1
      have hstep := call_prefix (hdrives call (List.mem_cons_self ..)) h (by omega)
      exact ih (fun c hc => hdrives c (List.mem_cons_of_mem _ hc)) habove.2 hstep

/-- A call that finds a free slot succeeds and pushes the address after it. -/
theorem cycle_call {word : Word} (hmode : m.mode = .running) (hfetch : m.fetch = .ok word)
    (hcall : word.family = 0x2) (hroom : m.stack.depth < 16) :
    m.cycle.result = .ok () ∧
      m.cycle.machine.stack.frames =
        m.stack.frames ++ [.ofNat ((m.registers.pc.toNat + 2) % 4096)] := by
  have hnone : (Instruction.decode word).obstacle? m = none := by
    rw [Instruction.decode_call hcall]
    exact (Instruction.obstacle?_call_eq_none_iff m _).mpr (Nat.ne_of_lt hroom)
  have hok : (m.execute word).result = .ok () := by rw [execute_of_no_obstacle hnone]
  have hret : (m.registers.pc + 2).address = .ofNat ((m.registers.pc.toNat + 2) % 4096) :=
    Word.address_add _ _
  rw [cycle_of_fetch hmode hfetch, ← hret]
  exact ⟨hok, execute_call_frames hcall hok⟩

/-- Take a running machine with a free slot that is about to execute a call. As long as
    there are more frames than it had, its own frames are the oldest ones, and above them
    is the address after the call. The first step that leaves no more frames than it had
    is a cycle that executes 00EE, and after it the frames are as they were before the call
    and the program counter is at the address after it. -/
theorem call_brackets {word : Word} (hmode : m.mode = .running) (hfetch : m.fetch = .ok word)
    (hcall : word.family = 0x2) (hroom : m.stack.depth < 16) :
    let depth := m.stack.depth
    let ret : Word := .ofNat ((m.registers.pc.toNat + 2) % 4096)
    let entered := m.cycle.machine
    m.cycle.result = .ok () ∧ entered.stack.depth = depth + 1 ∧
    ∀ calls, (∀ call ∈ calls, call.Drives) → entered.StaysAbove depth calls →
      let n := entered.afterCalls calls
      n.stack.frames.take depth = m.stack.frames ∧ n.stack.frames[depth]? = some ret ∧
      ∀ next : HostCall, next.Drives → (n.call next).machine.stack.depth ≤ depth →
        next = .cycle ∧ n.Returns ∧
        n.cycle.machine.stack.depth = depth ∧ n.cycle.machine.stack.frames = m.stack.frames ∧
        n.cycle.machine.registers.pc = ret := by
  intro depth ret entered
  obtain ⟨hok, hframes⟩ := cycle_call hmode hfetch hcall hroom
  have hlength : m.stack.frames.length = depth := m.stack.length_frames
  have hentered : entered.stack.depth = depth + 1 := by
    rw [← entered.stack.length_frames, hframes, List.length_append, hlength]
    rfl
  refine ⟨hok, hentered, ?_⟩
  intro calls hdrives habove n
  -- what the call left on the stack is still there, at the bottom
  have hprefix : m.stack.frames ++ [ret] <+: n.stack.frames := by
    refine afterCalls_prefix hdrives habove ⟨[], ?_⟩ ?_
    · rw [List.append_nil]
      exact hframes.symm
    · rw [List.length_append, hlength]
      exact Nat.le_refl _
  refine ⟨?_, ?_, ?_⟩
  · obtain ⟨rest, hrest⟩ := hprefix
    rw [← hrest, List.append_assoc, ← hlength, List.take_left]
  · obtain ⟨rest, hrest⟩ := hprefix
    rw [← hrest, List.append_assoc, ← hlength, List.getElem?_append_right (Nat.le_refl _),
      Nat.sub_self]
    rfl
  · intro next hnext hbelow
    have hbelow' : (n.call next).machine.stack.depth ≤ m.stack.frames.length := by
      rw [hlength]
      exact hbelow
    obtain ⟨hcycle, hreturns, hback, hpc⟩ := returns_of_call hnext hprefix hbelow'
    have hret : ret.address = ret := by
      have hsum : ret = (m.registers.pc + 2).address := Word.address_add m.registers.pc 2 |>.symm
      rw [hsum, Word.address_address]
    refine ⟨hcycle, hreturns, ?_, hback, hpc.trans hret⟩
    rw [← CallStack.length_frames, hback, hlength]

/-- A machine with a call of a subroutine at 0x300 that does nothing but return. -/
def callOfNothing : Machine :=
  { initial (.ofSeed 0) with
    memory := ⟨Vector.ofFn fun i =>
      if i.val = 0x200 then 0x23 else if i.val = 0x301 then 0xEE else 0⟩ }

theorem fetch_callOfNothing : callOfNothing.fetch = .ok 0x2300 := by
  have hpc : callOfNothing.registers.pc.toNat + 2 ≤ 4096 := by decide
  have hword : callOfNothing.wordAt callOfNothing.registers.pc.toNat hpc = .ofBytes 0x23 0x00 := by
    simp [wordAt, callOfNothing, initial, Registers.initial, Memory.programStart]
  rw [fetch_of_le hpc, hword]
  rfl

/-- The same machine in the subroutine. -/
def insideCallOfNothing : Machine :=
  { callOfNothing with
    registers := { Registers.initial with pc := 0x300 }
    stack := CallStack.empty.pushed 0x202
    lastWord := 0x2300
    counter := 1 }

theorem afterCalls_callOfNothing :
    callOfNothing.cycle.machine.afterCalls [.tick] = insideCallOfNothing := by
  rw [cycle_of_fetch rfl fetch_callOfNothing]
  rfl

theorem fetch_insideCallOfNothing : insideCallOfNothing.fetch = .ok 0x00EE := by
  have hpc : insideCallOfNothing.registers.pc.toNat + 2 ≤ 4096 := by decide
  have hword : insideCallOfNothing.wordAt insideCallOfNothing.registers.pc.toNat hpc =
      .ofBytes 0x00 0xEE := by
    simp [wordAt, insideCallOfNothing, callOfNothing]
  rw [fetch_of_le hpc, hword]
  rfl

theorem call_brackets_callOfNothing :
    (callOfNothing.mode = .running ∧ callOfNothing.fetch = .ok 0x2300 ∧
      callOfNothing.stack.depth = 0 ∧
      callOfNothing.cycle.machine.afterCalls [.tick] = insideCallOfNothing) ∧
    insideCallOfNothing.stack.frames = [0x202] ∧ insideCallOfNothing.Returns ∧
    insideCallOfNothing.cycle.machine.stack.frames = [] ∧
    insideCallOfNothing.cycle.machine.registers.pc = 0x202 := by
  have hinside := (call_brackets (m := callOfNothing) rfl fetch_callOfNothing rfl (by decide)).2.2
  have habove : callOfNothing.cycle.machine.StaysAbove 0 [.tick] := by
    rw [cycle_of_fetch rfl fetch_callOfNothing]
    exact ⟨Nat.one_pos, Nat.one_pos⟩
  have hdrives : ∀ call ∈ [HostCall.tick], call.Drives := by simp [HostCall.Drives.tick]
  have hback := (hinside [.tick] hdrives habove).2.2 .cycle .cycle
  rw [afterCalls_callOfNothing, call_cycle] at hback
  have hdepth : insideCallOfNothing.cycle.machine.stack.depth ≤ callOfNothing.stack.depth := by
    rw [cycle_of_fetch rfl fetch_insideCallOfNothing]
    exact Nat.zero_le 0
  obtain ⟨-, hreturns, -, hframes, hpc⟩ := hback hdepth
  exact ⟨⟨rfl, fetch_callOfNothing, rfl, afterCalls_callOfNothing⟩, rfl, hreturns, hframes, hpc⟩

end Machine

end Chip8
