/-
  Chip8.Proofs.HeadlessErrors

  Every error of a run of a file. The checks before the run refuse it in a fixed order, and
  then nothing has been executed (`Headless.refusal?`). A run that starts is on a
  well-formed machine all the way, so that it can only end with a fault one level deep, and
  the fault has one of four causes (`Error.EndsRun`).
-/
import Chip8.Proofs.Schedule
import Chip8.Proofs.WellFormed

namespace Chip8

/-- The causes for which a fault at `word` can end a run, under a policy. -/
inductive Error.EndsRun (policy : UnknownWordPolicy) (word : Word) : Error → Prop
  /-- A word, a sprite or a transfer leaves the memory at its end. -/
  | addressOutOfRange : EndsRun policy word (.addressOutOfRange 0x1000)
  | stackOverflow : EndsRun policy word .stackOverflow
  | stackUnderflow : EndsRun policy word .stackUnderflow
  /-- The word is no instruction, and the policy is to halt. -/
  | unknownWord (hpolicy : policy = .halt) : EndsRun policy word (.unknownWord word)

namespace Machine

variable {m : Machine}

/-- What keeps the instruction of a word from being performed ends the run, unless the word
    is to be passed over. -/
theorem endsRun_of_obstacle (hm : m.WellFormed) {word : Word} {cause : Error}
    (h : (Instruction.decode word).obstacle? m = some cause)
    (hpolicy : ¬ (cause = .unknownWord word ∧ m.unknownWords = .skip)) :
    cause.EndsRun m.unknownWords word := by
  rcases (Instruction.obstacle?_eq_some_iff _ _ _).mp h with
    ⟨-, -, rfl⟩ | ⟨_, -, -, rfl⟩ | ⟨_, -, -, rfl⟩ | ⟨unknown, -, rfl⟩
  · exact .stackUnderflow
  · exact .stackOverflow
  · -- an index of 12 bits is at most the end of memory
    have hindex := hm.registers.index_lt
    have hmax : max m.registers.index.toNat 4096 = 0x1000 := by omega
    rw [hmax]
    exact .addressOutOfRange
  · obtain rfl := unknownWord_obstacle h
    cases hhalt : m.unknownWords with
    | halt => exact .unknownWord rfl
    | skip => exact absurd ⟨rfl, hhalt⟩ hpolicy

/-- A cycle of a well-formed machine fails with a fault one level deep. -/
theorem cycle_endsRun (hm : m.WellFormed) {error : Error} (h : m.cycle.result = .error error) :
    ∃ word pc cause, error = .fault word pc cause ∧ cause.EndsRun m.unknownWords word := by
  rcases (m.cycle_result_error_iff error).mp h with
    ⟨register, key, hmode, hregister, -⟩ | ⟨-, -, rfl⟩ | ⟨-, hfit, hexec⟩
  · have hlt := hm.mode.register_lt register _ hmode
    omega
  · have hpc := hm.registers.pc_lt
    have hmax : max m.registers.pc.toNat 4096 = 0x1000 := by omega
    rw [hmax]
    exact ⟨_, _, _, rfl, .addressOutOfRange⟩
  · obtain ⟨cause, hobstacle, hpolicy, rfl⟩ := (m.execute_result_error_iff _ error).mp hexec
    exact ⟨_, _, cause, rfl, endsRun_of_obstacle hm hobstacle hpolicy⟩

/-- Steps of a run leave a machine well-formed and under its policy. -/
theorem step_keeps_policy {policy : UnknownWordPolicy} {call : HostCall} (hcall : call.Steps)
    (hm : m.WellFormed ∧ m.unknownWords = policy) :
    (m.call call).machine.WellFormed ∧ (m.call call).machine.unknownWords = policy := by
  have hside := step_hostSide hcall (m := m)
  simp only [hostSide, Prod.mk.injEq] at hside
  exact ⟨call_wellFormed hm.1 call, hside.2.2.1.trans hm.2⟩

/-- Steps that fail on a well-formed machine fail with a fault one level deep. -/
theorem callAll_endsRun {calls : List HostCall} {error : Error} (hm : m.WellFormed)
    (hcalls : ∀ call ∈ calls, call.Steps) (h : (m.callAll calls).result = .error error) :
    ∃ word pc cause, error = .fault word pc cause ∧ cause.EndsRun m.unknownWords word := by
  obtain ⟨n, ⟨hn, hpolicy⟩, call, hcall, herror⟩ :=
    exists_of_callAll_error (P := fun n => n.WellFormed ∧ n.unknownWords = m.unknownWords)
      ⟨hm, rfl⟩ (fun _ hn call hcall => step_keeps_policy (hcalls call hcall) hn) h
  -- a tick does not fail
  cases hcalls call hcall with
  | tick => cases herror
  | cycle =>
      rw [← hpolicy]
      exact cycle_endsRun hn herror

end Machine

namespace Headless

theorem ready_wellFormed (config : Config) (path : String) (program : List UInt8)
    (random : RandomStream.Generator) : (ready config path program random).WellFormed :=
  ⟨.initial, .empty, .running⟩

/-- A run is refused by the first of its checks that fails: no cycles, no speed, no file, a
    program of more than 3584 bytes. Then it has executed no word, has logged nothing and
    leaves a machine just switched on. Otherwise it succeeds, or ends with a fault one level
    deep whose cause is that an address is past the end of memory, that the stack is full or
    empty, or, under the policy to halt, that the word of the fault is no instruction. -/
theorem run_fails_by_refusal_or_fault (files : FileSystem) (entropy : RandomStream.Generator)
    (config : Config) (path : String) (limit : Nat) :
    match refusal? files config path limit with
    | some error =>
      run files entropy config path limit = .failed error (.initial entropy) ∧
        executedWords files entropy config path limit = []
    | none =>
      (run files entropy config path limit).result = .ok () ∨
        ∃ word pc cause,
          (run files entropy config path limit).result = .error (.fault word pc cause) ∧
            cause.EndsRun config.unknownWords word := by
  split
  · next error hrefused =>
    obtain ⟨hrun, hcalls⟩ := run_of_refused entropy hrefused
    rw [executedWords, hcalls]
    exact ⟨hrun, rfl⟩
  · next haccepted =>
    have hresult := (run_of_accepted entropy haccepted).1
    rw [hresult]
    cases hsteps : ((prepare files entropy config path).machine.callAll
        (HostCall.ofSteps config.period 0 limit)).result with
    | ok done => exact Or.inl rfl
    | error error =>
        obtain ⟨-, hspeed, program, hfile, hsize⟩ := exists_program_of_accepted haccepted
        rw [prepare_of_accepted entropy hspeed hfile hsize] at hsteps
        obtain ⟨word, pc, cause, rfl, hcause⟩ := Machine.callAll_endsRun
          (ready_wellFormed config path program _) (fun _ => HostCall.steps_of_mem_ofSteps) hsteps
        exact Or.inr ⟨word, pc, cause, rfl, hcause⟩

end Headless

end Chip8
