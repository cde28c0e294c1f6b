/-
  Chip8.Proofs.MaskedDraws

  Where the random stream matters. A word CXNN keeps of a random byte what its mask NN lets
  through, and no other word looks at the stream. So two machines that are the same but for
  their streams answer alike as long as every mask is zero (`call_rerolled`), although a draw
  under such a mask still moves both streams. The same holds of runs of a file, with a seed
  or without (`Headless.run_rerolled`).
-/
import Chip8.Proofs.RandomBytes
import Chip8.Proofs.Schedule
import Chip8.Proofs.Unnoticed

namespace Chip8

open RandomStream (Generator)

/-- Whether a word keeps something of a random byte: CXNN with a mask that is not zero. -/
def Word.UsesRandom (w : Word) : Prop :=
  w.family = 0xC ∧ w.byte ≠ 0

/-- The change to another random stream. -/
def Change.rerolled (random : Generator) : Change :=
  .hidden id fun _ => random

theorem Instruction.ignores_rerolled {w : Word} {i : Instruction} (hmeans : w.Says i)
    (h : w.family ≠ 0xC) (m : Machine) (random : Generator) :
    i.Ignores (.rerolled random) m := by
  cases hmeans with
  | random hfamily => exact absurd hfamily h
  | _ => exact ⟨rfl, rfl⟩

namespace Machine

/-! ## One call -/

/-- A draw under a mask of zero puts zero into VX, whatever the stream, and moves it. -/
theorem execute_masked {w : Word} (hfamily : w.family = 0xC) (hbyte : w.byte = 0) (m : Machine)
    (random : Generator) :
    Outcome.ChangedBy (.rerolled random.next) (m.execute w)
      ((m.changed (.rerolled random)).execute w) := by
  have hdecode := Instruction.decode_random hfamily
  have hzero : ∀ byte : UInt8, byte &&& w.byte = 0 := fun byte => by
    rw [hbyte]
    exact UInt8.and_zero
  rw [execute_of_decode hdecode rfl, execute_of_decode hdecode rfl]
  refine ⟨rfl, ?_⟩
  simp only [performed, Instruction.work, hzero]
  rfl

/-- A machine whose random stream is replaced answers a call as before, if no word is executed
    that keeps something of a random byte. -/
theorem call_changed_rerolled {m : Machine} {call : HostCall} (hdrives : call.Drives)
    (h : ∀ w, m.executed? call = some w → ¬ w.UsesRandom) (random : Generator) :
    ∃ after, Outcome.ChangedBy (.rerolled after) (m.call call)
      ((m.changed (.rerolled random)).call call) := by
  -- a draw moves the stream, so that the machines differ by another change after it
  by_cases hdraw : ∃ w, m.executed? call = some w ∧ w.family = 0xC
  · obtain ⟨w, hw, hfamily⟩ := hdraw
    have hbyte : w.byte = 0 := by
      by_contra hne
      exact h w hw ⟨hfamily, hne⟩
    have hattempted := (attempted_of_executed hw).1
    have hattempted' := (m.attempted?_changed (.rerolled random) call).trans hattempted
    rw [call_of_attempted hattempted, call_of_attempted hattempted']
    exact ⟨random.next, execute_masked hfamily hbyte m random⟩
  · have hignores : ∀ w, m.executed? call = some w →
        (Instruction.decode w).Ignores (.rerolled random) m := fun w hw =>
      Instruction.ignores_rerolled (Instruction.decode_says w) (fun hC => hdraw ⟨w, hw, hC⟩) ..
    exact ⟨random, call_changed hdrives hignores⟩

/-- Whether two machines are the same but for their random streams. -/
def SameButRandom (a b : Machine) : Prop :=
  b = { a with random := b.random }

/-- Machines that are the same but for their random streams answer a call alike, if the first
    does not execute a word that keeps something of a random byte. -/
theorem call_rerolled {a b : Machine} {call : HostCall} (hab : a.SameButRandom b)
    (hdrives : call.Drives) (h : ∀ w, a.executed? call = some w → ¬ w.UsesRandom) :
    AnswerAlike SameButRandom a b call := by
  have hb : a.changed (.rerolled b.random) = b := hab.symm
  obtain ⟨after, hresult, hmachine⟩ := call_changed_rerolled hdrives h b.random
  have hreport : (a.changed (.rerolled b.random)).report call = a.report call :=
    report_changed hresult
  have hexecuted := executed?_changed hresult
  rw [hb] at hmachine hreport hexecuted
  refine ⟨hreport, hexecuted, ?_⟩
  rw [SameButRandom, hmachine]
  rfl

end Machine

/-! ## Runs of a file -/

namespace Headless

variable {files : FileSystem} {config : Config} {path : String} {limit : Nat}

/-- Whatever the seed, the machine that is prepared is the same but for its random stream. -/
theorem prepare_sameButRandom (seed : Option UInt64) (entropy entropy' : Generator)
    (h : refusal? files config path limit = none) :
    (prepare files entropy config path).machine.SameButRandom
      (prepare files entropy' { config with seed } path).machine := by
  obtain ⟨-, hspeed, program, hfile, hsize⟩ := exists_program_of_accepted h
  have hspeed' : { config with seed }.speed ≠ 0 := hspeed
  rw [prepare_of_accepted entropy hspeed hfile hsize,
    prepare_of_accepted entropy' hspeed' hfile hsize]
  rfl

/-- A run that executes no word that keeps something of a random byte comes to the same with
    another seed or with none. -/
theorem run_rerolled (seed : Option UInt64) (entropy entropy' : Generator)
    (h : ∀ w ∈ executedWords files entropy config path limit, ¬ w.UsesRandom) :
    let first := run files entropy config path limit
    let second := run files entropy' { config with seed } path limit
    second.result = first.result ∧ first.machine.SameButRandom second.machine := by
  intro first second
  -- the checks before a run do not look at the seed, and neither does the period
  have hrefusal : refusal? files { config with seed } path limit =
      refusal? files config path limit := rfl
  cases haccepted : refusal? files config path limit with
  | some error =>
      simp only [first, second, (run_of_refused entropy haccepted).1,
        (run_of_refused entropy' (hrefusal.trans haccepted)).1]
      exact ⟨rfl, rfl⟩
  | none =>
      obtain ⟨hresult, hmachine, hcalls⟩ := run_of_accepted entropy haccepted
      obtain ⟨hresult', hmachine', -⟩ := run_of_accepted entropy' (hrefusal.trans haccepted)
      rw [executedWords, hcalls] at h
      have hstart := prepare_sameButRandom seed entropy entropy' haccepted
      have hdrives : ∀ call ∈ HostCall.ofSteps config.period 0 limit, call.Drives :=
        fun _ hcall => (HostCall.steps_of_mem_ofSteps hcall).drives
      have hrun := Machine.callAll_alike
        (fun _ _ hab call hcall => Machine.call_rerolled hab (hdrives call hcall)) hstart h
      simp only [first, second, hresult, hresult', hmachine, hmachine']
      exact hrun

/-- Take two machines that are the same but for their random streams, and a run of cycles,
    ticks, key events and skips during which the first executes no word CXNN but with a mask
    of zero. Then each call tells its host the same at both machines, and they are left the
    same but for their streams. So a run of a file that executes no other word CXNN comes to
    the same with any seed and with none. -/
theorem random_stream_matters_for_kept_bytes :
    (∀ (a b : Machine) (calls : List HostCall), a.SameButRandom b →
      (∀ call ∈ calls, call.Drives) → (∀ w ∈ a.executedWords calls, ¬ w.UsesRandom) →
      b.reports calls = a.reports calls ∧
      (a.afterCalls calls).SameButRandom (b.afterCalls calls)) ∧
    ∀ (files : FileSystem) (config : Config) (path : String) (limit : Nat)
      (seed : Option UInt64) (entropy entropy' : Generator),
      (∀ w ∈ executedWords files entropy config path limit, ¬ w.UsesRandom) →
      let first := run files entropy config path limit
      let second := run files entropy' { config with seed } path limit
      second.result = first.result ∧ first.machine.SameButRandom second.machine := by
  refine ⟨?_, ?_⟩
  · intro a b calls hab hdrives hwords
    obtain ⟨hreports, -, hafter⟩ := Machine.run_alike
      (fun _ _ hab call hcall => Machine.call_rerolled hab (hdrives call hcall)) hab hwords
    exact ⟨hreports, hafter⟩
  · intro files config path limit seed entropy entropy' hwords
    exact run_rerolled seed entropy entropy' hwords

/-- A machine that does nothing but draw random bytes and keep nothing of them. -/
def maskingV3 : Machine :=
  { Machine.initial (.ofSeed 7) with memory := .filled 0xC3 0x00 }

theorem executedWords_maskingV3 :
    maskingV3.executedWords [.setKey 16 true, .cycle, .tick] = [0xC300] := by
  have hmemory : maskingV3.memory = .filled 0xC3 0x00 := rfl
  have hfetch := Machine.fetch_filled hmemory (by decide) (by decide)
  have hexecuted : maskingV3.executed? .cycle = some 0xC300 :=
    Machine.executed?_cycle_of_fetch rfl hfetch rfl
  have hkey : (maskingV3.call (.setKey 16 true)).machine = maskingV3 := rfl
  simp [Machine.executedWords, hkey, hexecuted]

/-- A program that keeps nothing of a random byte and then returns, although nothing was
    called. -/
def masksAndReturns : List UInt8 := [0xC3, 0x00, 0x00, 0xEE]

theorem executedWords_masksAndReturns :
    executedWords (fun _ => .ok masksAndReturns) (.ofSeed 7) .standard "rom" 2 = [0xC300] := by
  let start := ready .standard "rom" masksAndReturns (.ofSeed 7)
  have hstart : prepare (fun _ => .ok masksAndReturns) (.ofSeed 7) .standard "rom" =
      ⟨.ok (), start, [.programLoaded 4, .programReady "rom"]⟩ :=
    prepare_of_accepted _ (by decide) rfl (by decide)
  have hfirst : start.fetch = .ok 0xC300 :=
    Machine.fetch_program 0 rfl rfl (by decide) (by decide) (by decide)
  have hdrawn : start.call .cycle = start.execute 0xC300 := Machine.cycle_of_fetch rfl hfirst
  have hdrawn_ok : (start.call .cycle).result = .ok () := by rw [hdrawn]; rfl
  have hdraws : start.executed? .cycle = some 0xC300 :=
    Machine.executed?_cycle_of_fetch rfl hfirst rfl
  have hsecond : (start.execute 0xC300).machine.fetch = .ok 0x00EE :=
    Machine.fetch_program 2 rfl rfl (by decide) (by decide) (by decide)
  have hfault : ((start.execute 0xC300).machine.call .cycle).result =
      .error (.fault 0x00EE 0x202 .stackUnderflow) := by
    rw [Machine.call_cycle, Machine.cycle_of_fetch rfl hsecond]
    rfl
  have haccepted :
      refusal? (fun _ => .ok masksAndReturns) .standard "rom" 2 = none := by decide
  have hsteps : HostCall.ofSteps Config.standard.period 0 2 = [.cycle, .cycle] := rfl
  have hcalls := (run_of_accepted (.ofSeed 7) haccepted).2.2
  rw [hstart, hsteps, Machine.untilFailure_cons_of_ok _ hdrawn_ok, hdrawn,
    Machine.untilFailure_cons_of_error _ hfault] at hcalls
  simp [executedWords, hcalls, hstart, Machine.executedWords, hdraws, hdrawn,
    Machine.executed?_of_error hfault]

/-- Other streams, and a seed where there was none, change nothing if the mask is zero, also not
    the fault with which a run of the program ends. -/
theorem random_stream_matters_for_kept_bytes_maskingV3 :
    let other : Machine := { maskingV3 with random := .ofSeed 8 }
    let calls : List HostCall := [.setKey 16 true, .cycle, .tick]
    let first := run (fun _ => .ok masksAndReturns) (.ofSeed 7) .standard "rom" 2
    let second :=
      run (fun _ => .ok masksAndReturns) (.ofSeed 8) { Config.standard with seed := some 9 } "rom" 2
    (maskingV3.executedWords calls = [0xC300] ∧
      executedWords (fun _ => .ok masksAndReturns) (.ofSeed 7) .standard "rom" 2 = [0xC300]) ∧
    (other.reports calls = maskingV3.reports calls ∧
      (maskingV3.afterCalls calls).SameButRandom (other.afterCalls calls)) ∧
    second.result = first.result ∧ first.machine.SameButRandom second.machine := by
  intro other calls first second
  obtain ⟨hmachines, hruns⟩ := random_stream_matters_for_kept_bytes
  have hdrives : ∀ call ∈ calls, call.Drives := by
    simp [calls, HostCall.Drives.tick, HostCall.Drives.cycle, HostCall.Drives.setKey]
  have hmask : ∀ w ∈ [(0xC300 : Word)], ¬ w.UsesRandom := by
    rintro w hw ⟨-, hbyte⟩
    rw [List.mem_singleton.mp hw] at hbyte
    exact hbyte rfl
  have hdrawn : ∀ w ∈ maskingV3.executedWords calls, ¬ w.UsesRandom := by
    rw [executedWords_maskingV3]
    exact hmask
  have hrun : ∀ w ∈ executedWords (fun _ => .ok masksAndReturns) (.ofSeed 7) .standard "rom" 2,
      ¬ w.UsesRandom := by
    rw [executedWords_masksAndReturns]
    exact hmask
  exact ⟨⟨executedWords_maskingV3, executedWords_masksAndReturns⟩,
    hmachines maskingV3 other calls rfl hdrives hdrawn,
    hruns (fun _ => .ok masksAndReturns) .standard "rom" 2 (some 9) (.ofSeed 7) (.ofSeed 8) hrun⟩

end Headless

end Chip8
