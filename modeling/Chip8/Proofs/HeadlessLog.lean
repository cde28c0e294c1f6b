/-
  Chip8.Proofs.HeadlessLog

  What a run without a window logs. The execution of a word logs a trace record, and a warning
  after it if the word is passed over (`Machine.execute_log`), so that the log of a run is the
  lines of its cycles, one after the other (`Machine.callAll_ofSteps_log`). A run that fails says
  so at the end, with the number of cycles before the one that failed
  (`Machine.exists_of_runFrom_error`). The trace records number the words that were executed
  (`Machine.callAll_traces`), and since no key is ever pressed, these are what the counter of
  the machine counts.
-/
import Chip8.Proofs.HeadlessErrors
import Chip8.Proofs.HeadlessWait

namespace Chip8

namespace Record

/-- Number of trace records in a log. -/
def traces (log : List Record) : Nat :=
  log.countP fun r => r.level = .trace

theorem traces_append (first second : List Record) :
    traces (first ++ second) = traces first + traces second :=
  List.countP_append

/-! ## Lines -/

theorem line_executing (pc word : Word) (dialect : Dialect) :
    (executing pc word dialect).line = "TRACE: 0x" ++ Text.hex 3 pc.toNat ++ ": "
      ++ Text.hex 4 word.toNat ++ "  " ++ (Instruction.decode word).disassemble dialect := by
  show "TRACE: " ++ ("0x" ++ Text.hex 3 pc.toNat ++ ": " ++ Text.hex 4 word.toNat ++ "  "
    ++ (Instruction.decode word).disassemble dialect) = _
  have hlevel : "TRACE: 0x" = "TRACE: " ++ "0x" := by decide
  simp only [hlevel, String.append_assoc]

theorem line_skipping (word pc : Word) :
    (skipping word pc).line = "WARN: skipping unknown opcode 0x" ++ Text.hex 4 word.toNat
      ++ " at 0x" ++ Text.hex 3 pc.toNat := by
  show "WARN: " ++ ("skipping unknown opcode 0x" ++ Text.hex 4 word.toNat ++ " at 0x"
    ++ Text.hex 3 pc.toNat) = _
  have hlevel : "WARN: skipping unknown opcode 0x" = "WARN: " ++ "skipping unknown opcode 0x" := by
    decide
  simp only [hlevel, String.append_assoc]

theorem line_programLoaded (size : Nat) :
    (programLoaded size).line =
      "DEBUG: loaded " ++ toString size ++ " program bytes at 0x200" := by
  show "DEBUG: " ++ ("loaded " ++ toString size ++ " program bytes at 0x200") = _
  have hlevel : "DEBUG: loaded " = "DEBUG: " ++ "loaded " := by decide
  simp only [hlevel, String.append_assoc]

theorem line_programReady (path : String) :
    (programReady path).line = "INFO: loaded " ++ path := by
  show "INFO: " ++ ("loaded " ++ path) = _
  have hlevel : "INFO: loaded " = "INFO: " ++ "loaded " := by decide
  simp only [hlevel, String.append_assoc]

theorem line_halting (cycles : Nat) (error : Error) :
    (halting cycles error).line =
      "ERROR: halting after " ++ toString cycles ++ " cycles: " ++ error.message := by
  show "ERROR: " ++ ("halting after " ++ toString cycles ++ " cycles: " ++ error.message) = _
  have hlevel : "ERROR: halting after " = "ERROR: " ++ "halting after " := by decide
  simp only [hlevel, String.append_assoc]

end Record

namespace Machine

open HostCall (ofStep ofSteps ofSteps_add ofSteps_one ofSteps_succ)

variable {m : Machine} {period count : Nat}

/-! ## The log of a cycle -/

/-- The execution of a word logs that it starts, and then a warning if the word is no
    instruction and is passed over. -/
theorem execute_log (m : Machine) (word : Word) :
    (m.execute word).log = m.startRecord word ::
      if Instruction.decode word = .unknown word ∧ m.unknownWords = .skip then
        [.skipping word m.registers.pc]
      else [] := by
  cases hcause : (Instruction.decode word).obstacle? m with
  | none =>
      have hknown : Instruction.decode word ≠ .unknown word := by
        intro hunknown
        rw [(Instruction.obstacle?_eq_unknownWord_iff _ m word).mpr hunknown] at hcause
        cases hcause
      rw [execute_of_no_obstacle hcause, if_neg fun h => hknown h.1]
  | some cause =>
      have hunknown : Instruction.decode word = .unknown word ↔ cause = .unknownWord word := by
        rw [← Instruction.obstacle?_eq_unknownWord_iff _ m word, hcause, Option.some.injEq]
      rw [execute_of_obstacle hcause]
      simp only [hunknown]
      split
      · rfl
      · rfl

theorem execute_traces (m : Machine) (word : Word) :
    Record.traces (m.execute word).log = 1 := by
  rw [execute_log]
  split
  · rfl
  · rfl

/-! ## Machines without a press -/

/-- A cycle of a machine without a press does nothing, has nothing to execute, or executes a
    word. -/
theorem Unpressed.cycle_cases (hm : m.Unpressed) :
    (∃ register, m.mode = .awaitingKey register none ∧ m.cycle = .done () m) ∨
    (m.mode = .running ∧ ∃ cause, m.fetch = .error cause ∧
      m.cycle = .failed (.fault 0 m.registers.pc cause) m) ∨
    (m.mode = .running ∧ ∃ word, m.fetch = .ok word ∧ m.cycle = m.execute word) := by
  cases hmode : m.mode with
  | running =>
      cases hfetch : m.fetch with
      | error cause => exact Or.inr (Or.inl ⟨rfl, cause, rfl, cycle_of_fetch_error hmode hfetch⟩)
      | ok word => exact Or.inr (Or.inr ⟨rfl, word, rfl, cycle_of_fetch hmode hfetch⟩)
  | awaitingKey register pressed =>
      cases pressed with
      | none => exact Or.inl ⟨register, rfl, cycle_of_no_press hmode⟩
      | some key => exact absurd hmode (hm register key)

/-- A step of a machine without a press that succeeds logs a trace record if it executes a
    word. -/
theorem step_traces {call : HostCall} (hcall : call.Steps) (hm : m.Unpressed)
    (hok : (m.call call).result = .ok ()) :
    Record.traces (m.call call).log = (m.executed? call).toList.length := by
  cases hcall with
  | tick => rfl
  | cycle =>
      rw [call_cycle] at hok ⊢
      rcases hm.cycle_cases with
        ⟨register, hmode, hdone⟩ | ⟨-, cause, -, hfailed⟩ | ⟨hmode, word, hfetch, hexecute⟩
      · rw [hdone, executed?_of_waiting hmode]
        rfl
      · rw [hfailed] at hok
        cases hok
      · rw [hexecute] at hok ⊢
        rw [executed?_cycle_of_fetch hmode hfetch hok, execute_traces]
        rfl

theorem callAll_traces {calls : List HostCall} (hcalls : ∀ call ∈ calls, call.Steps)
    (hm : m.Unpressed) (hok : (m.callAll calls).result = .ok ()) :
    Record.traces (m.callAll calls).log = (m.executedWords calls).length := by
  induction calls generalizing m with
  | nil => rfl
  | cons call calls ih =>
      obtain ⟨hcall, hothers⟩ := List.forall_mem_cons.mp hcalls
      cases hfirst : (m.call call).result with
      | error error =>
          rw [callAll_cons_of_error calls hfirst, hfirst] at hok
          cases hok
      | ok done =>
          rw [callAll_cons_of_ok calls hfirst] at hok ⊢
          rw [Record.traces_append, step_traces hcall hm hfirst,
            ih hothers (step_unpressed hcall hm) hok, executedWords, List.length_append]

/-- A cycle of a well-formed machine fails before it logs the word if it stands at the last byte
    of memory, and after that otherwise. -/
theorem cycle_traces_of_error (hm : m.WellFormed) {error : Error}
    (h : m.cycle.result = .error error) :
    ∃ word pc cause, error = .fault word pc cause ∧
      Record.traces m.cycle.log = if pc = 0xFFF then 0 else 1 := by
  rcases (m.cycle_result_error_iff error).mp h with
    ⟨register, key, hmode, hregister, -⟩ | ⟨hmode, hfit, rfl⟩ | ⟨hmode, hfit, hexec⟩
  · have hlt := hm.mode.register_lt register _ hmode
    omega
  · have hlast : m.registers.pc = 0xFFF := by
      have hpc := hm.registers.pc_lt
      apply UInt16.toNat_inj.mp
      show m.registers.pc.toNat = 4095
      omega
    rw [cycle_of_fetch_error hmode (fetch_of_lt hfit)]
    exact ⟨_, _, _, rfl, (if_pos hlast).symm⟩
  · have hnot : m.registers.pc ≠ 0xFFF := by
      intro hlast
      rw [hlast] at hfit
      exact absurd hfit (by decide)
    obtain ⟨cause, -, -, rfl⟩ := (m.execute_result_error_iff _ error).mp hexec
    rw [cycle_of_fetch hmode (fetch_of_le hfit)]
    exact ⟨_, _, cause, rfl, (execute_traces ..).trans (if_neg hnot).symm⟩

/-! ## The log of steps -/

/-- A tick logs nothing. -/
theorem callAll_ofStep_log (m : Machine) (period number : Nat) :
    (m.callAll (ofStep period number)).log = m.cycle.log := by
  rw [← m.call_cycle]
  cases hcycle : (m.call .cycle).result with
  | error error => rw [ofStep, callAll_cons_of_error _ hcycle]
  | ok done =>
      rw [ofStep, callAll_cons_of_ok _ hcycle]
      split
      · exact List.append_nil _
      · exact List.append_nil _

/-- Steps that succeed log what their cycles log. -/
theorem callAll_ofSteps_log (hok : (m.callAll (ofSteps period 0 count)).result = .ok ()) :
    (m.callAll (ofSteps period 0 count)).log =
      (List.range count).flatMap fun number =>
        (m.afterCalls (ofSteps period 0 number)).cycle.log := by
  -- the last step is taken off, since what comes before a step is counted from the first one
  induction count with
  | zero => rfl
  | succ count ih =>
      rw [ofSteps_add, ofSteps_one, callAll_append_ok_iff] at hok
      have hearlier := ih hok.1
      rw [ofSteps_add, ofSteps_one, callAll_append, Outcome.andThen_of_ok hok.1,
        List.range_succ, List.flatMap_append, ← hearlier, List.flatMap_singleton]
      show _ ++ _ = _
      rw [callAll_ofStep_log, callAll_machine_of_ok hok.1]

/-- In steps that succeed every cycle does. -/
theorem cycle_ok_of_lt (hok : (m.callAll (ofSteps period 0 count)).result = .ok ())
    {number : Nat} (h : number < count) :
    (m.afterCalls (ofSteps period 0 number)).cycle.result = .ok () := by
  obtain ⟨rest, hsteps, -, -⟩ := HostCall.ofSteps_of_lt period h
  rw [hsteps, callAll_append_ok_iff] at hok
  rw [← call_cycle]
  cases hcycle : ((m.afterCalls (ofSteps period 0 number)).call .cycle).result with
  | ok done => rfl
  | error error =>
      rw [callAll_cons_of_error rest hcycle, hcycle] at hok
      cases hok.2

/-- Steps end with the first cycle that fails. -/
theorem callAll_ofSteps_of_error {number : Nat} (h : number < count)
    (hok : (m.callAll (ofSteps period 0 number)).result = .ok ()) {error : Error}
    (herror : (m.afterCalls (ofSteps period 0 number)).cycle.result = .error error) :
    (m.callAll (ofSteps period 0 count)).log =
      (m.callAll (ofSteps period 0 number)).log ++
        (m.afterCalls (ofSteps period 0 number)).cycle.log := by
  obtain ⟨rest, hsteps, -, -⟩ := HostCall.ofSteps_of_lt period h
  rw [← call_cycle] at herror ⊢
  rw [hsteps, callAll_append, Outcome.andThen_of_ok hok, callAll_machine_of_ok hok,
    callAll_cons_of_error rest herror]

/-- Before a cycle that fails every step has executed one word. -/
theorem executed_before_error (hmode : m.mode = .running)
    (hok : (m.callAll (ofSteps period 0 count)).result = .ok ()) {error : Error}
    (herror : (m.afterCalls (ofSteps period 0 count)).cycle.result = .error error) :
    (m.executedWords (ofSteps period 0 count)).length = count := by
  rcases m.exists_firstWait period count with hnone | ⟨before, w, hlt, hfirst⟩
  · exact (running_after_steps hmode hok hnone).2
  · -- a machine that waits does not fail
    have hwaiting := (hfirst.after_steps hmode hlt hok).1
    rw [cycle_of_no_press hwaiting] at herror
    cases herror

/-- A run that fails has completed the cycles before the one that failed. -/
theorem exists_of_runFrom_error {completed limit : Nat} {log : Array Record} {error : Error}
    (h : (m.runFrom period completed log limit).error? = some error) :
    ∃ number < limit, (m.runFrom period completed log limit).completed = completed + number ∧
      (m.callAll (ofSteps period completed number)).result = .ok () ∧
      (m.afterCalls (ofSteps period completed number)).cycle.result = .error error := by
  induction limit generalizing m completed log with
  | zero => cases h
  | succ limit ih =>
      simp only [runFrom] at h ⊢
      split at h
      · next reason after records hcycle =>
        cases h
        exact ⟨0, Nat.succ_pos limit, rfl, rfl, congrArg Outcome.result hcycle⟩
      · next after records hcycle =>
        obtain ⟨number, hlt, hcompleted, hok, herror⟩ := ih h
        have hstep : m.afterCalls (ofStep period (completed + 1)) =
            if (completed + 1) % period = 0 then after.tick.machine else after := by
          rw [afterCalls_ofStep, hcycle]
          simp only [Nat.dvd_iff_mod_eq_zero]
        have hfirst : (m.callAll (ofStep period (completed + 1))).result = .ok () := by
          rw [callAll_ofStep, hcycle]
        refine ⟨number + 1, Nat.succ_lt_succ hlt, ?_, ?_, ?_⟩
        · rw [hcompleted]
          omega
        · rw [ofSteps_succ, callAll_append_ok_iff, hstep]
          exact ⟨hfirst, hok⟩
        · rw [ofSteps_succ, afterCalls_append, hstep]
          exact herror

/-- A run that fails logs what its steps log, and then the error with the number of cycles
    before it. -/
theorem run_log_of_error {limit : Nat} {error : Error}
    (h : (m.run period limit).error? = some error) :
    ∃ number < limit, (m.run period limit).completed = number ∧
      (m.callAll (ofSteps period 0 number)).result = .ok () ∧
      (m.afterCalls (ofSteps period 0 number)).cycle.result = .error error ∧
      (m.run period limit).log.toList =
        (List.range (number + 1)).flatMap fun earlier =>
          (m.afterCalls (ofSteps period 0 earlier)).cycle.log := by
  obtain ⟨number, hlt, hcompleted, hok, herror⟩ := exists_of_runFrom_error h
  have hlog : (m.run period limit).log.toList = (m.callAll (ofSteps period 0 limit)).log :=
    congrArg Outcome.log (m.run_outcome period limit)
  refine ⟨number, hlt, hcompleted.trans (Nat.zero_add number), hok, herror, ?_⟩
  rw [hlog, callAll_ofSteps_of_error hlt hok herror, callAll_ofSteps_log hok, List.range_succ,
    List.flatMap_append, List.flatMap_singleton]

end Machine

namespace Headless

open RandomStream (Generator)

/-! ## The lines of a cycle -/

/-- Whether a machine is in a run as configured: set up for it, and without a press. -/
structure Config.Runs (config : Config) (m : Machine) : Prop where
  wellFormed : m.WellFormed
  unpressed : m.Unpressed
  dialect : m.dialect = config.dialect
  unknownWords : m.unknownWords = config.unknownWords

variable {config : Config} {m : Machine}

theorem ready_runs (config : Config) (path : String) (program : List UInt8)
    (random : Generator) : config.Runs (ready config path program random) :=
  ⟨ready_wellFormed .., Machine.unpressed_of_running rfl, rfl, rfl⟩

theorem Config.Runs.step (hm : config.Runs m) {call : HostCall} (hcall : call.Steps) :
    config.Runs (m.call call).machine := by
  have hside := Machine.step_hostSide hcall (m := m)
  simp only [Machine.hostSide, Prod.mk.injEq] at hside
  exact ⟨Machine.call_wellFormed hm.wellFormed call, Machine.step_unpressed hcall hm.unpressed,
    hside.2.1.trans hm.dialect, hside.2.2.1.trans hm.unknownWords⟩

theorem Config.Runs.steps (hm : config.Runs m) (count : Nat) :
    config.Runs (m.afterCalls (HostCall.ofSteps config.period 0 count)) := by
  apply Machine.afterCalls_induction _ hm
  intro n hn call hcall
  exact hn.step (HostCall.steps_of_mem_ofSteps hcall)

/-- The lines that the execution of a word logs in a run as configured. -/
def Config.wordLines (config : Config) (pc word : Word) : List String :=
  let executing := "TRACE: 0x" ++ Text.hex 3 pc.toNat ++ ": " ++ Text.hex 4 word.toNat
    ++ "  " ++ (Instruction.decode word).disassemble config.dialect
  let skipping := "WARN: skipping unknown opcode 0x" ++ Text.hex 4 word.toNat
    ++ " at 0x" ++ Text.hex 3 pc.toNat
  if Instruction.decode word = .unknown word ∧ config.unknownWords = .skip then
    [executing, skipping]
  else [executing]

/-- The lines that the next cycle of a machine logs in a run as configured. A cycle that has no
    word to execute logs nothing. -/
def Config.cycleLines (config : Config) (m : Machine) : List String :=
  match m.mode, m.fetch with
  | .running, .ok word => config.wordLines m.registers.pc word
  | _, _ => []

theorem Config.cycleLines_of_fetch {word : Word} (hmode : m.mode = .running)
    (hfetch : m.fetch = .ok word) :
    config.cycleLines m = config.wordLines m.registers.pc word := by
  rw [cycleLines, hmode, hfetch]

theorem Config.Runs.cycle_lines (hm : config.Runs m) :
    m.cycle.log.map Record.line = config.cycleLines m := by
  rcases hm.unpressed.cycle_cases with
    ⟨register, hmode, hdone⟩ | ⟨hmode, cause, hfetch, hfailed⟩ | ⟨hmode, word, hfetch, hexecute⟩
  · rw [hdone, cycleLines, hmode]
    rfl
  · rw [hfailed, cycleLines, hmode, hfetch]
    rfl
  · rw [hexecute, Machine.execute_log, hm.unknownWords, Machine.startRecord, hm.dialect,
      cycleLines_of_fetch hmode hfetch, wordLines]
    simp only [← Record.line_executing, ← Record.line_skipping]
    split
    · rfl
    · rfl

/-- The log of some steps is the lines of their cycles. -/
theorem Config.Runs.steps_lines (hm : config.Runs m) (count : Nat) :
    let before := fun number => m.afterCalls (HostCall.ofSteps config.period 0 number)
    ((List.range count).flatMap fun number => (before number).cycle.log).map Record.line =
      (List.range count).flatMap fun number => config.cycleLines (before number) := by
  intro before
  rw [List.map_flatMap]
  congr 1
  funext number
  exact (hm.steps number).cycle_lines

/-! ## The log of a run -/

theorem finish_of_no_error {limit : Nat} (h : (m.run config.period limit).error? = none) :
    finish config limit m = m.callAll (HostCall.ofSteps config.period 0 limit) := by
  rw [← m.run_outcome, finish, Run.outcome, h]

theorem finish_of_error {limit : Nat} {error : Error}
    (h : (m.run config.period limit).error? = some error) :
    let run := m.run config.period limit
    finish config limit m =
      ⟨.error error, run.machine, run.log.toList ++ [.halting run.completed error]⟩ := by
  simp only [finish, h, Array.toList_push]

/-- A machine that completes its cycles logs their lines, and one trace record for each word
    that it has executed and counted. -/
theorem finish_log_of_no_error (hm : config.Runs m) (hzero : m.counter = 0) {limit : Nat}
    (h : (m.run config.period limit).error? = none) :
    let before := fun number => m.afterCalls (HostCall.ofSteps config.period 0 number)
    let finished := finish config limit m
    finished.result = .ok () ∧ (∀ number < limit, (before number).cycle.result = .ok ()) ∧
      finished.log.map Record.line =
        ((List.range limit).flatMap fun number => config.cycleLines (before number)) ∧
      Record.traces finished.log ≤ limit ∧
      finished.machine.counter = .ofNat (Record.traces finished.log) := by
  intro before finished
  have hsteps : finished = m.callAll (HostCall.ofSteps config.period 0 limit) :=
    finish_of_no_error h
  have hok : (m.callAll (HostCall.ofSteps config.period 0 limit)).result = .ok () := by
    rw [← m.run_outcome, Run.outcome, h]
  rw [hsteps]
  have hcalls : ∀ call ∈ HostCall.ofSteps config.period 0 limit, call.Steps :=
    fun _ => HostCall.steps_of_mem_ofSteps
  have htraces := Machine.callAll_traces hcalls hm.unpressed hok
  refine ⟨hok, fun number hnumber => Machine.cycle_ok_of_lt hok hnumber, ?_, ?_, ?_⟩
  · rw [Machine.callAll_ofSteps_log hok]
    exact hm.steps_lines limit
  · rw [htraces]
    exact Machine.length_executedWords_le ..
  · rw [Machine.callAll_machine_of_ok hok, Machine.counter_afterCalls hcalls hm.unpressed,
      hzero, UInt64.zero_add, htraces]

/-- A machine that fails logs the lines of its cycles up to the one that failed, and then the
    error. -/
theorem finish_log_of_error (hm : config.Runs m) (hmode : m.mode = .running) {limit : Nat}
    {error : Error} (h : (m.run config.period limit).error? = some error) :
    let before := fun number => m.afterCalls (HostCall.ofSteps config.period 0 number)
    let finished := finish config limit m
    finished.result = .error error ∧
      ∃ completed < limit, (∀ number < completed, (before number).cycle.result = .ok ()) ∧
        (before completed).cycle.result = .error error ∧
        finished.log.map Record.line =
          ((List.range (completed + 1)).flatMap fun number =>
            config.cycleLines (before number)) ++
          ["ERROR: halting after " ++ toString completed ++ " cycles: " ++ error.message] ∧
        ∃ word pc cause, error = .fault word pc cause ∧
          Record.traces finished.log = if pc = 0xFFF then completed else completed + 1 := by
  intro before finished
  obtain ⟨completed, hlt, hcompleted, hok, hfails, hlog⟩ := Machine.run_log_of_error h
  have hfinished : finished = ⟨.error error, (m.run config.period limit).machine,
      ((List.range (completed + 1)).flatMap fun number => (before number).cycle.log) ++
        [.halting completed error]⟩ := by
    rw [← hlog, ← hcompleted]
    exact finish_of_error h
  rw [hfinished]
  refine ⟨rfl, completed, hlt, fun number hnumber => Machine.cycle_ok_of_lt hok hnumber, hfails,
    ?_, ?_⟩
  · rw [List.map_append, hm.steps_lines, ← Record.line_halting]
    rfl
  · -- the cycles before the one that failed have logged one record each
    obtain ⟨word, pc, cause, hfault, htraces⟩ :=
      Machine.cycle_traces_of_error (hm.steps completed).wellFormed hfails
    have hearlier :=
      Machine.callAll_traces (fun _ => HostCall.steps_of_mem_ofSteps) hm.unpressed hok
    rw [Machine.callAll_ofSteps_log hok, Machine.executed_before_error hmode hok hfails]
      at hearlier
    refine ⟨word, pc, cause, hfault, ?_⟩
    rw [List.range_succ, List.flatMap_append, List.flatMap_singleton, Record.traces_append,
      Record.traces_append, htraces, hearlier]
    show completed + (if pc = 0xFFF then 0 else 1) + 0 = _
    split
    · rfl
    · rfl

variable {files : FileSystem} {path : String} {limit : Nat}

theorem accepted_of_prepared {entropy : Generator} (hlimit : limit ≠ 0)
    (h : (prepare files entropy config path).result = .ok ()) :
    refusal? files config path limit = none := by
  cases hrefused : refusal? files config path limit with
  | none => rfl
  | some error =>
      rw [prepare_of_refused entropy hlimit hrefused] at h
      cases h

theorem run_of_prepared {entropy : Generator} (hlimit : limit ≠ 0)
    (h : (prepare files entropy config path).result = .ok ()) :
    let prepared := prepare files entropy config path
    let finished := finish config limit prepared.machine
    run files entropy config path limit =
      ⟨finished.result, finished.machine, prepared.log ++ finished.log⟩ := by
  rw [run, if_neg hlimit, Outcome.andThen_of_ok h]

/-- What a run logs that gets past the loading: the size of the program, its path, and then the
    lines of its cycles, for each of which `before` is the machine that it starts from. A run
    that fails has one more line at its end, with the number of cycles that succeeded and the
    message of the error. A run that does not has logged as many trace records as its machine has
    counted cycles, modulo 2^64 where the limit does not fit into the counter; a run that fails,
    one for each cycle that succeeded and one for the last, unless that one stands at the last
    byte of memory and has no word. -/
theorem run_log {entropy : Generator} (hlimit : 0 < limit)
    (hready : (prepare files entropy config path).result = .ok ()) :
    let start := (prepare files entropy config path).machine
    let before := fun number => start.afterCalls (HostCall.ofSteps config.period 0 number)
    let outcome := run files entropy config path limit
    let lines := outcome.log.map Record.line
    ∃ program, files path = .ok program ∧
      let header :=
        ["DEBUG: loaded " ++ toString program.length ++ " program bytes at 0x200",
          "INFO: loaded " ++ path]
      match outcome.result with
      | .ok _ =>
        (∀ number < limit, (before number).cycle.result = .ok ()) ∧
        lines = header ++
          ((List.range limit).flatMap fun number => config.cycleLines (before number)) ∧
        outcome.machine.counter = .ofNat (Record.traces outcome.log) ∧
        (limit < UInt64.size → Record.traces outcome.log = outcome.machine.cycles)
      | .error error =>
        ∃ completed < limit,
          (∀ number < completed, (before number).cycle.result = .ok ()) ∧
          (before completed).cycle.result = .error error ∧
          lines = header ++
            ((List.range (completed + 1)).flatMap fun number =>
              config.cycleLines (before number)) ++
            ["ERROR: halting after " ++ toString completed ++ " cycles: " ++ error.message] ∧
          ∃ word pc cause, error = .fault word pc cause ∧
            Record.traces outcome.log = if pc = 0xFFF then completed else completed + 1 := by
  intro start before outcome lines
  have hlimit' : limit ≠ 0 := Nat.ne_of_gt hlimit
  obtain ⟨-, hspeed, program, hfile, hsize⟩ :=
    exists_program_of_accepted (accepted_of_prepared hlimit' hready)
  have hprepare := prepare_of_accepted entropy hspeed hfile hsize
  have hstart : start = ready config path program (config.stream entropy) :=
    congrArg Outcome.machine hprepare
  have hheader : (prepare files entropy config path).log =
      [.programLoaded program.length, .programReady path] := congrArg Outcome.log hprepare
  have hmode : start.mode = .running := congrArg Machine.mode hstart
  have hzero : start.counter = 0 := congrArg Machine.counter hstart
  have hruns : config.Runs start := hstart ▸ ready_runs ..
  have hrun : outcome = ⟨(finish config limit start).result, (finish config limit start).machine,
      [.programLoaded program.length, .programReady path] ++ (finish config limit start).log⟩ := by
    rw [← hheader]
    exact run_of_prepared hlimit' hready
  have hresult : outcome.result = (finish config limit start).result := by
    rw [hrun]
  have hlines : lines = ["DEBUG: loaded " ++ toString program.length ++ " program bytes at 0x200",
      "INFO: loaded " ++ path] ++ (finish config limit start).log.map Record.line := by
    rw [← Record.line_programLoaded, ← Record.line_programReady]
    show outcome.log.map _ = _
    rw [hrun]
    rfl
  have htraces : Record.traces outcome.log = Record.traces (finish config limit start).log := by
    rw [hrun, Record.traces_append]
    exact Nat.zero_add _
  refine ⟨program, hfile, ?_⟩
  intro header
  rw [hresult, hlines, htraces]
  cases herror : (start.run config.period limit).error? with
  | none =>
      obtain ⟨hok, hcompleted, hsteps, hle, hcounted⟩ := finish_log_of_no_error hruns hzero herror
      have hmachine : outcome.machine = (finish config limit start).machine := by
        rw [hrun]
      rw [hok, hmachine]
      refine ⟨hcompleted, congrArg _ hsteps, hcounted, ?_⟩
      intro hfits
      rw [Machine.cycles, hcounted]
      exact (UInt64.toNat_ofNat_of_lt' (Nat.lt_of_le_of_lt hle hfits)).symm
  | some error =>
      obtain ⟨hfails, completed, hlt, hearlier, hcycle, hsteps, hcounted⟩ :=
        finish_log_of_error hruns hmode herror
      rw [hfails]
      refine ⟨completed, hlt, hearlier, hcycle, ?_, hcounted⟩
      rw [hsteps, List.append_assoc]

/-! ## A run that passes over a word and fails -/

/-- A program whose first word is no instruction, and that then returns although nothing was
    called. -/
def strayWordAndReturn : List UInt8 := [0xFF, 0xFF, 0x00, 0xEE]

/-- The classic dialect, but passing over unknown words. -/
def lenient : Config := { Config.standard with unknownWords := .skip, seed := some 3 }

/-- The machine of that program at its start. -/
def atStrayWord : Machine := ready lenient "rom" strayWordAndReturn (.ofSeed 3)

/-- The machine of that program after the first cycle. -/
def atReturn : Machine := (atStrayWord.advance 2).complete 0xFFFF

theorem fetch_strayWordAndReturn :
    atStrayWord.fetch = .ok 0xFFFF ∧ atReturn.fetch = .ok 0x00EE := by
  refine ⟨?_, ?_⟩
  · exact Machine.fetch_program 0 rfl rfl (by decide) (by decide) (by decide)
  · exact Machine.fetch_program 2 rfl rfl (by decide) (by decide) (by decide)

theorem calls_strayWordAndReturn :
    (∃ log, atStrayWord.call .cycle = ⟨.ok (), atReturn, log⟩) ∧
      (atReturn.call .cycle).result = .error (.fault 0x00EE 0x202 .stackUnderflow) := by
  obtain ⟨hfetch, hfetch'⟩ := fetch_strayWordAndReturn
  have hstray : (Instruction.decode 0xFFFF).obstacle? atStrayWord = some (.unknownWord 0xFFFF) :=
    rfl
  have hreturn : (Instruction.decode 0x00EE).obstacle? atReturn = some .stackUnderflow := rfl
  refine ⟨⟨[atStrayWord.startRecord 0xFFFF, .skipping 0xFFFF 0x200], ?_⟩, ?_⟩
  · rw [Machine.call_cycle, Machine.cycle_of_fetch rfl hfetch,
      Machine.execute_of_obstacle hstray, if_pos ⟨rfl, rfl⟩]
    rfl
  · rw [Machine.call_cycle, Machine.cycle_of_fetch rfl hfetch',
      Machine.execute_of_obstacle hreturn, if_neg (by decide)]
    rfl

theorem wordLines_strayWordAndReturn :
    lenient.wordLines 0x200 0xFFFF =
      ["TRACE: 0x200: ffff  DW 0xFFFF", "WARN: skipping unknown opcode 0xffff at 0x200"] ∧
    lenient.wordLines 0x202 0x00EE = ["TRACE: 0x202: 00ee  RET"] := by
  refine ⟨?_, ?_⟩
  · decide
  · decide

theorem prepare_strayWordAndReturn :
    prepare (fun _ => .ok strayWordAndReturn) (.ofSeed 0) lenient "rom" =
      ⟨.ok (), atStrayWord, [.programLoaded 4, .programReady "rom"]⟩ :=
  prepare_of_accepted _ (by decide) rfl (by decide)

theorem run_strayWordAndReturn :
    (run (fun _ => .ok strayWordAndReturn) (.ofSeed 0) lenient "rom" 5).returned =
      .error (.fault 0x00EE 0x202 .stackUnderflow) := by
  obtain ⟨⟨log, hfirst⟩, hsecond⟩ := calls_strayWordAndReturn
  have haccepted :
      refusal? (fun _ => .ok strayWordAndReturn) lenient "rom" 5 = none := by decide
  have hsteps : HostCall.ofSteps lenient.period 0 5 =
      [.cycle, .cycle, .cycle, .cycle, .cycle] := rfl
  rw [returned_of_accepted _ haccepted, prepare_strayWordAndReturn, hsteps,
    Machine.returned_callAll_of_ok hfirst]
  exact Machine.returned_callAll_of_error hsecond _

/-- The run logs the word that it passes over, the return, and its failure. -/
theorem run_log_strayWordAndReturn :
    let files : FileSystem := fun _ => .ok strayWordAndReturn
    let outcome := run files (.ofSeed 0) lenient "rom" 5
    (0 < 5 ∧ (prepare files (.ofSeed 0) lenient "rom").result = .ok ()) ∧
    outcome.result = .error (.fault 0x00EE 0x202 .stackUnderflow) ∧
    outcome.log.map Record.line =
      ["DEBUG: loaded 4 program bytes at 0x200", "INFO: loaded rom",
        "TRACE: 0x200: ffff  DW 0xFFFF", "WARN: skipping unknown opcode 0xffff at 0x200",
        "TRACE: 0x202: 00ee  RET",
        "ERROR: halting after 1 cycles: " ++
          "fault at pc 0x202 (opcode 0x00ee): return instruction with empty stack"] ∧
    Record.traces outcome.log = 2 := by
  intro files outcome
  obtain ⟨hfetch, hfetch'⟩ := fetch_strayWordAndReturn
  obtain ⟨⟨log, hfirst⟩, hsecond⟩ := calls_strayWordAndReturn
  have hprepare : prepare files (.ofSeed 0) lenient "rom" =
      ⟨.ok (), atStrayWord, [.programLoaded 4, .programReady "rom"]⟩ := prepare_strayWordAndReturn
  have hready : (prepare files (.ofSeed 0) lenient "rom").result = .ok () := by
    rw [hprepare]
  have hfails : outcome.result = .error (.fault 0x00EE 0x202 .stackUnderflow) :=
    Outcome.returned_eq_error_iff.mp run_strayWordAndReturn
  have hstart : atStrayWord.afterCalls (HostCall.ofSteps lenient.period 0 0) = atStrayWord := rfl
  have hafter : atStrayWord.afterCalls (HostCall.ofSteps lenient.period 0 1) = atReturn := by
    have hsteps : HostCall.ofSteps lenient.period 0 1 = [.cycle] := rfl
    rw [hsteps, Machine.afterCalls_cons, hfirst]
    rfl
  obtain ⟨program, hfile, hlog⟩ := run_log (by decide : 0 < 5) hready
  cases hfile
  simp only [hprepare] at hlog
  rw [hfails] at hlog
  obtain ⟨completed, -, hearlier, hcycle, hlines, word, pc, cause, hfault, htraces⟩ := hlog
  have hcompleted : completed = 1 := by
    rcases completed with - | - | completed
    · rw [hstart, ← Machine.call_cycle, hfirst] at hcycle
      cases hcycle
    · rfl
    · have hok := hearlier 1 (by omega)
      rw [hafter, ← Machine.call_cycle, hsecond] at hok
      cases hok
  subst hcompleted
  cases hfault
  have hlogged : (List.range 2).flatMap
      (fun number => lenient.cycleLines
        (atStrayWord.afterCalls (HostCall.ofSteps lenient.period 0 number))) =
      ["TRACE: 0x200: ffff  DW 0xFFFF", "WARN: skipping unknown opcode 0xffff at 0x200",
        "TRACE: 0x202: 00ee  RET"] := by
    have hrange : List.range 2 = [0, 1] := rfl
    have hstray : lenient.cycleLines atStrayWord = lenient.wordLines 0x200 0xFFFF :=
      Config.cycleLines_of_fetch rfl hfetch
    have hreturn : lenient.cycleLines atReturn = lenient.wordLines 0x202 0x00EE :=
      Config.cycleLines_of_fetch rfl hfetch'
    obtain ⟨hstrayLines, hreturnLines⟩ := wordLines_strayWordAndReturn
    rw [hrange, List.flatMap_cons, List.flatMap_singleton, hstart, hafter, hstray, hreturn,
      hstrayLines, hreturnLines]
    rfl
  -- the texts one at a time, since all of them in one comparison take long
  have hsize : "DEBUG: loaded " ++ toString strayWordAndReturn.length
      ++ " program bytes at 0x200" = "DEBUG: loaded 4 program bytes at 0x200" := by decide
  have hpath : "INFO: loaded " ++ "rom" = "INFO: loaded rom" := by decide
  have hhalting : "ERROR: halting after " ++ toString 1 ++ " cycles: "
      ++ (Error.fault 0x00EE 0x202 .stackUnderflow).message = "ERROR: halting after 1 cycles: "
      ++ "fault at pc 0x202 (opcode 0x00ee): return instruction with empty stack" := by decide
  rw [hlogged, hsize, hpath, hhalting] at hlines
  exact ⟨⟨by decide, hready⟩, hfails, hlines, htraces⟩

end Headless

end Chip8
