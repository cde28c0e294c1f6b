/-
  Chip8.Proofs.Schedule

  A run without a window is a list of calls. Each of its steps is a cycle, and a tick where
  the period divides the number of the step (`HostCall.ofSteps`); the calls are made one
  after the other until one of them fails (`Machine.callAll`). `Machine.runFrom_outcome`
  says that the loop of a run does just this. A run of a file is refused if a check before
  it fails (`Headless.refusal?`), and otherwise it prepares a machine and makes the calls
  of its steps (`Headless.run_of_accepted`).
-/
import Chip8.Headless
import Chip8.Proofs.Ticks

namespace Chip8

open RandomStream (Generator)

/-! ## Outcomes -/

namespace Outcome

/-- What a call gives to a host that gets the machine only if there was no error. -/
def returned (o : Outcome Unit) : Except Error Machine :=
  o.result.map fun _ => o.machine

theorem returned_eq_ok_iff {o : Outcome Unit} {m : Machine} :
    o.returned = .ok m ↔ o.result = .ok () ∧ o.machine = m := by
  unfold returned
  cases o.result with
  | error error => simp [Except.map]
  | ok done => simp [Except.map]

theorem returned_eq_error_iff {o : Outcome Unit} {error : Error} :
    o.returned = .error error ↔ o.result = .error error := by
  unfold returned
  cases o.result with
  | error error => simp [Except.map]
  | ok done => simp [Except.map]

variable {o : Outcome Unit} {next : Unit → Machine → Outcome Unit}

theorem andThen_of_ok (h : o.result = .ok ()) :
    o.andThen next =
      { next () o.machine with log := o.log ++ (next () o.machine).log } := by
  rw [andThen, h]

theorem andThen_of_error {error : Error} (h : o.result = .error error) :
    o.andThen next = o := by
  cases o with
  | mk result machine log =>
      cases h
      rfl

theorem returned_andThen_of_ok (h : o.result = .ok ()) :
    (o.andThen next).returned = (next () o.machine).returned := by
  rw [andThen_of_ok h]
  rfl

theorem andThen_assoc (o : Outcome Unit) (next last : Unit → Machine → Outcome Unit) :
    (o.andThen next).andThen last =
      o.andThen fun done m => (next done m).andThen last := by
  cases o with
  | mk result machine log =>
      cases result with
      | error error => rfl
      | ok done =>
          simp only [andThen]
          cases (next done machine).result with
          | error error => rfl
          | ok done => simp only [List.append_assoc]

end Outcome

/-! ## Calls one after the other -/

namespace Machine

/-- Some calls one after the other, up to the first that fails. -/
def callAll (m : Machine) : List HostCall → Outcome Unit
  | [] => .done () m
  | call :: calls => (m.call call).andThen fun _ m => m.callAll calls

/-- Those of some calls that are made where the first failure ends them. -/
def untilFailure (m : Machine) : List HostCall → List HostCall
  | [] => []
  | call :: calls =>
    match (m.call call).result with
    | .ok _ => call :: (m.call call).machine.untilFailure calls
    | .error _ => [call]

variable {m : Machine} {call : HostCall}

theorem callAll_cons_of_ok (calls : List HostCall) (h : (m.call call).result = .ok ()) :
    m.callAll (call :: calls) =
      let rest := (m.call call).machine.callAll calls
      { rest with log := (m.call call).log ++ rest.log } :=
  Outcome.andThen_of_ok h

theorem callAll_cons_of_error {error : Error} (calls : List HostCall)
    (h : (m.call call).result = .error error) : m.callAll (call :: calls) = m.call call :=
  Outcome.andThen_of_error h

/-- What calls give back goes on from the machine that the first of them left. -/
theorem returned_callAll_of_ok {n : Machine} {log : List Record}
    (h : m.call call = ⟨.ok (), n, log⟩) (calls : List HostCall) :
    (m.callAll (call :: calls)).returned = (n.callAll calls).returned := by
  rw [callAll, h, Outcome.returned_andThen_of_ok rfl]

theorem returned_callAll_of_error {error : Error} (h : (m.call call).result = .error error)
    (calls : List HostCall) : (m.callAll (call :: calls)).returned = .error error := by
  rw [callAll_cons_of_error calls h]
  exact Outcome.returned_eq_error_iff.mpr h

theorem callAll_append (m : Machine) (first second : List HostCall) :
    m.callAll (first ++ second) =
      (m.callAll first).andThen fun _ m => m.callAll second := by
  induction first generalizing m with
  | nil => rfl
  | cons call calls ih =>
      simp only [List.cons_append, callAll, ih]
      exact (Outcome.andThen_assoc ..).symm

theorem untilFailure_cons_of_ok (calls : List HostCall) (h : (m.call call).result = .ok ()) :
    m.untilFailure (call :: calls) =
      call :: (m.call call).machine.untilFailure calls := by
  rw [untilFailure, h]

theorem untilFailure_cons_of_error {error : Error} (calls : List HostCall)
    (h : (m.call call).result = .error error) :
    m.untilFailure (call :: calls) = [call] := by
  rw [untilFailure, h]

/-- Calls that all succeed are all made. -/
theorem untilFailure_of_ok {calls : List HostCall} (h : (m.callAll calls).result = .ok ()) :
    m.untilFailure calls = calls := by
  induction calls generalizing m with
  | nil => rfl
  | cons call calls ih =>
      cases hcall : (m.call call).result with
      | error error =>
          rw [callAll_cons_of_error calls hcall, hcall] at h
          cases h
      | ok done =>
          rw [callAll_cons_of_ok calls hcall] at h
          rw [untilFailure_cons_of_ok calls hcall, ih h]

/-- What is left is what the calls leave that were made. -/
theorem callAll_machine (m : Machine) (calls : List HostCall) :
    (m.callAll calls).machine = m.afterCalls (m.untilFailure calls) := by
  induction calls generalizing m with
  | nil => rfl
  | cons call calls ih =>
      cases hcall : (m.call call).result with
      | error error =>
          rw [callAll_cons_of_error calls hcall, untilFailure_cons_of_error calls hcall]
          rfl
      | ok done =>
          rw [callAll_cons_of_ok calls hcall, untilFailure_cons_of_ok calls hcall,
            afterCalls_cons, ← ih]

theorem callAll_machine_of_ok {calls : List HostCall}
    (h : (m.callAll calls).result = .ok ()) :
    (m.callAll calls).machine = m.afterCalls calls := by
  rw [callAll_machine, untilFailure_of_ok h]

/-- Where calls succeed, those before them and those after them do. -/
theorem callAll_append_ok_iff (m : Machine) (first second : List HostCall) :
    (m.callAll (first ++ second)).result = .ok () ↔
      (m.callAll first).result = .ok () ∧
        ((m.afterCalls first).callAll second).result = .ok () := by
  rw [callAll_append]
  cases h : (m.callAll first).result with
  | error error => simp [Outcome.andThen_of_error h, h]
  | ok done => simp [Outcome.andThen_of_ok h, callAll_machine_of_ok h]

/-- An error of some calls is the error of one of them, on a machine with what every call
    keeps. -/
theorem exists_of_callAll_error {P : Machine → Prop} {calls : List HostCall} {error : Error}
    (hm : P m) (hcall : ∀ m, P m → ∀ call ∈ calls, P (m.call call).machine)
    (h : (m.callAll calls).result = .error error) :
    ∃ n, P n ∧ ∃ call ∈ calls, (n.call call).result = .error error := by
  induction calls generalizing m with
  | nil => cases h
  | cons call calls ih =>
      cases hfirst : (m.call call).result with
      | error reason =>
          rw [callAll_cons_of_error calls hfirst] at h
          exact ⟨m, hm, call, List.mem_cons_self .., h⟩
      | ok done =>
          rw [callAll_cons_of_ok calls hfirst] at h
          have hnext := hcall m hm call (List.mem_cons_self ..)
          obtain ⟨n, hn, last, hlast, herror⟩ :=
            ih hnext (fun m hm c hc => hcall m hm c (List.mem_cons_of_mem _ hc)) h
          exact ⟨n, hn, last, List.mem_cons_of_mem _ hlast, herror⟩

/-- Machines that answer calls alike while the first executes only words with `P` come to the
    same result with any number of calls up to a failure. -/
theorem callAll_alike {R : Machine → Machine → Prop} {P : Word → Prop} {a b : Machine}
    {calls : List HostCall}
    (hstep : ∀ a b, R a b → ∀ call ∈ calls, (∀ w, a.executed? call = some w → P w) →
      AnswerAlike R a b call)
    (hab : R a b) (hwords : ∀ w ∈ a.executedWords (a.untilFailure calls), P w) :
    (b.callAll calls).result = (a.callAll calls).result ∧
      R (a.callAll calls).machine (b.callAll calls).machine := by
  -- as the reports agree, the same call fails at both machines, if one does
  induction calls generalizing a b with
  | nil => exact ⟨rfl, hab⟩
  | cons call calls ih =>
      cases hcall : (a.call call).result with
      | error error =>
          rw [untilFailure_cons_of_error calls hcall, forall_executedWords_cons] at hwords
          have hanswer := hstep a b hab call (List.mem_cons_self ..) hwords.1
          have hcall' : (b.call call).result = .error error :=
            (congrArg Report.result hanswer.report).trans hcall
          rw [callAll_cons_of_error calls hcall, callAll_cons_of_error calls hcall', hcall, hcall']
          exact ⟨rfl, hanswer.related⟩
      | ok done =>
          rw [untilFailure_cons_of_ok calls hcall, forall_executedWords_cons] at hwords
          have hanswer := hstep a b hab call (List.mem_cons_self ..) hwords.1
          have hcall' : (b.call call).result = .ok () :=
            (congrArg Report.result hanswer.report).trans hcall
          rw [callAll_cons_of_ok calls hcall, callAll_cons_of_ok calls hcall']
          exact ih (fun a b hab c hc => hstep a b hab c (List.mem_cons_of_mem _ hc))
            hanswer.related hwords.2

end Machine

/-! ## The steps of a run -/

namespace HostCall

/-- The calls of one step: a cycle, and a tick if the period divides the number of the
    step. -/
def ofStep (period number : Nat) : List HostCall :=
  .cycle :: if period ∣ number then [.tick] else []

/-- The calls of `count` steps after the first `completed` ones. -/
def ofSteps (period completed count : Nat) : List HostCall :=
  (List.range' (completed + 1) count).flatMap (ofStep period)

/-- The calls that steps are made of. -/
inductive Steps : HostCall → Prop
  | cycle : Steps .cycle
  | tick : Steps .tick

theorem Steps.drives {call : HostCall} (h : call.Steps) : call.Drives := by
  cases h with
  | cycle => exact .cycle
  | tick => exact .tick

theorem ofSteps_zero (period completed : Nat) : ofSteps period completed 0 = [] := rfl

theorem ofSteps_one (period completed : Nat) :
    ofSteps period completed 1 = ofStep period (completed + 1) :=
  List.flatMap_singleton ..

theorem ofSteps_add (period completed first second : Nat) :
    ofSteps period completed (first + second) =
      ofSteps period completed first ++ ofSteps period (completed + first) second := by
  have hstart : completed + first + 1 = completed + 1 + first := by omega
  rw [ofSteps, ofSteps, ofSteps, hstart, ← List.flatMap_append, List.range'_append_1]

theorem ofSteps_succ (period completed count : Nat) :
    ofSteps period completed (count + 1) =
      ofStep period (completed + 1) ++ ofSteps period (completed + 1) count := by
  rw [Nat.add_comm, ofSteps_add, ofSteps_one]

theorem steps_of_mem_ofSteps {period completed count : Nat} {call : HostCall}
    (h : call ∈ ofSteps period completed count) : call.Steps := by
  obtain ⟨number, -, hmem⟩ := List.mem_flatMap.mp h
  unfold ofStep at hmem
  split at hmem
  · rcases List.mem_cons.mp hmem with rfl | htick
    · exact .cycle
    · rw [List.mem_singleton.mp htick]
      exact .tick
  · rw [List.mem_singleton.mp hmem]
    exact .cycle

theorem ticks_append (first second : List HostCall) :
    ticks (first ++ second) = ticks first + ticks second :=
  List.countP_append

theorem ticks_ofStep (period number : Nat) :
    ticks (ofStep period number) = if period ∣ number then 1 else 0 := by
  unfold ofStep
  split
  · rfl
  · rfl

/-- Steps tick once for each multiple of the period among their numbers. -/
theorem ticks_ofSteps (period completed count : Nat) :
    ticks (ofSteps period completed count) =
      (completed + count) / period - completed / period := by
  -- the quotient grows by one where the period divides the next number
  have hgrows : completed / period + ticks (ofSteps period completed count) =
      (completed + count) / period := by
    induction count with
    | zero => rfl
    | succ count ih =>
        rw [ofSteps_add, ofSteps_one, ticks_append, ticks_ofStep, ← Nat.add_assoc, ih,
          ← Nat.add_assoc, Nat.succ_div]
  omega

end HostCall

/-! ## The loop of a run -/

/-- What a run gives back. -/
def Run.outcome (r : Run) : Outcome Unit where
  result := match r.error? with
    | none => .ok ()
    | some error => .error error
  machine := r.machine
  log := r.log.toList

namespace Machine

/-- Steps of a run leave the keypad and the settings. -/
theorem step_hostSide {m : Machine} {call : HostCall} (hcall : call.Steps) :
    (m.call call).machine.hostSide = m.hostSide := by
  cases hcall with
  | tick => rfl
  | cycle => exact m.cycle_hostSide

theorem callAll_tick_append (m : Machine) (p : Prop) [Decidable p] (calls : List HostCall) :
    m.callAll ((if p then [.tick] else []) ++ calls) =
      (if p then m.tick.machine else m).callAll calls := by
  split
  · rfl
  · rfl

/-- The loop of a run makes the calls of its steps one after the other. -/
theorem runFrom_outcome (period : Nat) (m : Machine) (completed : Nat) (log : Array Record)
    (limit : Nat) :
    (m.runFrom period completed log limit).outcome =
      let calls := m.callAll (HostCall.ofSteps period completed limit)
      { calls with log := log.toList ++ calls.log } := by
  -- the log collects in front, so that the equation is for any log and any steps behind it
  induction limit generalizing m completed log with
  | zero =>
      rw [HostCall.ofSteps_zero]
      simp [runFrom, Run.outcome, callAll, Outcome.done]
  | succ limit ih =>
      rw [HostCall.ofSteps_succ, HostCall.ofStep, List.cons_append]
      simp only [runFrom]
      split
      · next error after records hcycle =>
        have herror : (m.call .cycle).result = .error error := by rw [call_cycle, hcycle]
        rw [callAll_cons_of_error _ herror, call_cycle, hcycle]
        simp [Run.outcome]
      · next after records hcycle =>
        have hok : (m.call .cycle).result = .ok () := by rw [call_cycle, hcycle]
        rw [callAll_cons_of_ok _ hok, callAll_tick_append, call_cycle, hcycle, ih]
        simp [Nat.dvd_iff_mod_eq_zero, List.append_assoc]

theorem run_outcome (m : Machine) (period limit : Nat) :
    (m.run period limit).outcome = m.callAll (HostCall.ofSteps period 0 limit) :=
  m.runFrom_outcome period 0 #[] limit

/-! ## Words of a program -/

/-- The words of a program are fetched where it lies in memory. -/
theorem fetch_program {m : Machine} {program : List UInt8} {word : Word} (i : Nat)
    (hmemory : m.memory = Memory.initial.store Memory.programStart program)
    (hpc : m.registers.pc.toNat = Memory.programStart + i) (hsize : program.length ≤ 3584)
    (hi : i + 1 < program.length) (hword : Word.ofBytes program[i] program[i + 1] = word) :
    m.fetch = .ok word := by
  subst hword
  have hstart : Memory.programStart = 512 := rfl
  have hfit : m.registers.pc.toNat + 2 ≤ 4096 := by omega
  have hhigh : Memory.programStart + i - Memory.programStart = i := by omega
  have hlow : Memory.programStart + i + 1 - Memory.programStart = i + 1 := by omega
  rw [fetch_of_le hfit, wordAt]
  simp only [hmemory, hpc, Memory.store_bytes_getElem]
  rw [if_pos (by omega), if_pos (by omega), hhigh, hlow, List.getD_eq_getElem?_getD,
    List.getD_eq_getElem?_getD, List.getElem?_eq_getElem hi,
    List.getElem?_eq_getElem (Nat.lt_of_succ_lt hi), Option.getD_some, Option.getD_some]

/-- A cycle that fetches a word without an obstacle leaves the machine `n` that performing its
    instruction leaves. -/
theorem call_of_no_obstacle {m n : Machine} {word : Word} (hmode : m.mode = .running)
    (hfetch : m.fetch = .ok word) (h : (Instruction.decode word).obstacle? m = none)
    (hafter : (m.performed (.decode word)).complete word = n) :
    m.call .cycle = ⟨.ok (), n, [m.startRecord word]⟩ ∧ m.executed? .cycle = some word := by
  have hexecute := execute_of_no_obstacle h
  rw [hafter] at hexecute
  have hexecuted := executed?_cycle_of_fetch hmode hfetch (congrArg Outcome.result hexecute)
  rw [call_cycle, cycle_of_fetch hmode hfetch]
  exact ⟨hexecute, hexecuted⟩

end Machine

/-! ## Runs of a file -/

namespace Headless

/-- Why a run does not start, if it does not: the first of its checks that fails. -/
def refusal? (files : FileSystem) (config : Config) (path : String) (limit : Nat) :
    Option Error :=
  if limit = 0 then some (.invalidArgument "max_cycles must be > 0")
  else if config.speed = 0 then some (.invalidArgument "cpu_hz must be > 0")
  else match files path with
    | .error reason => some (.file reason)
    | .ok program =>
      if 3584 < program.length then some (.programTooLarge program.length 3584) else none

/-- The random stream of a configured machine. -/
def Config.stream (config : Config) (entropy : Generator) : Generator :=
  match config.seed with
  | none => entropy
  | some seed => .ofSeed seed

/-- A machine just switched on, with a program in memory and set up as configured. -/
def ready (config : Config) (path : String) (program : List UInt8) (random : Generator) :
    Machine :=
  { Machine.initial random with
    memory := Memory.initial.store Memory.programStart program
    source := some path
    dialect := config.dialect
    unknownWords := config.unknownWords }

/-- The calls that a run makes. A run that is refused makes none. -/
def calls (files : FileSystem) (entropy : Generator) (config : Config) (path : String)
    (limit : Nat) : List HostCall :=
  match (prepare files entropy config path).returned with
  | .ok m => m.untilFailure (HostCall.ofSteps config.period 0 limit)
  | .error _ => []

/-- The words that a run executes, in order. -/
def executedWords (files : FileSystem) (entropy : Generator) (config : Config) (path : String)
    (limit : Nat) : List Word :=
  (prepare files entropy config path).machine.executedWords
    (calls files entropy config path limit)

variable {files : FileSystem} {config : Config} {path : String} {limit : Nat}

theorem exists_program_of_accepted (h : refusal? files config path limit = none) :
    limit ≠ 0 ∧ config.speed ≠ 0 ∧
      ∃ program, files path = .ok program ∧ program.length ≤ 3584 := by
  unfold refusal? at h
  split at h
  · cases h
  · next hlimit =>
    split at h
    · cases h
    · next hspeed =>
      split at h
      · cases h
      · next program hfile =>
        split at h
        · cases h
        · next hsize => exact ⟨hlimit, hspeed, program, hfile, Nat.not_lt.mp hsize⟩

theorem refusal?_add (hlimit : 0 < limit) (more : Nat) :
    refusal? files config path (limit + more) = refusal? files config path limit := by
  have hshort : limit ≠ 0 := by omega
  have hlong : limit + more ≠ 0 := by omega
  rw [refusal?, refusal?, if_neg hshort, if_neg hlong]

theorem prepare_of_accepted {program : List UInt8} (entropy : Generator)
    (hspeed : config.speed ≠ 0) (hfile : files path = .ok program)
    (hsize : program.length ≤ 3584) :
    prepare files entropy config path =
      ⟨.ok (), ready config path program (config.stream entropy),
        [.programLoaded program.length, .programReady path]⟩ := by
  have hfits : program.length ≤ Memory.programLimit := hsize
  simp only [prepare, if_neg hspeed, Machine.boot, Machine.loadFile?, Machine.loadFile, hfile,
    Machine.loadProgram, Memory.loadProgram, if_pos hfits, Outcome.andThen, Outcome.done]
  rfl

theorem prepare_of_refused {error : Error} (entropy : Generator) (hlimit : limit ≠ 0)
    (h : refusal? files config path limit = some error) :
    prepare files entropy config path = .failed error (.initial entropy) := by
  rw [refusal?, if_neg hlimit] at h
  split at h
  · next hspeed =>
    cases h
    rw [prepare, if_pos hspeed]
  · next hspeed =>
    rw [prepare, if_neg hspeed]
    split at h
    · next reason hfile =>
      cases h
      simp only [Machine.boot, Machine.loadFile?, Machine.loadFile, hfile]
      rfl
    · next program hfile =>
      split at h
      · next hsize =>
        cases h
        have hlong : ¬ program.length ≤ Memory.programLimit := Nat.not_le.mpr hsize
        simp only [Machine.boot, Machine.loadFile?, Machine.loadFile, hfile,
          Machine.loadProgram, Memory.loadProgram, if_neg hlong]
        rfl
      · cases h

/-- A run that is refused leaves a machine just switched on, and has made no call. -/
theorem run_of_refused {error : Error} (entropy : Generator)
    (h : refusal? files config path limit = some error) :
    run files entropy config path limit = .failed error (.initial entropy) ∧
      calls files entropy config path limit = [] := by
  by_cases hlimit : limit = 0
  · subst hlimit
    cases h
    refine ⟨rfl, ?_⟩
    unfold calls
    split
    · rfl
    · rfl
  · have hprepare := prepare_of_refused entropy hlimit h
    rw [run, if_neg hlimit, calls, hprepare]
    exact ⟨rfl, rfl⟩

/-- A machine that is ready makes the calls of its steps. -/
theorem finish_eq (config : Config) (limit : Nat) (m : Machine) :
    let calls := m.callAll (HostCall.ofSteps config.period 0 limit)
    (finish config limit m).result = calls.result ∧
      (finish config limit m).machine = calls.machine := by
  intro calls
  have houtcome : (m.run config.period limit).outcome = calls := m.run_outcome _ limit
  rw [← houtcome, finish, Run.outcome]
  cases (m.run config.period limit).error? with
  | none => exact ⟨rfl, rfl⟩
  | some error => exact ⟨rfl, rfl⟩

/-- A run that is not refused makes the calls of its steps on the machine that was
    prepared. -/
theorem run_of_accepted (entropy : Generator) (h : refusal? files config path limit = none) :
    let start := (prepare files entropy config path).machine
    let steps := HostCall.ofSteps config.period 0 limit
    (run files entropy config path limit).result = (start.callAll steps).result ∧
      (run files entropy config path limit).machine = (start.callAll steps).machine ∧
      calls files entropy config path limit = start.untilFailure steps := by
  intro start steps
  obtain ⟨hlimit, hspeed, program, hfile, hsize⟩ := exists_program_of_accepted h
  have hready : (prepare files entropy config path).result = .ok () := by
    rw [prepare_of_accepted entropy hspeed hfile hsize]
  have hreturned : (prepare files entropy config path).returned = .ok start :=
    Outcome.returned_eq_ok_iff.mpr ⟨hready, rfl⟩
  obtain ⟨hresult, hmachine⟩ := finish_eq config limit start
  rw [run, if_neg hlimit, Outcome.andThen_of_ok hready, calls, hreturned]
  exact ⟨hresult, hmachine, rfl⟩

theorem returned_of_accepted (entropy : Generator)
    (h : refusal? files config path limit = none) :
    (run files entropy config path limit).returned =
      ((prepare files entropy config path).machine.callAll
        (HostCall.ofSteps config.period 0 limit)).returned := by
  obtain ⟨hresult, hmachine, -⟩ := run_of_accepted entropy h
  rw [Outcome.returned, hresult, hmachine, Outcome.returned]

/-- A run that gives back a machine was not refused. -/
theorem accepted_of_returned {entropy : Generator} {m : Machine}
    (h : (run files entropy config path limit).returned = .ok m) :
    refusal? files config path limit = none := by
  cases hrefused : refusal? files config path limit with
  | none => rfl
  | some error =>
      rw [(run_of_refused entropy hrefused).1] at h
      cases h

/-- A run that gives back a machine has made all the calls of its steps. -/
theorem calls_of_returned {entropy : Generator} {m : Machine}
    (h : (run files entropy config path limit).returned = .ok m) :
    let start := (prepare files entropy config path).machine
    let steps := HostCall.ofSteps config.period 0 limit
    (start.callAll steps).result = .ok () ∧
      calls files entropy config path limit = steps ∧ m = start.afterCalls steps := by
  intro start steps
  have haccepted := accepted_of_returned h
  have hcalls := (run_of_accepted entropy haccepted).2.2
  rw [returned_of_accepted entropy haccepted] at h
  obtain ⟨hok, rfl⟩ := Outcome.returned_eq_ok_iff.mp h
  exact ⟨hok, hcalls.trans (Machine.untilFailure_of_ok hok),
    Machine.callAll_machine_of_ok hok⟩

end Headless

end Chip8
