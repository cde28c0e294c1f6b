/-
  Chip8.Proofs.RunLength

  Runs of one file that differ in their number of cycles. The steps of the shorter run are
  the first steps of the longer one (`HostCall.ofSteps_add`), so the longer run ends with the
  error of the shorter one, if there is one, and otherwise goes on with the steps after it, with
  the ticks where they would have been in one run.
-/
import Chip8.Proofs.Schedule

namespace Chip8

namespace Machine

variable {m : Machine} {first second : List HostCall}

theorem returned_append_of_error {error : Error}
    (h : (m.callAll first).returned = .error error) :
    (m.callAll (first ++ second)).returned = .error error := by
  have hfirst := Outcome.returned_eq_error_iff.mp h
  rw [callAll_append, Outcome.andThen_of_error hfirst, h]

theorem returned_append_of_ok {n : Machine} (h : (m.callAll first).returned = .ok n) :
    (m.callAll (first ++ second)).returned = (n.callAll second).returned := by
  obtain ⟨hfirst, rfl⟩ := Outcome.returned_eq_ok_iff.mp h
  rw [callAll_append, Outcome.returned_andThen_of_ok hfirst]

end Machine

namespace Headless

open RandomStream (Generator)

variable {files : FileSystem} {config : Config} {path : String} {count : Nat}

/-- With a seed, the machine that is prepared does not depend on anything else random. -/
theorem prepare_machine_of_seed {seed : UInt64} (hseed : config.seed = some seed)
    (entropy entropy' : Generator) (h : refusal? files config path count = none) :
    (prepare files entropy config path).machine =
      (prepare files entropy' config path).machine := by
  obtain ⟨-, hspeed, program, hfile, hsize⟩ := exists_program_of_accepted h
  rw [prepare_of_accepted entropy hspeed hfile hsize,
    prepare_of_accepted entropy' hspeed hfile hsize]
  simp only [Config.stream, hseed]

/-- Take two runs of one file with a seed, of which one has `more` cycles more than the other.
    If the shorter one ends with an error, the longer one ends with the same. If the shorter
    one leaves a machine, the longer one is what becomes of it in `more` more steps: a cycle,
    which ends the run if it fails, and then a tick if the period divides the number of the step,
    counted from the start of the run. The period is a sixtieth of the speed, but at least one.
    The calls of a run that succeeds are its steps, and contain as many ticks as the period goes
    into the number of its cycles. -/
theorem longer_run_goes_on {seed : UInt64} (hseed : config.seed = some seed)
    (hcount : 0 < count) (more : Nat) (entropy entropy' : Generator) :
    let period := max 1 (config.speed / 60)
    let short := (run files entropy config path count).returned
    let long := (run files entropy' config path (count + more)).returned
    (∀ error, short = .error error → long = .error error) ∧
    (∀ m, short = .ok m →
      long = (m.callAll (HostCall.ofSteps period count more)).returned ∧
      calls files entropy config path count = HostCall.ofSteps period 0 count ∧
      m = (prepare files entropy config path).machine.afterCalls
        (calls files entropy config path count) ∧
      HostCall.ticks (calls files entropy config path count) = count / period) := by
  intro period short long
  have hperiod : config.period = period := rfl
  have hrefusal : refusal? files config path (count + more) = refusal? files config path count :=
    refusal?_add hcount more
  cases haccepted : refusal? files config path count with
  | some error =>
      -- both runs are refused for the same reason
      have hshort : short = .error error := by
        rw [Outcome.returned_eq_error_iff, (run_of_refused entropy haccepted).1]
        rfl
      have hlong : long = .error error := by
        rw [Outcome.returned_eq_error_iff,
          (run_of_refused entropy' (hrefusal.trans haccepted)).1]
        rfl
      rw [hshort, hlong]
      exact ⟨fun _ h => h, nofun⟩
  | none =>
      -- the steps of the longer run are those of the shorter one and `more` others
      have hshort := returned_of_accepted entropy haccepted
      have hlong := returned_of_accepted entropy' (hrefusal.trans haccepted)
      rw [← prepare_machine_of_seed hseed entropy entropy' haccepted, hperiod,
        HostCall.ofSteps_add, Nat.zero_add] at hlong
      refine ⟨?_, ?_⟩
      · intro error herror
        exact hlong.trans (Machine.returned_append_of_error (hshort.symm.trans herror))
      · intro m hm
        obtain ⟨-, hcalls, hmachine⟩ := calls_of_returned hm
        refine ⟨hlong.trans (Machine.returned_append_of_ok (hshort.symm.trans hm)), hcalls, ?_, ?_⟩
        · rw [hcalls]
          exact hmachine
        · rw [hcalls, hperiod, HostCall.ticks_ofSteps, Nat.zero_add, Nat.zero_div, Nat.sub_zero]

/-- A program that sets the delay timer to five and then returns, although nothing was
    called. -/
def delaysAndReturns : List UInt8 := [0x60, 0x05, 0xF0, 0x15, 0x00, 0xEE]

/-- A tick after every second cycle. -/
def everySecond : Config := { Config.standard with speed := 120, seed := some 7 }

/-- The machine of that program after one cycle. -/
def loaded : Machine :=
  { ready everySecond "rom" delaysAndReturns (.ofSeed 7) with
    registers := { Registers.initial.set 0 5 with pc := 0x202 }
    lastWord := 0x6005
    counter := 1 }

/-- The machine of that program after two cycles and a tick. -/
def delayed : Machine :=
  { loaded with
    registers := { loaded.registers with pc := 0x204 }
    timers := ⟨4, 0⟩
    lastWord := 0xF015
    counter := 2 }

theorem run_delaysAndReturns :
    (run (fun _ => .ok delaysAndReturns) (.ofSeed 0) everySecond "rom" 2).returned =
      .ok delayed := by
  let start := ready everySecond "rom" delaysAndReturns (.ofSeed 7)
  have hstart : prepare (fun _ => .ok delaysAndReturns) (.ofSeed 0) everySecond "rom" =
      ⟨.ok (), start, [.programLoaded 6, .programReady "rom"]⟩ :=
    prepare_of_accepted _ (by decide) rfl (by decide)
  have hfirst : start.fetch = .ok 0x6005 :=
    Machine.fetch_program 0 rfl rfl (by decide) (by decide) (by decide)
  have hloaded : start.call .cycle = ⟨.ok (), loaded, [start.startRecord 0x6005]⟩ :=
    (Machine.call_of_no_obstacle rfl hfirst rfl rfl).1
  have hsecond : loaded.fetch = .ok 0xF015 :=
    Machine.fetch_program 2 rfl rfl (by decide) (by decide) (by decide)
  have hset : (loaded.callAll [.cycle, .tick]).returned = .ok delayed := by
    rw [Machine.callAll, (Machine.call_of_no_obstacle rfl hsecond rfl rfl).1]
    rfl
  have hsteps : HostCall.ofSteps everySecond.period 0 2 = [.cycle, .cycle, .tick] := rfl
  have haccepted :
      refusal? (fun _ => .ok delaysAndReturns) everySecond "rom" 2 = none := by decide
  rw [returned_of_accepted _ haccepted, hstart, hsteps, Machine.returned_callAll_of_ok hloaded,
    hset]

/-- The program succeeds with two cycles and one tick, and with more it ends with a fault. -/
theorem longer_run_goes_on_delaysAndReturns :
    (everySecond.seed = some 7 ∧ 0 < 2 ∧ 0 < 3) ∧
    HostCall.ticks (calls (fun _ => .ok delaysAndReturns) (.ofSeed 0) everySecond "rom" 2) = 1 ∧
    (run (fun _ => .ok delaysAndReturns) (.ofSeed 1) everySecond "rom" 3).returned =
      .error (.fault 0x00EE 0x204 .stackUnderflow) ∧
    (run (fun _ => .ok delaysAndReturns) (.ofSeed 2) everySecond "rom" 9).returned =
      .error (.fault 0x00EE 0x204 .stackUnderflow) := by
  have hfetch : delayed.fetch = .ok 0x00EE :=
    Machine.fetch_program 4 rfl rfl (by decide) (by decide) (by decide)
  have hfault : (delayed.callAll (HostCall.ofSteps everySecond.period 2 1)).returned =
      .error (.fault 0x00EE 0x204 .stackUnderflow) := by
    have hsteps : HostCall.ofSteps everySecond.period 2 1 = [.cycle] := rfl
    rw [hsteps, Machine.callAll, Machine.call_cycle, Machine.cycle_of_fetch rfl hfetch,
      Outcome.andThen_of_error rfl]
    exact Outcome.returned_eq_error_iff.mpr rfl
  obtain ⟨hthird, -, -, hticks⟩ :=
    (longer_run_goes_on rfl (by decide) 1 (.ofSeed 0) (.ofSeed 1)).2 _ run_delaysAndReturns
  have hthird := hthird.trans hfault
  exact ⟨⟨rfl, by decide, by decide⟩, hticks, hthird,
    (longer_run_goes_on rfl (by decide) 6 (.ofSeed 1) (.ofSeed 2)).1 _ hthird⟩

end Headless

end Chip8
