/-
  Chip8.Proofs.HeadlessWait

  What becomes of a run in which a program waits for a key. Without a window there are no keys,
  so the wait never ends: until the first word FX0A every step executes one word
  (`Machine.running_after_steps`), and from then on the steps do nothing but tick
  (`Machine.tickedBy_of_waiting`). The counter counts the words that are executed
  (`Machine.counter_afterCalls`). The machine that a run gives back is therefore known from the
  step at which the wait starts (`Headless.run_stays_at_first_wait`).
-/
import Chip8.Proofs.Schedule

namespace Chip8

/-- Whether a word waits for a key: FX0A. -/
def Word.Waits (w : Word) : Prop :=
  w.family = 0xF ∧ w.byte = 0x0A

instance : DecidablePred Word.Waits :=
  fun w => inferInstanceAs (Decidable (w.family = 0xF ∧ w.byte = 0x0A))

/-- The steps from the one after `before` on start with a cycle. What follows it contains the
    ticks of them all. -/
theorem HostCall.ofSteps_of_lt (period : Nat) {before count : Nat} (h : before < count) :
    ∃ rest, ofSteps period 0 count = ofSteps period 0 before ++ .cycle :: rest ∧
      (∀ call ∈ rest, call.Steps) ∧ ticks rest = count / period - before / period := by
  obtain ⟨more, rfl⟩ := Nat.exists_eq_add_of_lt h
  let rest :=
    (if period ∣ before + 1 then [.tick] else []) ++ ofSteps period (before + 1) more
  have hrest : ofSteps period before (more + 1) = .cycle :: rest := ofSteps_succ ..
  refine ⟨rest, ?_, ?_, ?_⟩
  · rw [Nat.add_assoc, ofSteps_add, Nat.zero_add, hrest]
  · intro call hcall
    have hmem : call ∈ ofSteps period before (more + 1) := by
      rw [hrest]
      exact List.mem_cons_of_mem _ hcall
    exact steps_of_mem_ofSteps hmem
  · have hticks := ticks_ofSteps period before (more + 1)
    rw [hrest, ticks_cons] at hticks
    exact hticks

namespace Machine

open HostCall (ofStep ofSteps ofSteps_add ofSteps_one ticks)

variable {m : Machine} {w : Word} {period : Nat}

/-! ## Words -/

/-- A word that does not wait leaves the mode. -/
theorem execute_mode (h : (m.execute w).result = .ok ()) (hw : ¬ w.Waits) :
    (m.execute w).machine.mode = m.mode := by
  rcases execute_sameIn h .mode with hsame | hchange
  · exact hsame
  · cases hchange with
    | mode hfamily hbyte => exact absurd ⟨hfamily, hbyte⟩ hw

/-- A word FX0A stays where it is, and all that it does is to wait. -/
theorem execute_of_waits (hw : w.Waits) :
    m.execute w =
      ⟨.ok (), { m with
        mode := .awaitingKey w.x none, lastWord := w, counter := m.counter + 1 },
        [m.startRecord w]⟩ := by
  have hdecode : Instruction.decode w = .waitKey w.x := by
    rw [Instruction.decode_device hw.1, hw.2]
    rfl
  exact execute_of_decode hdecode rfl

/-! ## Machines without a press -/

/-- Whether no key was pressed in a wait. -/
def Unpressed (m : Machine) : Prop :=
  ∀ register key, m.mode ≠ .awaitingKey register (some key)

theorem unpressed_of_running (h : m.mode = .running) : m.Unpressed := by
  intro register key hmode
  rw [h] at hmode
  cases hmode

/-- Steps press no key. -/
theorem step_unpressed {call : HostCall} (hcall : call.Steps) (hm : m.Unpressed) :
    (m.call call).machine.Unpressed := by
  cases hcall with
  | tick => exact hm
  | cycle =>
      rw [call_cycle]
      rcases m.cycle_machine_cases with
        hsame | ⟨x, key, hmode, -⟩ | ⟨word, hmode, -, hcycle, hok⟩
      · rwa [hsame]
      · exact absurd hmode (hm x key)
      · rw [hcycle]
        by_cases hwaits : word.Waits
        · rw [execute_of_waits hwaits]
          nofun
        · exact unpressed_of_running ((execute_mode hok hwaits).trans hmode)

/-- A step without a press counts the word that it executes, if it executes one. -/
theorem step_counter {call : HostCall} (hcall : call.Steps) (hm : m.Unpressed) :
    (m.call call).machine.counter = m.counter + .ofNat (m.executed? call).toList.length := by
  cases hexecuted : m.executed? call with
  | some word =>
      obtain ⟨hcall, hok⟩ := call_of_executed hexecuted
      rw [hcall]
      exact (execute_counted hok).1
  | none =>
      have hsame : (m.call call).machine.counter = m.counter := by
        cases hcall with
        | tick => rfl
        | cycle =>
            rw [call_cycle]
            rcases m.cycle_machine_cases with
              hsame | ⟨x, key, hmode, -⟩ | ⟨word, hmode, hfetch, -, hok⟩
            · rw [hsame]
            · exact absurd hmode (hm x key)
            · rw [executed?_cycle_of_fetch hmode hfetch hok] at hexecuted
              cases hexecuted
      exact hsame.trans (UInt64.add_zero _).symm

/-- The counter grows by the number of words that are executed, modulo 2^64. -/
theorem counter_afterCalls {calls : List HostCall} (hcalls : ∀ call ∈ calls, call.Steps)
    (hm : m.Unpressed) :
    (m.afterCalls calls).counter = m.counter + .ofNat (m.executedWords calls).length := by
  induction calls generalizing m with
  | nil => exact (UInt64.add_zero _).symm
  | cons call calls ih =>
      obtain ⟨hcall, hothers⟩ := List.forall_mem_cons.mp hcalls
      rw [afterCalls_cons, ih hothers (step_unpressed hcall hm), step_counter hcall hm,
        executedWords, List.length_append, UInt64.ofNat_add, UInt64.add_assoc]

/-! ## Steps of a running machine -/

/-- A cycle of a running machine that succeeds executes a word. -/
theorem exists_executed_of_running (hmode : m.mode = .running) (hok : m.cycle.result = .ok ()) :
    ∃ w, m.executed? .cycle = some w := by
  cases hfetch : m.fetch with
  | ok word =>
      rw [cycle_of_fetch hmode hfetch] at hok
      exact ⟨word, executed?_cycle_of_fetch hmode hfetch hok⟩
  | error cause =>
      rw [cycle_of_fetch_error hmode hfetch] at hok
      cases hok

theorem executedWords_ofStep (m : Machine) (period number : Nat) :
    m.executedWords (ofStep period number) = (m.executed? .cycle).toList := by
  unfold ofStep
  split
  · simp [executedWords]
  · simp [executedWords]

/-- Steps execute no more words than they are. -/
theorem length_executedWords_le (m : Machine) (period completed count : Nat) :
    (m.executedWords (ofSteps period completed count)).length ≤ count := by
  induction count with
  | zero => exact Nat.le_refl 0
  | succ count ih =>
      rw [ofSteps_add, ofSteps_one, executedWords_append, List.length_append,
        executedWords_ofStep]
      exact Nat.add_le_add ih Option.length_toList_le

/-- A step succeeds if its cycle does. -/
theorem callAll_ofStep (m : Machine) (period number : Nat) :
    (m.callAll (ofStep period number)).result = m.cycle.result := by
  rw [← m.call_cycle]
  cases hcycle : (m.call .cycle).result with
  | error error => rw [ofStep, callAll_cons_of_error _ hcycle, hcycle]
  | ok done =>
      rw [ofStep, callAll_cons_of_ok _ hcycle]
      split
      · rfl
      · rfl

/-- A step leaves what its cycle leaves, ticked if the period divides its number. -/
theorem afterCalls_ofStep (m : Machine) (period number : Nat) :
    m.afterCalls (ofStep period number) =
      if period ∣ number then m.cycle.machine.tick.machine else m.cycle.machine := by
  unfold ofStep
  split
  · rfl
  · rfl

/-- A step of a running machine that executes no wait executes one word, and the machine goes
    on running. -/
theorem running_after_step {number : Nat} (hmode : m.mode = .running)
    (hok : (m.callAll (ofStep period number)).result = .ok ())
    (hwords : ∀ w ∈ m.executedWords (ofStep period number), ¬ w.Waits) :
    (m.afterCalls (ofStep period number)).mode = .running ∧
      (m.executedWords (ofStep period number)).length = 1 := by
  rw [callAll_ofStep] at hok
  obtain ⟨w, hw⟩ := exists_executed_of_running hmode hok
  rw [executedWords_ofStep, hw] at hwords ⊢
  have hnot : ¬ w.Waits := hwords w (List.mem_singleton_self w)
  obtain ⟨hcall, hdone⟩ := call_of_executed hw
  have hcycle : m.cycle = m.execute w := hcall
  have hrunning := (execute_mode hdone hnot).trans hmode
  refine ⟨?_, rfl⟩
  rw [afterCalls_ofStep, hcycle]
  -- a tick does not touch the mode
  split
  · exact hrunning
  · exact hrunning

theorem running_after_steps {count : Nat} (hmode : m.mode = .running)
    (hok : (m.callAll (ofSteps period 0 count)).result = .ok ())
    (hwords : ∀ w ∈ m.executedWords (ofSteps period 0 count), ¬ w.Waits) :
    (m.afterCalls (ofSteps period 0 count)).mode = .running ∧
      (m.executedWords (ofSteps period 0 count)).length = count := by
  -- the last step is taken off, since the ticks depend on the number of the step
  induction count with
  | zero => exact ⟨hmode, rfl⟩
  | succ count ih =>
      rw [ofSteps_add, ofSteps_one, callAll_append_ok_iff] at hok
      rw [ofSteps_add, ofSteps_one, executedWords_append, List.forall_mem_append] at hwords
      obtain ⟨hrunning, hearlier⟩ := ih hok.1 hwords.1
      obtain ⟨hlast, hone⟩ := running_after_step hrunning hok.2 hwords.2
      rw [ofSteps_add, ofSteps_one, afterCalls_append, executedWords_append, List.length_append,
        hearlier, hone]
      exact ⟨hlast, rfl⟩

/-! ## The first wait -/

/-- Whether the step after `before` others is the first that executes a word that waits, and
    `w` is that word. -/
structure FirstWait (m : Machine) (period before : Nat) (w : Word) : Prop where
  executed? : (m.afterCalls (ofSteps period 0 before)).executed? .cycle = some w
  waits : w.Waits
  not_before : ∀ u ∈ m.executedWords (ofSteps period 0 before), ¬ u.Waits

/-- Either no word of some steps waits, or there is a first that does. -/
theorem exists_firstWait (m : Machine) (period count : Nat) :
    (∀ w ∈ m.executedWords (ofSteps period 0 count), ¬ w.Waits) ∨
      ∃ before w, before < count ∧ m.FirstWait period before w := by
  -- the first wait is that of fewer steps if they have one, and otherwise in the last step
  induction count with
  | zero => exact Or.inl nofun
  | succ count ih =>
      rcases ih with hnone | ⟨before, w, hlt, hfirst⟩
      · by_cases hlast :
            ∃ w, (m.afterCalls (ofSteps period 0 count)).executed? .cycle = some w ∧ w.Waits
        · obtain ⟨w, hw, hwaits⟩ := hlast
          exact Or.inr ⟨count, w, Nat.lt_succ_self count, hw, hwaits, hnone⟩
        · refine Or.inl ?_
          rw [ofSteps_add, ofSteps_one, executedWords_append, List.forall_mem_append,
            Nat.zero_add, executedWords_ofStep]
          exact ⟨hnone, fun w hw hwaits => hlast ⟨w, Option.mem_toList.mp hw, hwaits⟩⟩
      · exact Or.inr ⟨before, w, Nat.lt_succ_of_lt hlt, hfirst⟩

/-! ## Steps of a waiting machine -/

/-- Whether `after` is what some ticks leave of a machine: the same, but with both timers lower
    by the number of ticks, and not below zero. -/
structure TickedBy (m after : Machine) (ticks : Nat) : Prop where
  same : after = { m with timers := after.timers }
  delay : after.timers.delay.toNat = m.timers.delay.toNat - ticks
  sound : after.timers.sound.toNat = m.timers.sound.toNat - ticks

variable {register : Nat} {calls : List HostCall}

theorem executed?_of_waiting (hmode : m.mode = .awaitingKey register none) :
    m.executed? .cycle = none := by
  refine executed?_of_not_attempted ?_
  simp only [attempted?, hmode]

/-- Steps of a machine that waits execute nothing, succeed, and change its timers only. -/
theorem callAll_of_waiting (hmode : m.mode = .awaitingKey register none)
    (hcalls : ∀ call ∈ calls, call.Steps) :
    (m.callAll calls).result = .ok () ∧ m.executedWords calls = [] ∧
      m.afterCalls calls = { m with timers := (m.afterCalls calls).timers } := by
  induction calls generalizing m with
  | nil => exact ⟨rfl, rfl, rfl⟩
  | cons call calls ih =>
      obtain ⟨hcall, hothers⟩ := List.forall_mem_cons.mp hcalls
      cases hcall with
      | tick =>
          have hmode' : (m.call .tick).machine.mode = .awaitingKey register none := hmode
          obtain ⟨hok, hwords, hafter⟩ := ih hmode' hothers
          rw [callAll_cons_of_ok calls rfl, executedWords, executed?_tick, afterCalls_cons]
          exact ⟨hok, hwords, hafter⟩
      | cycle =>
          have hcycle : m.call .cycle = .done () m := cycle_of_no_press hmode
          have hcycle_ok : (m.call .cycle).result = .ok () := congrArg Outcome.result hcycle
          obtain ⟨hok, hwords, hafter⟩ := ih hmode hothers
          rw [callAll_cons_of_ok calls hcycle_ok, executedWords, executed?_of_waiting hmode,
            afterCalls_cons, hcycle]
          exact ⟨hok, hwords, hafter⟩

/-- Without keys, a machine that waits does nothing but tick. -/
theorem tickedBy_of_waiting (hmode : m.mode = .awaitingKey register none)
    (hcalls : ∀ call ∈ calls, call.Steps) : m.TickedBy (m.afterCalls calls) (ticks calls) := by
  obtain ⟨-, hwords, hafter⟩ := callAll_of_waiting hmode hcalls
  have hset : ∀ w ∈ m.executedWords calls, ¬ w.SetsTimer := by
    rw [hwords]
    exact nofun
  obtain ⟨hdelay, hsound⟩ := afterCalls_timers (fun call hcall => (hcalls call hcall).drives) hset
  exact ⟨hafter, hdelay, hsound⟩

theorem TickedBy.keeps {after : Machine} {count : Nat} (h : m.TickedBy after count) :
    after.mode = m.mode ∧ after.lastWord = m.lastWord := by
  rw [h.same]
  exact ⟨rfl, rfl⟩

/-! ## Steps with a wait -/

variable {before count : Nat}

/-- The machine at the first wait, before any tick of that step. -/
theorem FirstWait.paused (hfirst : m.FirstWait period before w) :
    let paused := (m.afterCalls (ofSteps period 0 before)).cycle.machine
    paused.mode = .awaitingKey w.x none ∧ paused.lastWord = w := by
  intro paused
  obtain ⟨hcall, hdone⟩ := call_of_executed hfirst.executed?
  have hpaused : paused = ((m.afterCalls (ofSteps period 0 before)).execute w).machine :=
    congrArg Outcome.machine hcall
  rw [hpaused, execute_of_waits hfirst.waits]
  exact ⟨rfl, rfl⟩

/-- After the first wait the steps do nothing but tick. Each step up to it, its own included,
    has executed one word. -/
theorem FirstWait.after_steps (hfirst : m.FirstWait period before w) (hmode : m.mode = .running)
    (hcount : before < count) (hok : (m.callAll (ofSteps period 0 count)).result = .ok ()) :
    let after := m.afterCalls (ofSteps period 0 count)
    let words := m.executedWords (ofSteps period 0 count)
    after.mode = .awaitingKey w.x none ∧ after.lastWord = w ∧
      (m.afterCalls (ofSteps period 0 before)).cycle.machine.TickedBy after
        (count / period - before / period) ∧
      words = m.executedWords (ofSteps period 0 before) ++ [w] ∧ words.length = before + 1 := by
  intro after words
  -- the steps split before the cycle of the wait, so that the tick of its step is in the rest
  obtain ⟨rest, hsteps, hrest, hticks⟩ := HostCall.ofSteps_of_lt period hcount
  rw [hsteps, callAll_append_ok_iff] at hok
  obtain ⟨-, hearlier⟩ := running_after_steps hmode hok.1 hfirst.not_before
  obtain ⟨hwaiting, hlast⟩ := hfirst.paused
  have hticked := tickedBy_of_waiting hwaiting hrest
  have hafter : after = (m.afterCalls (ofSteps period 0 before)).cycle.machine.afterCalls rest := by
    rw [← call_cycle, ← afterCalls_cons, ← afterCalls_append, ← hsteps]
  rw [hticks, ← hafter] at hticked
  obtain ⟨hmode', hlast'⟩ := hticked.keeps
  have hwords : words = m.executedWords (ofSteps period 0 before) ++ [w] := by
    show m.executedWords (ofSteps period 0 count) = _
    rw [hsteps, executedWords_append, executedWords, hfirst.executed?, call_cycle,
      (callAll_of_waiting hwaiting hrest).2.1]
    rfl
  refine ⟨hmode'.trans hwaiting, hlast'.trans hlast, hticked, hwords, ?_⟩
  rw [hwords, List.length_append, hearlier, List.length_singleton]

end Machine

/-! ## Runs of a file -/

namespace Headless

variable {files : FileSystem} {config : Config} {path : String} {count : Nat}

theorem prepare_counts_from_zero (entropy : RandomStream.Generator)
    (h : refusal? files config path count = none) :
    (prepare files entropy config path).machine.mode = .running ∧
      (prepare files entropy config path).machine.counter = 0 := by
  obtain ⟨-, hspeed, program, hfile, hsize⟩ := exists_program_of_accepted h
  rw [prepare_of_accepted entropy hspeed hfile hsize]
  exact ⟨rfl, rfl⟩

/-- A machine that a run gives back has counted the words that the run has executed. -/
theorem counter_of_returned {m : Machine} {entropy : RandomStream.Generator}
    (h : (run files entropy config path count).returned = .ok m) :
    m.counter = .ofNat (executedWords files entropy config path count).length := by
  obtain ⟨hrunning, hzero⟩ := prepare_counts_from_zero entropy (accepted_of_returned h)
  obtain ⟨-, hcalls, rfl⟩ := calls_of_returned h
  rw [Machine.counter_afterCalls (fun _ => HostCall.steps_of_mem_ofSteps)
    (Machine.unpressed_of_running hrunning), hzero, UInt64.zero_add, executedWords, hcalls]

/-- Take a run that gives back a machine. If it executes no word FX0A, the machine is running and
    has counted every cycle. Otherwise there is a first cycle that executes such a word. The
    machine waits for a key for the VX of that word, which is the last that it has executed, and
    has counted the cycles up to that one. It is what that cycle left, but for the ticks from
    the step of the cycle on. No other word FX0A is executed, and a run of the same file for any
    number of cycles more does not fail. A sixtieth of the speed is the number of cycles from one
    tick to the next, but at least one, and the counter goes around at 2^64. -/
theorem run_stays_at_first_wait {m : Machine} {entropy : RandomStream.Generator}
    (h : (run files entropy config path count).returned = .ok m) :
    let period := max 1 (config.speed / 60)
    let start := (prepare files entropy config path).machine
    let words := executedWords files entropy config path count
    ((∀ w ∈ words, ¬ w.Waits) → m.mode = .running ∧ m.counter = .ofNat count) ∧
    ((∃ w ∈ words, w.Waits) →
      ∃ before w, before < count ∧ start.FirstWait period before w) ∧
    ∀ before w, before < count → start.FirstWait period before w →
      let earlier := HostCall.ofSteps period 0 before
      m.mode = .awaitingKey w.x none ∧ m.counter = .ofNat (before + 1) ∧ m.lastWord = w ∧
      (start.afterCalls earlier).cycle.machine.TickedBy m
        (count / period - before / period) ∧
      words = start.executedWords earlier ++ [w] ∧
      ∀ more, (run files entropy config path (count + more)).result = .ok () := by
  intro period start words
  have hperiod : config.period = period := rfl
  have haccepted := accepted_of_returned h
  have hcounter : m.counter = .ofNat words.length := counter_of_returned h
  obtain ⟨hok, hcalls, hafter⟩ := calls_of_returned h
  rw [hperiod] at hok hcalls hafter
  subst hafter
  have hwords : words = start.executedWords (HostCall.ofSteps period 0 count) :=
    congrArg start.executedWords hcalls
  have hrunning : start.mode = .running := (prepare_counts_from_zero entropy haccepted).1
  refine ⟨?_, ?_, ?_⟩
  · intro hnone
    rw [hwords] at hnone hcounter
    obtain ⟨hmode, hlength⟩ := Machine.running_after_steps hrunning hok hnone
    rw [hlength] at hcounter
    exact ⟨hmode, hcounter⟩
  · rintro ⟨w, hw, hwaits⟩
    rw [hwords] at hw
    exact (start.exists_firstWait period count).resolve_left fun hnone => hnone w hw hwaits
  · intro before w hcount hfirst earlier
    obtain ⟨hwaiting, hlast, hticked, hexecuted, hlength⟩ :=
      hfirst.after_steps hrunning hcount hok
    rw [hwords, hlength] at hcounter
    refine ⟨hwaiting, hcounter, hlast, hticked, hwords.trans hexecuted, ?_⟩
    -- the steps of the longer run are these, and steps of a machine that waits
    intro more
    have hlonger := (refusal?_add (Nat.zero_lt_of_lt hcount) more).trans haccepted
    rw [(run_of_accepted entropy hlonger).1, hperiod, HostCall.ofSteps_add,
      Machine.callAll_append_ok_iff]
    exact ⟨hok, (Machine.callAll_of_waiting hwaiting fun _ => HostCall.steps_of_mem_ofSteps).1⟩

/-- A program that sets the delay timer to five and then waits for a key for V3. -/
def delaysAndWaits : List UInt8 := [0x60, 0x05, 0xF0, 0x15, 0xF3, 0x0A]

/-- A tick after every third cycle. -/
def everyThird : Config := { Config.standard with speed := 180, seed := some 7 }

/-- The machine of that program after one cycle. -/
def atDelay : Machine :=
  { ready everyThird "rom" delaysAndWaits (.ofSeed 7) with
    registers := { Registers.initial.set 0 5 with pc := 0x202 }
    lastWord := 0x6005
    counter := 1 }

/-- The machine of that program after two cycles. -/
def atWait : Machine :=
  { atDelay with
    registers := { atDelay.registers with pc := 0x204 }
    timers := ⟨5, 0⟩
    lastWord := 0xF015
    counter := 2 }

/-- The machine of that program after its third cycle, without a tick. -/
def atV3 : Machine :=
  { atWait with mode := .awaitingKey 3 none, lastWord := 0xF30A, counter := 3 }

theorem calls_delaysAndWaits :
    let start := ready everyThird "rom" delaysAndWaits (.ofSeed 7)
    (start.call .cycle = ⟨.ok (), atDelay, [start.startRecord 0x6005]⟩ ∧
      start.executed? .cycle = some 0x6005) ∧
    (atDelay.call .cycle = ⟨.ok (), atWait, [atDelay.startRecord 0xF015]⟩ ∧
      atDelay.executed? .cycle = some 0xF015) ∧
    atWait.call .cycle = ⟨.ok (), atV3, [atWait.startRecord 0xF30A]⟩ ∧
      atWait.executed? .cycle = some 0xF30A := by
  intro start
  have hstart : start.fetch = .ok 0x6005 :=
    Machine.fetch_program 0 rfl rfl (by decide) (by decide) (by decide)
  have hdelay : atDelay.fetch = .ok 0xF015 :=
    Machine.fetch_program 2 rfl rfl (by decide) (by decide) (by decide)
  have hwait : atWait.fetch = .ok 0xF30A :=
    Machine.fetch_program 4 rfl rfl (by decide) (by decide) (by decide)
  exact ⟨Machine.call_of_no_obstacle rfl hstart rfl rfl,
    Machine.call_of_no_obstacle rfl hdelay rfl rfl,
    Machine.call_of_no_obstacle rfl hwait rfl rfl⟩

/-- The third step ticks, and so does the sixth, although the machine waits by then. -/
theorem run_stays_at_first_wait_everyThird :
    let files : FileSystem := fun _ => .ok delaysAndWaits
    let start := (prepare files (.ofSeed 0) everyThird "rom").machine
    let m := (run files (.ofSeed 0) everyThird "rom" 7).machine
    ((run files (.ofSeed 0) everyThird "rom" 7).returned = .ok m ∧
      2 < 7 ∧ start.FirstWait 3 2 0xF30A) ∧
    m.mode = .awaitingKey 3 none ∧ m.counter = 3 ∧ m.lastWord = 0xF30A ∧
    m.timers.delay.toNat = 3 ∧
    executedWords files (.ofSeed 0) everyThird "rom" 7 = [0x6005, 0xF015, 0xF30A] ∧
    ∀ more, (run files (.ofSeed 0) everyThird "rom" (7 + more)).result = .ok () := by
  intro files start m
  obtain ⟨⟨hfirst, hfirst_executed⟩, ⟨hsecond, hsecond_executed⟩, hthird, hthird_executed⟩ :=
    calls_delaysAndWaits
  have hprepare : prepare files (.ofSeed 0) everyThird "rom" =
      ⟨.ok (), ready everyThird "rom" delaysAndWaits (.ofSeed 7),
        [.programLoaded 6, .programReady "rom"]⟩ :=
    prepare_of_accepted _ (by decide) rfl (by decide)
  have hstart : start = ready everyThird "rom" delaysAndWaits (.ofSeed 7) := by
    simp only [start, hprepare]
  rw [← hstart] at hfirst hfirst_executed
  have hearlier : HostCall.ofSteps 3 0 2 = [.cycle, .cycle] := rfl
  have hafter : start.afterCalls [.cycle, .cycle] = atWait := by
    rw [Machine.afterCalls_cons, hfirst, Machine.afterCalls_cons, hsecond]
    rfl
  have hwords : start.executedWords [.cycle, .cycle] = [0x6005, 0xF015] := by
    simp [Machine.executedWords, hfirst, hfirst_executed, hsecond_executed]
  have hwait : start.FirstWait 3 2 0xF30A := by
    refine ⟨?_, by decide, ?_⟩
    · rw [hearlier, hafter]
      exact hthird_executed
    · have hload : ¬ Word.Waits 0x6005 := by decide
      have hset : ¬ Word.Waits 0xF015 := by decide
      rw [hearlier, hwords, List.forall_mem_cons, List.forall_mem_singleton]
      exact ⟨hload, hset⟩
  have hok : (start.callAll (HostCall.ofSteps everyThird.period 0 7)).result = .ok () := by
    have hsteps : HostCall.ofSteps everyThird.period 0 7 =
        [.cycle, .cycle, .cycle, .tick, .cycle, .cycle, .cycle, .tick, .cycle] := rfl
    have hwaits : (atV3.callAll [.tick, .cycle, .cycle, .cycle, .tick, .cycle]).result = .ok () :=
      (Machine.callAll_of_waiting rfl (by simp [HostCall.Steps.tick, HostCall.Steps.cycle])).1
    rw [hsteps, Machine.callAll_cons_of_ok _ (congrArg Outcome.result hfirst), hfirst,
      Machine.callAll_cons_of_ok _ (congrArg Outcome.result hsecond), hsecond,
      Machine.callAll_cons_of_ok _ (congrArg Outcome.result hthird), hthird]
    exact hwaits
  have haccepted : refusal? files everyThird "rom" 7 = none := by decide
  have hreturned : (run files (.ofSeed 0) everyThird "rom" 7).returned = .ok m :=
    Outcome.returned_eq_ok_iff.mpr ⟨(run_of_accepted _ haccepted).1.trans hok, rfl⟩
  have hperiod : max 1 (everyThird.speed / 60) = 3 := rfl
  obtain ⟨-, -, hstays⟩ := run_stays_at_first_wait hreturned
  rw [hperiod] at hstays
  obtain ⟨hmode, hcounter, hlast, hticked, hexecuted, hmore⟩ := hstays 2 0xF30A (by decide) hwait
  rw [hearlier, hafter, ← Machine.call_cycle, hthird] at hticked
  rw [hearlier, hwords] at hexecuted
  exact ⟨⟨hreturned, by decide, hwait⟩, hmode, hcounter, hlast, hticked.delay, hexecuted, hmore⟩

end Headless

end Chip8
