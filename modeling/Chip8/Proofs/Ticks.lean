/-
  Chip8.Proofs.Ticks

  The timers count ticks. As long as a program does not set them, the timers depend on
  the number of ticks alone, whatever else happens between the ticks and whether or not
  the machine waits for a key (`afterCalls_timers`). The host is called back at the
  first ticks, as many as the sound timer had left (`countP_sounded`), and a program
  that looks at the delay timer finds what the ticks so far have left of it.
-/
import Chip8.Proofs.Trace

namespace Chip8

/-! ## Calls and words -/

/-- Whether a call is a tick. -/
def HostCall.isTick : HostCall → Bool
  | .tick => true
  | _ => false

/-- Number of ticks among some calls. -/
def HostCall.ticks (calls : List HostCall) : Nat :=
  calls.countP isTick

theorem HostCall.ticks_cons (call : HostCall) (calls : List HostCall) :
    ticks (call :: calls) = ticks calls + call.isTick.toNat := by
  rw [ticks, List.countP_cons, ticks]
  cases call.isTick with
  | _ => rfl

/-- Whether a word sets a timer: FX15 and FX18. -/
def Word.SetsTimer (w : Word) : Prop :=
  w.family = 0xF ∧ (w.byte = 0x15 ∨ w.byte = 0x18)

/-! ## One call -/

namespace Machine

variable {m : Machine}

theorem setKey_timers (m : Machine) (number : Nat) (isDown : Bool) :
    (m.setKey number isDown).machine.timers = m.timers := by
  rw [m.setKey_machine number isDown]
  rfl

/-- A cycle leaves the timers alone if it executes no word that sets one. -/
theorem cycle_timers (hset : ∀ w, m.executed? .cycle = some w → ¬ w.SetsTimer) :
    m.cycle.machine.timers = m.timers := by
  have hdelay : m.cycle.machine.timers.delay = m.timers.delay := by
    rcases m.cycle_sameIn .delay nofun nofun with hsame | ⟨w, hw, hchange⟩
    · exact hsame
    · cases hchange with
      | delay hfamily hbyte => exact absurd ⟨hfamily, Or.inl hbyte⟩ (hset w hw)
  have hsound : m.cycle.machine.timers.sound = m.timers.sound := by
    rcases m.cycle_sameIn .sound nofun nofun with hsame | ⟨w, hw, hchange⟩
    · exact hsame
    · cases hchange with
      | sound hfamily hbyte => exact absurd ⟨hfamily, Or.inr hbyte⟩ (hset w hw)
  calc m.cycle.machine.timers
    _ = ⟨m.cycle.machine.timers.delay, m.cycle.machine.timers.sound⟩ := rfl
    _ = ⟨m.timers.delay, m.timers.sound⟩ := by rw [hdelay, hsound]

/-- While a program runs, only ticks change the timers, unless a word sets them. -/
theorem call_timers {call : HostCall} (hdrives : call.Drives)
    (hset : ∀ w, m.executed? call = some w → ¬ w.SetsTimer) :
    (m.call call).machine.timers = if call.isTick then m.timers.tick else m.timers := by
  cases hdrives with
  | tick => rfl
  | skipInstruction => rfl
  | setKey number isDown => exact m.setKey_timers number isDown
  | cycle => exact cycle_timers hset

/-- A word FX07 puts the delay timer into VX. -/
theorem execute_loadDelay {w : Word} (hfamily : w.family = 0xF) (hbyte : w.byte = 0x07)
    (h : (m.execute w).result = .ok ()) :
    (m.execute w).machine.registers.get w.x = m.timers.delay := by
  have hdecode : Instruction.decode w = .loadDelay w.x := by
    rw [Instruction.decode_device hfamily, hbyte]
    rfl
  rcases execute_of_ok h with ⟨-, hmachine⟩ | ⟨hunknown, -, -⟩
  · rw [hmachine, hdecode]
    exact (m.registers.get_set ..).trans (if_pos rfl)
  · rw [hdecode] at hunknown
    cases hunknown

/-! ## Any number of calls -/

/-- The sound is on at a tick exactly if its timer is above zero. -/
theorem report_sounded (call : HostCall) :
    (m.report call).sounded = (call.isTick && decide (0 < m.timers.sound.toNat)) := by
  cases call with
  | tick => exact decide_eq_decide.mpr UInt8.lt_iff_toNat_lt
  | _ => rfl

/-- One call takes from a timer as many ticks as it is, and no more than there are. -/
theorem toNat_timers_call {call : HostCall} (hdrives : call.Drives)
    (hset : ∀ w, m.executed? call = some w → ¬ w.SetsTimer) :
    (m.call call).machine.timers.delay.toNat = m.timers.delay.toNat - call.isTick.toNat ∧
    (m.call call).machine.timers.sound.toNat = m.timers.sound.toNat - call.isTick.toNat := by
  rw [call_timers hdrives hset]
  cases call.isTick with
  | true => exact ⟨Timers.toNat_countDown _, Timers.toNat_countDown _⟩
  | false => exact ⟨rfl, rfl⟩

variable {calls : List HostCall}

/-- What a program that sets no timer leaves of the timers is what the ticks leave. -/
theorem afterCalls_timers (hdrives : ∀ call ∈ calls, call.Drives)
    (hset : ∀ w ∈ m.executedWords calls, ¬ w.SetsTimer) :
    (m.afterCalls calls).timers.delay.toNat =
      m.timers.delay.toNat - HostCall.ticks calls ∧
    (m.afterCalls calls).timers.sound.toNat =
      m.timers.sound.toNat - HostCall.ticks calls := by
  induction calls generalizing m with
  | nil => exact ⟨rfl, rfl⟩
  | cons call calls ih =>
      obtain ⟨hdrive, hdrives⟩ := List.forall_mem_cons.mp hdrives
      obtain ⟨hset, hsets⟩ := (m.forall_executedWords_cons call calls).mp hset
      have hfirst := toNat_timers_call hdrive hset
      have hothers := ih hdrives hsets
      rw [afterCalls_cons, HostCall.ticks_cons]
      omega

/-- The host is called back at the first ticks, until the sound timer is at zero. -/
theorem countP_sounded (hdrives : ∀ call ∈ calls, call.Drives)
    (hset : ∀ w ∈ m.executedWords calls, ¬ w.SetsTimer) :
    (m.reports calls).countP Report.sounded =
      min (HostCall.ticks calls) m.timers.sound.toNat := by
  -- a tick takes one from the sound timer exactly if it calls back
  induction calls generalizing m with
  | nil => exact (Nat.zero_min _).symm
  | cons call calls ih =>
      obtain ⟨hdrive, hdrives⟩ := List.forall_mem_cons.mp hdrives
      obtain ⟨hset, hsets⟩ := (m.forall_executedWords_cons call calls).mp hset
      have hfirst := (toNat_timers_call hdrive hset).2
      have hothers := ih hdrives hsets
      rw [reports, List.countP_cons, HostCall.ticks_cons, hothers, hfirst, report_sounded]
      cases call.isTick with
      | false => simp
      | true =>
          by_cases hsound : 0 < m.timers.sound.toNat
          · simp [hsound]
            omega
          · simp [hsound]
            omega

/-- Take a run of cycles, ticks, key events and skips in any order in which no word sets a
    timer. After it both timers are lower by the number of ticks, but not below zero, and
    the host was called back at as many ticks as there were, up to the sound timer at the
    start. A word FX07 puts into VX the delay timer at the start less the ticks so far, but
    not below zero. -/
theorem timers_count_ticks (hdrives : ∀ call ∈ calls, call.Drives)
    (hset : ∀ w ∈ m.executedWords calls, ¬ w.SetsTimer) :
    let after := m.afterCalls calls
    after.timers.delay.toNat = m.timers.delay.toNat - HostCall.ticks calls ∧
    after.timers.sound.toNat = m.timers.sound.toNat - HostCall.ticks calls ∧
    (m.reports calls).countP Report.sounded =
      min (HostCall.ticks calls) m.timers.sound.toNat ∧
    ∀ before call later w, calls = before ++ call :: later →
      (m.afterCalls before).executed? call = some w → w.family = 0xF → w.byte = 0x07 →
      ((m.afterCalls (before ++ [call])).registers.get w.x).toNat =
        m.timers.delay.toNat - HostCall.ticks before := by
  intro after
  obtain ⟨hdelay, hsound⟩ := afterCalls_timers hdrives hset
  refine ⟨hdelay, hsound, countP_sounded hdrives hset, ?_⟩
  rintro before call later w rfl hexecuted hfamily hbyte
  -- the calls before the word are a run of the same kind
  rw [executedWords_append, List.forall_mem_append] at hset
  have hbefore := (afterCalls_timers (List.forall_mem_append.mp hdrives).1 hset.1).1
  have hok := (call_of_executed hexecuted).2
  rw [afterCalls_concat_of_executed hexecuted, execute_loadDelay hfamily hbyte hok, hbefore]

/-- A machine that does nothing but put the delay timer into V1. -/
def readingDelay : Machine :=
  { initial (.ofSeed 0) with memory := .filled 0xF1 0x07, timers := ⟨2, 1⟩ }

theorem executed_readingDelay :
    (readingDelay.call .tick).machine.executed? .cycle = some 0xF107 := by
  have hmemory : (readingDelay.call .tick).machine.memory = .filled 0xF1 0x07 := rfl
  have hfetch := fetch_filled hmemory (by decide) (by decide)
  exact executed?_cycle_of_fetch rfl hfetch rfl

/-- Of the three ticks the first calls back, and one is left on the delay timer when the
    machine looks. -/
theorem timers_count_ticks_readingDelay :
    let calls : List HostCall := [.tick, .cycle, .setKey 16 true, .tick, .tick]
    ((∀ call ∈ calls, call.Drives) ∧ readingDelay.executedWords calls = [0xF107]) ∧
    (readingDelay.afterCalls calls).timers.delay.toNat = 0 ∧
    (readingDelay.reports calls).countP Report.sounded = 1 ∧
    ((readingDelay.afterCalls [.tick, .cycle]).registers.get 1).toNat = 1 := by
  intro calls
  have hdrives : ∀ call ∈ calls, call.Drives := by
    simp [calls, HostCall.Drives.tick, HostCall.Drives.cycle, HostCall.Drives.setKey]
  have hwords : readingDelay.executedWords calls = [0xF107] := by
    simp [calls, executedWords, executed_readingDelay]
  have hset : ∀ w ∈ readingDelay.executedWords calls, ¬ w.SetsTimer := by
    rw [hwords]
    rintro w hw ⟨-, hbyte⟩
    rw [List.mem_singleton.mp hw] at hbyte
    exact absurd hbyte (by decide)
  obtain ⟨hdelay, -, hsounded, hread⟩ := timers_count_ticks hdrives hset
  exact ⟨⟨hdrives, hwords⟩, hdelay, hsounded,
    hread [.tick] .cycle _ 0xF107 rfl executed_readingDelay rfl rfl⟩

end Machine

end Chip8
