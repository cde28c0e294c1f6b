/-
  Chip8.Proofs.StandingFault

  Faults that stand. Whether a cycle fails, and with which error, depends on nothing that a
  host changes with ticks and keys (`cycle_result_hosted`), and no press is kept by a machine
  whose cycle fails (`isSettled_of_fault`). So events leave such a machine as it was, but for
  its keys and timers, and its cycle fails as before (`afterEvents_of_fault`). The host ends
  this with a skip of the instruction (`fault_stands_until_skip`).
-/
import Chip8.Proofs.Interchange

namespace Chip8

/-! ## Events without their cycles -/

/-- Whether an event is a cycle. -/
def Event.isCycle : Event → Bool
  | .cycle => true
  | .tick | .setKey .. => false

/-- The events that are not cycles, in order. -/
def Event.withoutCycles (events : List Event) : List Event :=
  events.filter fun event => !event.isCycle

/-- Where a cycle changes nothing, events come to the same without their cycles. -/
theorem Event.foldl_withoutCycles {α : Type} {respond : α → Event → α}
    (h : ∀ a, respond a .cycle = a) (events : List Event) (a : α) :
    (Event.withoutCycles events).foldl respond a = events.foldl respond a := by
  have hstep : (fun a event => if !event.isCycle then respond a event else a) = respond := by
    funext a event
    cases event with
    | cycle => exact (h a).symm
    | tick | setKey => rfl
  rw [withoutCycles, List.foldl_filter, hstep]

/-- What events do to what surrounds a program. -/
def Change.hosted (events : List Event) : Change :=
  { timers := fun t => t.after events, keypad := fun pad => pad.after events }

namespace Machine

variable {m : Machine} {error : Error}

/-- Cycles move no key and tick no timer. -/
theorem hosted_withoutCycles (m : Machine) (events : List Event) :
    m.hosted (Event.withoutCycles events) = m.hosted events := by
  have hkeypad : m.keypad.after (Event.withoutCycles events) = m.keypad.after events :=
    Event.foldl_withoutCycles (fun _ => rfl) events m.keypad
  have htimers : m.timers.after (Event.withoutCycles events) = m.timers.after events :=
    Event.foldl_withoutCycles (fun _ => rfl) events m.timers
  rw [hosted, hosted, hkeypad, htimers]

/-! ## One event -/

/-- A machine that waits for a press cannot fail, so no press is kept where a cycle fails. -/
theorem isSettled_of_fault (h : m.cycle.result = .error error) : m.mode.isSettled = true := by
  cases hmode : m.mode with
  | running => rfl
  | awaitingKey register pressed =>
      cases pressed with
      | some key => rfl
      | none =>
          rw [cycle_of_no_press hmode] at h
          cases h

/-- A fault depends neither on the keys nor on the timers. -/
theorem cycle_result_hosted (h : m.cycle.result = .error error) (events : List Event) :
    (m.hosted events).cycle.result = .error error := by
  have hnone : m.executed? .cycle = none := executed?_of_error h
  -- a cycle that fails executes no word, so none has to ignore the change
  have hchanged : Outcome.ChangedBy (.hosted events) m.cycle (m.hosted events).cycle := by
    refine cycle_changed fun w hw => ?_
    rw [hnone] at hw
    cases hw
  exact hchanged.result.trans h

theorem call_of_fault (h : m.cycle.result = .error error) (event : Event) :
    (m.call event.call).machine = m.hosted [event] := by
  by_cases hcycle : event = .cycle
  · subst hcycle
    exact cycle_machine_of_error h
  · rw [m.call_of_ne_cycle hcycle, Mode.respond_of_settled (isSettled_of_fault h)]
    rfl

/-! ## Any number of events -/

theorem afterEvents_of_fault (h : m.cycle.result = .error error) (events : List Event) :
    m.afterEvents events = m.hosted events := by
  -- each event leaves a machine whose cycle fails with the same error
  induction events generalizing m with
  | nil => rfl
  | cons event events ih =>
      have hafter := ih (cycle_result_hosted h [event])
      calc m.afterEvents (event :: events)
        _ = (m.hosted [event]).afterEvents events := by rw [afterEvents_cons, call_of_fault h]
        _ = (m.hosted [event]).hosted events := hafter
        _ = m.hosted (event :: events) := (m.hosted_append [event] events).symm

theorem skipInstruction_eq (m : Machine) :
    m.skipInstruction =
      { m with
        registers := { m.registers with pc := .ofNat ((m.registers.pc.toNat + 2) % 4096) }
        mode := .running } := by
  rw [skipInstruction, advance, Registers.advance, Registers.setPc, Word.address_add]
  rfl

/-- Where a cycle fails, every cycle among any events that follow fails with the same error.
    The events change nothing but the keys and the timers, and change these as they would
    without the cycles. When the host then skips the instruction, the machine runs, two bytes
    further and around the end of memory, and is otherwise the same. -/
theorem fault_stands_until_skip (h : m.cycle.result = .error error) (events : List Event) :
    let after := m.afterEvents events
    (∀ before later, events = before ++ .cycle :: later →
      (m.afterEvents before).cycle.result = .error error) ∧
    after.cycle.result = .error error ∧
    after = { m with keypad := after.keypad, timers := after.timers } ∧
    after = m.afterEvents (Event.withoutCycles events) ∧
    after.skipInstruction =
      { after with
        registers := { m.registers with pc := .ofNat ((m.registers.pc.toNat + 2) % 4096) }
        mode := .running } := by
  intro after
  have hfails : ∀ events, (m.afterEvents events).cycle.result = .error error := by
    intro events
    rw [afterEvents_of_fault h events]
    exact cycle_result_hosted h events
  have hafter : after = m.hosted events := afterEvents_of_fault h events
  refine ⟨fun before later _ => hfails before, hfails events, ?_, ?_, ?_⟩
  · rw [hafter]
    rfl
  · rw [hafter, afterEvents_of_fault h, hosted_withoutCycles]
  · rw [skipInstruction_eq, hafter]
    rfl

/-- A machine at the end of memory that has kept a press for a register that there is not. -/
def waitingForV16 : Machine :=
  { initial (.ofSeed 0) with
    registers := { Registers.initial with pc := 0xFFE }
    timers := ⟨2, 1⟩
    mode := .awaitingKey 16 (some 5)
    lastWord := 0xF30A }

/-- The fault names the word before it however often the host tries, and the skip goes around
    the end of memory. -/
theorem fault_stands_until_skip_waitingForV16 :
    let fault := Error.fault 0xF30A 0xFFE (.invalidRegister 16)
    let events : List Event := [.cycle, .tick, .setKey 5 true, .cycle, .setKey 5 false, .tick]
    let after := waitingForV16.afterEvents events
    waitingForV16.cycle.result = .error fault ∧ after.cycle.result = .error fault ∧
    after.timers = ⟨0, 0⟩ ∧
    after.skipInstruction.mode = .running ∧ after.skipInstruction.registers.pc = 0 := by
  intro fault events after
  have hfault : waitingForV16.cycle.result = .error fault := by
    have hmode : waitingForV16.mode = .awaitingKey 16 (some 5) := rfl
    rw [cycle_of_press_out_of_range hmode (by decide)]
    rfl
  obtain ⟨-, hstands, -, -, hskip⟩ := fault_stands_until_skip hfault events
  refine ⟨hfault, hstands, rfl, ?_, ?_⟩
  · rw [hskip]
  · rw [hskip]
    rfl

end Machine

end Chip8
