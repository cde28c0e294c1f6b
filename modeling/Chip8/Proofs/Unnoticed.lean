/-
  Chip8.Proofs.Unnoticed

  Changes that a program does not notice. A `Change` is made to what surrounds a program:
  the timers, the keys, the dialect and the random stream. An instruction ignores a change
  if it does the same before it as after it (`Instruction.Ignores`); no obstacle depends on
  the surroundings. So a cycle that executes nothing but words that ignore a change comes to
  the same result before the change and after it, and leaves machines that differ by the
  change (`cycle_changed`).
-/
import Chip8.Proofs.Trace

namespace Chip8

open RandomStream (Generator)

/-- A change to what surrounds a program. -/
structure Change where
  timers : Timers → Timers := id
  keypad : Keypad → Keypad := id
  dialect : Dialect → Dialect := id
  random : Generator → Generator := id

/-- A change of what only instructions look at, the dialect and the random stream. -/
def Change.hidden (dialect : Dialect → Dialect) (random : Generator → Generator) : Change :=
  { dialect, random }

/-- The machine after a change. -/
def Machine.changed (m : Machine) (c : Change) : Machine :=
  { m with
    timers := c.timers m.timers
    keypad := c.keypad m.keypad
    dialect := c.dialect m.dialect
    random := c.random m.random }

/-- Whether an instruction does the same on a machine before a change as after it. -/
structure Instruction.Ignores (i : Instruction) (c : Change) (m : Machine) : Prop where
  flow : i.flow (m.changed c) = i.flow m
  work : i.work (m.changed c) = (i.work m).changed c

/-- The outcomes of one call before a change and after it: the same result, and machines
    that differ by the change. -/
structure Outcome.ChangedBy (c : Change) (before after : Outcome Unit) : Prop where
  result : after.result = before.result
  machine : after.machine = before.machine.changed c

theorem Instruction.obstacle?_changed (i : Instruction) (m : Machine) (c : Change) :
    i.obstacle? (m.changed c) = i.obstacle? m := by
  cases i with
  | _ => rfl

namespace Machine

variable {m : Machine} {c : Change}

/-! ## One cycle -/

theorem follow_changed (m : Machine) (c : Change) (flow : Flow) :
    (m.changed c).follow flow = (m.follow flow).changed c := by
  cases flow with
  | _ => rfl

theorem performed_changed {i : Instruction} (h : i.Ignores c m) :
    (m.changed c).performed i = (m.performed i).changed c := by
  rw [performed, h.flow, h.work, follow_changed, performed]

theorem execute_changed {w : Word}
    (h : (m.execute w).result = .ok () → (Instruction.decode w).Ignores c m) :
    Outcome.ChangedBy c (m.execute w) ((m.changed c).execute w) := by
  have hsame := (Instruction.decode w).obstacle?_changed m c
  cases hobstacle : (Instruction.decode w).obstacle? m with
  | none =>
      have hbefore := execute_of_no_obstacle hobstacle
      have hperformed := performed_changed (h (congrArg Outcome.result hbefore))
      rw [hbefore, execute_of_no_obstacle (hsame.trans hobstacle), hperformed]
      exact ⟨rfl, rfl⟩
  | some cause =>
      rw [execute_of_obstacle hobstacle, execute_of_obstacle (hsame.trans hobstacle)]
      -- a word is passed over, or fails, whatever surrounds it
      have hpolicy : (m.changed c).unknownWords = m.unknownWords := rfl
      rw [hpolicy]
      by_cases hskip : cause = .unknownWord w ∧ m.unknownWords = .skip
      · rw [if_pos hskip, if_pos hskip]
        exact ⟨rfl, rfl⟩
      · rw [if_neg hskip, if_neg hskip]
        exact ⟨rfl, rfl⟩

/-- A change that is ignored by the word that a cycle executes, if it executes one, makes no
    other difference to the cycle than itself. -/
theorem cycle_changed
    (h : ∀ w, m.executed? .cycle = some w → (Instruction.decode w).Ignores c m) :
    Outcome.ChangedBy c m.cycle (m.changed c).cycle := by
  cases hmode : m.mode with
  | running =>
      have hmode' : (m.changed c).mode = .running := hmode
      cases hfetch : m.fetch with
      | ok w =>
          have hfetch' : (m.changed c).fetch = .ok w := hfetch
          rw [cycle_of_fetch hmode hfetch, cycle_of_fetch hmode' hfetch']
          exact execute_changed fun hok => h w (executed?_cycle_of_fetch hmode hfetch hok)
      | error cause =>
          have hfetch' : (m.changed c).fetch = .error cause := hfetch
          rw [cycle_of_fetch_error hmode hfetch, cycle_of_fetch_error hmode' hfetch']
          exact ⟨rfl, rfl⟩
  | awaitingKey register pressed =>
      have hmode' : (m.changed c).mode = .awaitingKey register pressed := hmode
      cases pressed with
      | none =>
          rw [cycle_of_no_press hmode, cycle_of_no_press hmode']
          exact ⟨rfl, rfl⟩
      | some key =>
          by_cases hlt : register < 16
          · rw [cycle_of_press hmode hlt, cycle_of_press hmode' hlt]
            exact ⟨rfl, rfl⟩
          · have hle := Nat.not_lt.mp hlt
            rw [cycle_of_press_out_of_range hmode hle, cycle_of_press_out_of_range hmode' hle]
            exact ⟨rfl, rfl⟩

/-! ## Any call that drives a program -/

variable {dialect : Dialect → Dialect} {random : Generator → Generator} {call : HostCall}

/-- A hidden change makes no other difference to a call than itself, if the word that the
    call executes ignores it. -/
theorem call_changed (hdrives : call.Drives)
    (h : ∀ w, m.executed? call = some w →
      (Instruction.decode w).Ignores (.hidden dialect random) m) :
    Outcome.ChangedBy (.hidden dialect random) (m.call call)
      ((m.changed (.hidden dialect random)).call call) := by
  cases hdrives with
  | cycle => exact cycle_changed h
  | tick | skipInstruction => exact ⟨rfl, rfl⟩
  | setKey number isDown =>
      by_cases hlt : number < 16
      · simp only [Machine.call, setKey_of_lt _ isDown hlt]
        exact ⟨rfl, rfl⟩
      · simp only [Machine.call, setKey_of_le _ isDown (Nat.not_lt.mp hlt)]
        exact ⟨rfl, rfl⟩

theorem attempted?_changed (m : Machine) (c : Change) (call : HostCall) :
    (m.changed c).attempted? call = m.attempted? call := by
  cases call with
  | _ => rfl

theorem executed?_changed (h : ((m.changed c).call call).result = (m.call call).result) :
    (m.changed c).executed? call = m.executed? call := by
  rw [executed?, executed?, h, attempted?_changed]

theorem report_changed
    (h : ((m.changed (.hidden dialect random)).call call).result = (m.call call).result) :
    (m.changed (.hidden dialect random)).report call = m.report call := by
  cases call with
  | tick => rfl
  | _ => exact congrArg (Report.mk · false) h

end Machine

end Chip8
