/-
  Chip8.Machine.Run

  Many cycles in a row, up to a limit or the first error, with the timers ticking
  at a fixed distance from each other.
-/
import Chip8.Machine.Execute
import Chip8.Machine.Host

namespace Chip8

/-- A machine after a number of cycles. -/
structure Run where
  machine : Machine
  /-- Number of cycles that succeeded. -/
  completed : Nat
  /-- The error that ended the run before its limit, if one did. -/
  error? : Option Error
  log : Array Record

namespace Machine

/-- Takes up a run that has `completed` cycles and a log behind it, for at most
    `limit` more cycles. The first error ends it. -/
def runFrom (period : Nat) (m : Machine) (completed : Nat) (log : Array Record) :
    (limit : Nat) → Run
  | 0 => ⟨m, completed, none, log⟩
  | limit + 1 =>
    match m.cycle with
    | ⟨.error error, m, records⟩ => ⟨m, completed, some error, log ++ records⟩
    | ⟨.ok (), m, records⟩ =>
      let m := if (completed + 1) % period = 0 then m.tick.machine else m
      m.runFrom period (completed + 1) (log ++ records) limit

/-- Runs a machine for at most `limit` cycles, with a tick after every cycle whose
    number `period` divides. With a period of zero there are no ticks. -/
def run (m : Machine) (period limit : Nat) : Run :=
  m.runFrom period 0 #[] limit

end Machine

end Chip8
