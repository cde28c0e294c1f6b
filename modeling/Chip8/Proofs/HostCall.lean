/-
  Chip8.Proofs.HostCall

  Everything a host can do to a machine, as data: a `HostCall` is one call with its
  arguments, and `Machine.afterCalls` is what a list of calls leaves, whether they
  succeed or not. `afterCalls_induction` carries a property from call to call.
-/
import Chip8.Machine.Execute
import Chip8.Machine.Host

namespace Chip8

/-- A press does not change the register that a machine waits for. -/
theorem Mode.afterPress_eq_awaitingKey {mode : Mode} {key : UInt8} {register : Nat}
    {pressed : Option UInt8} (h : mode.afterPress key = .awaitingKey register pressed) :
    ∃ before, mode = .awaitingKey register before := by
  unfold afterPress at h
  split at h
  · cases h
    exact ⟨none, rfl⟩
  · exact ⟨pressed, h⟩

/-- The machine after a key that exists was moved. -/
def Machine.keyMoved (m : Machine) (key : Fin 16) (isDown : Bool) : Machine :=
  let moved := m.keypad.move key isDown
  { m with
    keypad := moved.keypad
    mode := if moved.pressed then m.mode.afterPress key.val.toUInt8 else m.mode }

theorem Machine.keyMoved_eq_awaitingKey {m : Machine} {key : Fin 16} {isDown : Bool}
    {register : Nat} {pressed : Option UInt8}
    (h : (m.keyMoved key isDown).mode = .awaitingKey register pressed) :
    ∃ before, m.mode = .awaitingKey register before := by
  simp only [keyMoved] at h
  split at h
  · exact Mode.afterPress_eq_awaitingKey h
  · exact ⟨pressed, h⟩

theorem Machine.setKey_of_lt (m : Machine) {number : Nat} (isDown : Bool) (h : number < 16) :
    m.setKey number isDown = .done () (m.keyMoved ⟨number, h⟩ isDown) := by
  simp only [setKey, Keypad.write, Keypad.number, dif_pos h, Except.map, keyMoved]

theorem Machine.setKey_of_le (m : Machine) {number : Nat} (isDown : Bool) (h : 16 ≤ number) :
    m.setKey number isDown = .failed (.invalidKey number) m := by
  simp only [setKey, Keypad.write, Keypad.number, dif_neg (Nat.not_lt.mpr h), Except.map]

/-- A call of the host. A call that reads a file comes with the files as they are at
    the time. -/
inductive HostCall where
  | cycle
  | execute (word : Word)
  | tick
  | setKey (number : Nat) (isDown : Bool)
  | skipInstruction
  | clearScreen
  | loadProgram (program : List UInt8)
  | loadFile (files : FileSystem) (path : String)
  | reset (files : FileSystem)
  | seed (seed : UInt64)
  | setDialect (dialect : Dialect)
  | setPolicy (policy : UnknownWordPolicy)

/-- The calls that a host makes while it lets a program run. -/
inductive HostCall.Drives : HostCall → Prop
  | cycle : Drives .cycle
  | tick : Drives .tick
  | setKey (number : Nat) (isDown : Bool) : Drives (.setKey number isDown)
  | skipInstruction : Drives .skipInstruction

/-- What comes to a machine while a program runs. -/
inductive Event where
  | cycle
  | tick
  | setKey (number : Nat) (isDown : Bool)

/-- The call that an event makes. -/
def Event.call : Event → HostCall
  | .cycle => .cycle
  | .tick => .tick
  | .setKey number isDown => .setKey number isDown

namespace Machine

/-- What a call gives back. -/
def call (m : Machine) : HostCall → Outcome Unit
  | .cycle => m.cycle
  | .execute word => m.execute word
  | .tick => .done () m.tick.machine
  | .setKey number isDown => m.setKey number isDown
  | .skipInstruction => .done () m.skipInstruction
  | .clearScreen => .done () m.clearScreen
  | .loadProgram program => m.loadProgram program
  | .loadFile files path => m.loadFile files path
  | .reset files => m.reset files
  | .seed seed => .done () (m.seed seed)
  | .setDialect dialect => .done () { m with dialect }
  | .setPolicy policy => .done () { m with unknownWords := policy }

theorem call_cycle (m : Machine) : m.call .cycle = m.cycle := rfl

/-- The machine after some calls, failed ones included. -/
def afterCalls (m : Machine) : List HostCall → Machine
  | [] => m
  | call :: calls => (m.call call).machine.afterCalls calls

/-- A property that every call keeps holds after any number of them. -/
theorem afterCalls_induction {P : Machine → Prop} {m : Machine} (calls : List HostCall)
    (hm : P m) (hcall : ∀ m, P m → ∀ call ∈ calls, P (m.call call).machine) :
    P (m.afterCalls calls) := by
  induction calls generalizing m with
  | nil => exact hm
  | cons call calls ih =>
      have hfirst := hcall m hm call (List.mem_cons_self ..)
      exact ih hfirst fun m hm c hc => hcall m hm c (List.mem_cons_of_mem _ hc)

/-- The machine after some events, those of them that failed included. -/
def afterEvents (m : Machine) (events : List Event) : Machine :=
  m.afterCalls (events.map Event.call)

theorem afterEvents_cons (m : Machine) (event : Event) (events : List Event) :
    m.afterEvents (event :: events) = (m.call event.call).machine.afterEvents events := rfl

theorem afterEvents_append (m : Machine) (first second : List Event) :
    m.afterEvents (first ++ second) = (m.afterEvents first).afterEvents second := by
  induction first generalizing m with
  | nil => rfl
  | cons event events ih => exact ih (m.call event.call).machine

end Machine

end Chip8
