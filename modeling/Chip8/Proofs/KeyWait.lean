/-
  Chip8.Proofs.KeyWait

  A wait for a key, from its start to its end. Which events press a key is a matter of
  the keypad alone (`Keypad.pressed?`), and so is whether none of some events does
  (`Keypad.Quiet`). Without a press a waiting machine only has its keys moved and its
  timers ticked (`afterEvents_of_quiet`). The first press is kept through everything
  but a cycle (`afterEvents_of_kept`), and the next cycle delivers it
  (`wait_ends_with_first_press`).
-/
import Chip8.Proofs.Cycle
import Chip8.Proofs.HostCall

namespace Chip8

/-! ## What events do to keys and timers -/

namespace Keypad

/-- The keypad after an event: a key that exists goes where the event moves it. -/
def respond (pad : Keypad) : Event → Keypad
  | .setKey number isDown =>
    if h : number < 16 then (pad.move ⟨number, h⟩ isDown).keypad else pad
  | .cycle | .tick => pad

/-- The keypad after some events. -/
def after (pad : Keypad) (events : List Event) : Keypad :=
  events.foldl respond pad

/-- The key that an event presses, if it presses one: a key that exists, is up and goes
    down. -/
def pressed? (pad : Keypad) : Event → Option (Fin 16)
  | .setKey number true =>
    if h : number < 16 then
      if pad.isDown ⟨number, h⟩ then none else some ⟨number, h⟩
    else none
  | .setKey _ false | .cycle | .tick => none

/-- Whether none of some events presses a key. -/
def Quiet (pad : Keypad) : List Event → Prop
  | [] => True
  | event :: events => pad.pressed? event = none ∧ (pad.respond event).Quiet events

instance Quiet.decidable (pad : Keypad) : (events : List Event) → Decidable (pad.Quiet events)
  | [] => isTrue trivial
  | event :: events =>
    have := Quiet.decidable (pad.respond event) events
    inferInstanceAs (Decidable (pad.pressed? event = none ∧ (pad.respond event).Quiet events))

/-- Some events are quiet, or one of them is the first to press a key. -/
theorem quiet_or_pressed (pad : Keypad) (events : List Event) :
    pad.Quiet events ∨
      ∃ idle press key later, events = idle ++ press :: later ∧ pad.Quiet idle ∧
        (pad.after idle).pressed? press = some key := by
  induction events generalizing pad with
  | nil => exact Or.inl trivial
  | cons event events ih =>
      cases hpressed : pad.pressed? event with
      | some key => exact Or.inr ⟨[], event, key, events, rfl, trivial, hpressed⟩
      | none =>
          rcases ih (pad.respond event) with hquiet | ⟨idle, press, key, later, rfl, hquiet, hkey⟩
          · exact Or.inl ⟨hpressed, hquiet⟩
          · exact Or.inr ⟨event :: idle, press, key, later, rfl, ⟨hpressed, hquiet⟩, hkey⟩

theorem respond_of_lt (pad : Keypad) {number : Nat} (isDown : Bool) (h : number < 16) :
    pad.respond (.setKey number isDown) = (pad.move ⟨number, h⟩ isDown).keypad :=
  dif_pos h

theorem respond_of_le (pad : Keypad) {number : Nat} (isDown : Bool) (h : 16 ≤ number) :
    pad.respond (.setKey number isDown) = pad :=
  dif_neg (Nat.not_lt.mpr h)

theorem pressed?_of_lt (pad : Keypad) {number : Nat} (isDown : Bool) (h : number < 16) :
    pad.pressed? (.setKey number isDown) =
      if (pad.move ⟨number, h⟩ isDown).pressed then some ⟨number, h⟩ else none := by
  cases isDown with
  | false => rfl
  | true =>
      simp only [pressed?, dif_pos h, move, Bool.true_and]
      cases pad.isDown ⟨number, h⟩ with
      | _ => rfl

theorem pressed?_of_le (pad : Keypad) {number : Nat} (isDown : Bool) (h : 16 ≤ number) :
    pad.pressed? (.setKey number isDown) = none := by
  cases isDown with
  | false => rfl
  | true => exact dif_neg (Nat.not_lt.mpr h)

/-- Only a key that is up is pressed. -/
theorem isDown_of_pressed {pad : Keypad} {event : Event} {key : Fin 16}
    (h : pad.pressed? event = some key) : pad.isDown key = false := by
  unfold pressed? at h
  split at h
  · split at h
    · split at h
      · cases h
      · next hup =>
        cases h
        exact Bool.eq_false_iff.mpr hup
    · cases h
  all_goals cases h

/-- An event after which a key is up that was down is its release. -/
theorem eq_release_of_respond {pad : Keypad} {event : Event} {key : Fin 16}
    (hdown : pad.isDown key = true) (hup : (pad.respond event).isDown key = false) :
    event = .setKey key false := by
  have hkept : pad.isDown key ≠ false := by simp [hdown]
  cases event with
  | cycle | tick => exact absurd hup hkept
  | setKey number isDown =>
      by_cases h : number < 16
      · rw [pad.respond_of_lt isDown h, isDown_move] at hup
        split at hup
        · next hkey => rw [← hkey, hup]
        · exact absurd hup hkept
      · rw [pad.respond_of_le isDown (Nat.not_lt.mp h)] at hup
        exact absurd hup hkept

/-- A key that was down before some events and is up after them was released. -/
theorem released_of_after {pad : Keypad} {events : List Event} {key : Fin 16}
    (hdown : pad.isDown key = true) (hup : (pad.after events).isDown key = false) :
    .setKey key false ∈ events := by
  induction events generalizing pad with
  | nil =>
      rw [after, List.foldl_nil, hdown] at hup
      cases hup
  | cons event events ih =>
      cases hnext : (pad.respond event).isDown key with
      | false =>
          rw [eq_release_of_respond hdown hnext]
          exact List.mem_cons_self ..
      | true => exact List.mem_cons_of_mem _ (ih hnext hup)

end Keypad

namespace Timers

/-- The timers after an event. -/
def respond (t : Timers) : Event → Timers
  | .tick => t.tick
  | .cycle | .setKey .. => t

/-- The timers after some events. -/
def after (t : Timers) (events : List Event) : Timers :=
  events.foldl respond t

end Timers

/-! ## One event -/

/-- The mode after an event at a keypad. -/
def Mode.respond (mode : Mode) (pad : Keypad) (event : Event) : Mode :=
  match pad.pressed? event with
  | none => mode
  | some key => mode.afterPress key.val.toUInt8

namespace Machine

/-- The machine with its keys and timers as some events leave them. -/
def hosted (m : Machine) (events : List Event) : Machine :=
  { m with keypad := m.keypad.after events, timers := m.timers.after events }

theorem hosted_append (m : Machine) (first second : List Event) :
    m.hosted (first ++ second) = (m.hosted first).hosted second := by
  simp only [hosted, Keypad.after, Timers.after, List.foldl_append]

theorem setKey_machine (m : Machine) (number : Nat) (isDown : Bool) :
    (m.setKey number isDown).machine =
      { m.hosted [.setKey number isDown] with
        mode := m.mode.respond m.keypad (.setKey number isDown) } := by
  by_cases h : number < 16
  · have hmode : m.mode.respond m.keypad (.setKey number isDown) =
        if (m.keypad.move ⟨number, h⟩ isDown).pressed then m.mode.afterPress number.toUInt8
        else m.mode := by
      rw [Mode.respond, m.keypad.pressed?_of_lt isDown h]
      cases (m.keypad.move ⟨number, h⟩ isDown).pressed with
      | _ => rfl
    have hkeypad : m.keypad.after [.setKey number isDown] =
        (m.keypad.move ⟨number, h⟩ isDown).keypad := m.keypad.respond_of_lt isDown h
    rw [setKey_of_lt m isDown h, hmode, hosted, hkeypad]
    rfl
  · have hle := Nat.not_lt.mp h
    have hmode : m.mode.respond m.keypad (.setKey number isDown) = m.mode := by
      rw [Mode.respond, m.keypad.pressed?_of_le isDown hle]
    have hkeypad : m.keypad.after [.setKey number isDown] = m.keypad :=
      m.keypad.respond_of_le isDown hle
    rw [setKey_of_le m isDown hle, hmode, hosted, hkeypad]
    rfl

/-- Apart from cycles, events move keys, tick timers and press keys. -/
theorem call_of_ne_cycle (m : Machine) {event : Event} (h : event ≠ .cycle) :
    (m.call event.call).machine =
      { m.hosted [event] with mode := m.mode.respond m.keypad event } := by
  cases event with
  | cycle => exact absurd rfl h
  | tick => rfl
  | setKey number isDown => exact m.setKey_machine number isDown

/-! ## A wait -/

variable {m : Machine} {register : Nat}

/-- While nothing is pressed, a waiting machine only has its keys moved and its timers
    ticked. -/
theorem call_of_not_pressed {event : Event} (hmode : m.mode = .awaitingKey register none)
    (h : m.keypad.pressed? event = none) : (m.call event.call).machine = m.hosted [event] := by
  by_cases hcycle : event = .cycle
  · subst hcycle
    exact congrArg Outcome.machine (cycle_of_no_press hmode)
  · rw [m.call_of_ne_cycle hcycle, Mode.respond, h]
    rfl

theorem afterEvents_of_quiet {events : List Event} (hmode : m.mode = .awaitingKey register none)
    (h : m.keypad.Quiet events) : m.afterEvents events = m.hosted events := by
  -- each event leaves a machine that waits as before, with a keypad that stays quiet
  induction events generalizing m with
  | nil => rfl
  | cons event events ih =>
      rw [afterEvents_cons, call_of_not_pressed hmode h.1]
      exact ih hmode h.2

/-- The first press of a wait is kept. -/
theorem call_of_pressed {event : Event} {key : Fin 16}
    (hmode : m.mode = .awaitingKey register none) (h : m.keypad.pressed? event = some key) :
    (m.call event.call).machine =
      { m.hosted [event] with mode := .awaitingKey register (some key.val.toUInt8) } := by
  have hcycle : event ≠ .cycle := by
    rintro rfl
    cases h
  rw [m.call_of_ne_cycle hcycle, Mode.respond, h, hmode]
  rfl

/-- A press that is kept stays, whatever comes before the next cycle. -/
theorem afterEvents_of_kept {key : UInt8} {events : List Event}
    (hmode : m.mode = .awaitingKey register (some key)) (h : .cycle ∉ events) :
    m.afterEvents events = m.hosted events := by
  induction events generalizing m with
  | nil => rfl
  | cons event events ih =>
      obtain ⟨hfirst, hothers⟩ := List.ne_and_not_mem_of_not_mem_cons h
      -- a second press finds the place of the first one taken
      have hstays : m.mode.respond m.keypad event = m.mode := by
        rw [Mode.respond, hmode]
        split
        · rfl
        · rfl
      rw [afterEvents_cons, m.call_of_ne_cycle hfirst.symm, hstays]
      exact ih hmode hothers

theorem afterEvents_of_pressed {idle later : List Event} {press : Event} {key : Fin 16}
    (hmode : m.mode = .awaitingKey register none) (hidle : m.keypad.Quiet idle)
    (hpress : (m.keypad.after idle).pressed? press = some key) (hlater : .cycle ∉ later) :
    m.afterEvents (idle ++ press :: later) =
      { m.hosted (idle ++ press :: later) with
        mode := .awaitingKey register (some key.val.toUInt8) } := by
  -- the press comes to the machine as the quiet events left it
  have hpressed := call_of_pressed (m := m.hosted idle) hmode hpress
  rw [afterEvents_append, afterEvents_of_quiet hmode hidle, afterEvents_cons, hpressed,
    afterEvents_of_kept rfl hlater, hosted_append]
  rfl

/-- Take a machine that waits for a key for `V x` and has kept none yet. Some events of
    which none presses a key only move keys and tick timers, and every cycle then succeeds
    and changes nothing. The first key to be pressed is kept through all that comes before
    the next cycle, and that cycle puts it into `V x`, goes on after the instruction that
    waited, counts, and changes nothing else. A key that was held from the start was
    released before it could be pressed. -/
theorem wait_ends_with_first_press {x : Fin 16} (hmode : m.mode = .awaitingKey x none) :
    (∀ events, m.keypad.Quiet events ∨
      ∃ idle press key later, events = idle ++ press :: later ∧ m.keypad.Quiet idle ∧
        (m.keypad.after idle).pressed? press = some key) ∧
    (∀ idle, m.keypad.Quiet idle →
      m.afterEvents idle = m.hosted idle ∧
      (m.afterEvents idle).cycle = .done () (m.afterEvents idle)) ∧
    (∀ idle press key, m.keypad.Quiet idle →
      (m.keypad.after idle).pressed? press = some key →
      (m.keypad.isDown key = true → .setKey key false ∈ idle) ∧
      ∀ later, .cycle ∉ later →
        let outside := m.hosted (idle ++ press :: later)
        let after := m.afterEvents (idle ++ press :: later)
        after = { outside with mode := .awaitingKey x (some key.val.toUInt8) } ∧
        after.cycle = .done () { outside with
          registers := { m.registers.set x key.val.toUInt8 with
            pc := .ofNat ((m.registers.pc.toNat + 2) % 4096) }
          mode := .running
          counter := m.counter + 1 }) := by
  refine ⟨m.keypad.quiet_or_pressed, ?_, ?_⟩
  · intro idle hidle
    have hafter := afterEvents_of_quiet hmode hidle
    have hwaits : (m.afterEvents idle).mode = .awaitingKey x none := by
      rw [hafter]
      exact hmode
    exact ⟨hafter, cycle_of_no_press hwaits⟩
  · intro idle press key hidle hpress
    refine ⟨fun hheld => Keypad.released_of_after hheld (Keypad.isDown_of_pressed hpress), ?_⟩
    intro later hlater outside after
    have hafter : after = { outside with mode := .awaitingKey x (some key.val.toUInt8) } :=
      afterEvents_of_pressed hmode hidle hpress hlater
    have hkept : after.mode = .awaitingKey x (some key.val.toUInt8) :=
      congrArg Machine.mode hafter
    refine ⟨hafter, ?_⟩
    rw [cycle_of_press hkept x.isLt, hafter, resumed, Registers.advance, Registers.setPc,
      Word.address_add]
    rfl

/-- A machine at the end of memory that waits for a key for V3 while key 7 is held. -/
def waitingForV3 : Machine :=
  { initial (.ofSeed 0) with
    registers := { Registers.initial with pc := 0xFFE }
    keypad := (Keypad.released.move 7 true).keypad
    mode := .awaitingKey 3 none }

/-- The key held from the start and a key that does not exist go unnoticed. Key 7 counts
    once it is released and pressed again, and key 2 comes too late. -/
theorem wait_ends_with_first_press_again :
    let idle : List Event := [.cycle, .setKey 7 true, .setKey 16 true, .tick, .setKey 7 false]
    let later : List Event := [.setKey 2 true, .setKey 7 false, .tick]
    let after := waitingForV3.afterEvents (idle ++ .setKey 7 true :: later)
    (waitingForV3.mode = .awaitingKey 3 none ∧ waitingForV3.keypad.Quiet idle ∧
      (waitingForV3.keypad.after idle).pressed? (.setKey 7 true) = some 7 ∧
      Event.cycle ∉ later) ∧
    after.cycle.result = .ok () ∧ after.cycle.machine.mode = .running ∧
    after.cycle.machine.registers.get 3 = 7 ∧ after.cycle.machine.registers.pc = 0 := by
  intro idle later after
  have hidle : waitingForV3.keypad.Quiet idle := by decide
  have hpress : (waitingForV3.keypad.after idle).pressed? (.setKey 7 true) = some 7 := by decide
  have hlater : Event.cycle ∉ later := by simp [later]
  have hends := (wait_ends_with_first_press (m := waitingForV3) (x := 3) rfl).2.2
  have hcycle : after.cycle = _ := ((hends idle _ 7 hidle hpress).2 later hlater).2
  refine ⟨⟨rfl, hidle, hpress, hlater⟩, ?_⟩
  rw [hcycle]
  exact ⟨rfl, rfl, rfl, rfl⟩

end Machine

end Chip8
