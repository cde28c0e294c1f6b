/-
  Chip8.Proofs.Interchange

  Which calls of a host can change places. A tick is a change of the timers, and the move
  of a key is a change of the keypad as long as no press could be kept. So either of them
  changes places with a cycle whose word ignores the change (`commute_of_changed`): with
  all words but those that read or set a timer for a tick (`ignores_ticked`), and with all
  but those that read a key or wait for one for a move (`ignores_moved`).
-/
import Chip8.Proofs.Ticks
import Chip8.Proofs.Unnoticed

namespace Chip8

/-- Two calls commute at a machine: both orders leave the same machine, and each call tells
    its host the same in both. -/
structure Machine.Commute (m : Machine) (first second : HostCall) : Prop where
  machine : m.afterCalls [first, second] = m.afterCalls [second, first]
  firstReport : (m.call second).machine.report first = m.report first
  secondReport : (m.call first).machine.report second = m.report second

/-! ## Words that look at what the host changes -/

/-- Whether a word reads or sets a timer: FX07, FX15 and FX18. -/
def Word.UsesTimers (w : Word) : Prop :=
  w.family = 0xF ∧ (w.byte = 0x07 ∨ w.byte = 0x15 ∨ w.byte = 0x18)

/-- Whether a word reads a key or waits for one: EX9E, EXA1 and FX0A. -/
def Word.UsesKeys (w : Word) : Prop :=
  w.family = 0xE ∧ (w.byte = 0x9E ∨ w.byte = 0xA1) ∨ w.family = 0xF ∧ w.byte = 0x0A

/-- What a tick changes. -/
def Change.ticked : Change :=
  { timers := Timers.tick }

/-- What the move of a key changes when no press could be kept. -/
def Change.moved (number : Nat) (isDown : Bool) : Change :=
  { keypad := fun pad => pad.respond (.setKey number isDown) }

theorem Word.UsesTimers.of_setsTimer {w : Word} (h : w.SetsTimer) : w.UsesTimers :=
  ⟨h.1, Or.inr h.2⟩

namespace Instruction

variable {w : Word} {i : Instruction}

theorem ignores_ticked (hmeans : w.Says i) (h : ¬ w.UsesTimers) (m : Machine) :
    i.Ignores .ticked m := by
  cases hmeans with
  | loadDelay hfamily hbyte => exact absurd ⟨hfamily, Or.inl hbyte⟩ h
  | setDelay hfamily hbyte => exact absurd ⟨hfamily, Or.inr (Or.inl hbyte)⟩ h
  | setSound hfamily hbyte => exact absurd ⟨hfamily, Or.inr (Or.inr hbyte)⟩ h
  | _ => exact ⟨rfl, rfl⟩

theorem ignores_moved (hmeans : w.Says i) (h : ¬ w.UsesKeys) (m : Machine) (number : Nat)
    (isDown : Bool) : i.Ignores (.moved number isDown) m := by
  cases hmeans with
  | keyDown hfamily hbyte => exact absurd (Or.inl ⟨hfamily, Or.inl hbyte⟩) h
  | keyUp hfamily hbyte => exact absurd (Or.inl ⟨hfamily, Or.inr hbyte⟩) h
  | _ => exact ⟨rfl, rfl⟩

end Instruction

/-! ## Modes in which no press is kept -/

/-- Whether a press has no effect in a mode: nothing waits for it, or one came before it. -/
def Mode.isSettled : Mode → Bool
  | .running => true
  | .awaitingKey _ pressed => pressed.isSome

theorem Mode.respond_of_settled {mode : Mode} (h : mode.isSettled = true) (pad : Keypad)
    (event : Event) : mode.respond pad event = mode := by
  unfold respond
  split
  · rfl
  · cases mode with
    | running => rfl
    | awaitingKey register pressed =>
        cases pressed with
        | none => cases h
        | some key => rfl

/-- Moves of different keys can change places. -/
theorem Keypad.respond_comm (pad : Keypad) {number other : Nat} (isDown otherDown : Bool)
    (hne : number ≠ other) :
    (pad.respond (.setKey number isDown)).respond (.setKey other otherDown) =
      (pad.respond (.setKey other otherDown)).respond (.setKey number isDown) := by
  by_cases hnumber : number < 16
  · by_cases hother : other < 16
    · simp only [respond_of_lt _ _ hnumber, respond_of_lt _ _ hother, move, Keypad.mk.injEq]
      exact Vector.set_comm _ _ hne
    · have hle := Nat.not_lt.mp hother
      rw [respond_of_le _ _ hle, respond_of_le _ _ hle]
  · have hle := Nat.not_lt.mp hnumber
    rw [respond_of_le _ _ hle, respond_of_le _ _ hle]

namespace Machine

variable {m : Machine}

/-! ## What ticks and moves leave -/

theorem call_tick_changed (m : Machine) : (m.call .tick).machine = m.changed .ticked := rfl

theorem call_setKey_changed (h : m.mode.isSettled = true) (number : Nat) (isDown : Bool) :
    (m.call (.setKey number isDown)).machine = m.changed (.moved number isDown) := by
  have hmachine := m.setKey_machine number isDown
  rw [Mode.respond_of_settled h] at hmachine
  exact hmachine

/-- Whether a key exists is all that the host is told when it moves one. -/
theorem report_setKey (m n : Machine) (number : Nat) (isDown : Bool) :
    m.report (.setKey number isDown) = n.report (.setKey number isDown) := by
  have hresult : (m.setKey number isDown).result = (n.setKey number isDown).result := by
    by_cases h : number < 16
    · rw [setKey_of_lt m isDown h, setKey_of_lt n isDown h]
      rfl
    · have hle := Nat.not_lt.mp h
      rw [setKey_of_le m isDown hle, setKey_of_le n isDown hle]
      rfl
  exact congrArg (Report.mk · false) hresult

theorem report_tick {n : Machine} (h : n.timers = m.timers) :
    n.report .tick = m.report .tick :=
  congrArg (fun timers : Timers => Report.mk (.ok ()) timers.isSounding) h

/-! ## A call and a cycle -/

/-- A call that comes to the same change before a cycle and after it commutes with the
    cycle, if the word that the cycle executes ignores the change. -/
theorem commute_of_changed {call : HostCall} {c : Change}
    (hbefore : (m.call call).machine = m.changed c)
    (hafter : (m.cycle.machine.call call).machine = m.cycle.machine.changed c)
    (hreport : m.cycle.machine.report call = m.report call)
    (hignores : ∀ w, m.executed? .cycle = some w → (Instruction.decode w).Ignores c m) :
    m.Commute call .cycle where
  machine := by
    calc (m.call call).machine.cycle.machine
      _ = (m.changed c).cycle.machine := by rw [hbefore]
      _ = m.cycle.machine.changed c := (cycle_changed hignores).machine
      _ = (m.cycle.machine.call call).machine := hafter.symm
  firstReport := hreport
  secondReport := by
    have hresult := (cycle_changed hignores).result
    rw [← hbefore] at hresult
    exact congrArg (Report.mk · false) hresult

theorem tick_commute_cycle
    (huses : ∀ w, m.executed? .cycle = some w → ¬ w.UsesTimers) : m.Commute .tick .cycle := by
  have htimers : m.cycle.machine.timers = m.timers :=
    cycle_timers fun w hw hset => huses w hw (.of_setsTimer hset)
  exact commute_of_changed m.call_tick_changed m.cycle.machine.call_tick_changed
    (report_tick htimers) fun w hw =>
      Instruction.ignores_ticked (Instruction.decode_says w) (huses w hw) m

/-- A cycle starts no wait unless its word does. -/
theorem isSettled_cycle (h : m.mode.isSettled = true)
    (huses : ∀ w, m.executed? .cycle = some w → ¬ w.UsesKeys) :
    m.cycle.machine.mode.isSettled = true := by
  rcases m.cycle_machine_cases with
    hsame | ⟨x, key, -, hresumed⟩ | ⟨w, hmode, hfetch, hcycle, hok⟩
  · rw [hsame]
    exact h
  · -- the end of a wait, after which the machine runs
    rw [hresumed]
    rfl
  · have hexecuted := executed?_cycle_of_fetch hmode hfetch hok
    rcases execute_sameIn hok .mode with hsame | hchange
    · have hkept : (m.execute w).machine.mode = m.mode := hsame
      rw [hcycle, hkept]
      exact h
    · cases hchange with
      | mode hfamily hbyte => exact absurd (Or.inr ⟨hfamily, hbyte⟩) (huses w hexecuted)

theorem setKey_commute_cycle (h : m.mode.isSettled = true)
    (huses : ∀ w, m.executed? .cycle = some w → ¬ w.UsesKeys) (number : Nat) (isDown : Bool) :
    m.Commute (.setKey number isDown) .cycle := by
  have hafter := isSettled_cycle h huses
  exact commute_of_changed (call_setKey_changed h number isDown)
    (call_setKey_changed hafter number isDown) (report_setKey ..) fun w hw =>
      Instruction.ignores_moved (Instruction.decode_says w) (huses w hw) m number isDown

/-! ## Two calls that execute nothing -/

theorem tick_commute_setKey (m : Machine) (number : Nat) (isDown : Bool) :
    m.Commute .tick (.setKey number isDown) where
  machine := by
    by_cases h : number < 16
    · simp only [afterCalls, call, setKey_of_lt _ isDown h]
      rfl
    · simp only [afterCalls, call, setKey_of_le _ isDown (Nat.not_lt.mp h)]
      rfl
  firstReport := report_tick (m.setKey_timers number isDown)
  secondReport := report_setKey ..

theorem setKey_commute_setKey (h : m.mode.isSettled = true) {number other : Nat}
    (isDown otherDown : Bool) (hne : number ≠ other) :
    m.Commute (.setKey number isDown) (.setKey other otherDown) where
  machine := by
    have hkeypad := m.keypad.respond_comm isDown otherDown hne
    -- neither move touches the mode, so the second one finds it settled too
    have hchanged : ∀ c, (m.changed c).mode.isSettled = true := fun _ => h
    simp only [afterCalls, call_setKey_changed h, call_setKey_changed (hchanged _)]
    simp only [changed, Change.moved, hkeypad]
  firstReport := report_setKey ..
  secondReport := report_setKey ..

/-- At any machine: a tick commutes with a cycle if the machine waits for a key, and if it
    runs and the word at its program counter, if there is one, is none of FX07, FX15 and
    FX18. The move of a key, one that exists or not, commutes with a cycle if a press is
    kept, and if the machine runs and the word is none of EX9E, EXA1 and FX0A. A tick always
    commutes with the move of a key, and on a running machine so do the moves of different
    keys with each other. -/
theorem host_calls_commute (m : Machine) :
    (m.isAwaitingKey = true ∨ m.mode = .running ∧ (∀ w, m.fetch = .ok w → ¬ w.UsesTimers) →
      m.Commute .tick .cycle) ∧
    (∀ number isDown,
      (∃ register key, m.mode = .awaitingKey register (some key)) ∨
        m.mode = .running ∧ (∀ w, m.fetch = .ok w → ¬ w.UsesKeys) →
      m.Commute (.setKey number isDown) .cycle) ∧
    (∀ number isDown, m.Commute .tick (.setKey number isDown)) ∧
    (∀ number isDown other otherDown, m.mode = .running → number ≠ other →
      m.Commute (.setKey number isDown) (.setKey other otherDown)) := by
  refine ⟨?_, ?_, m.tick_commute_setKey, ?_⟩
  · intro h
    refine tick_commute_cycle fun w hw => ?_
    obtain ⟨hmode, hfetch⟩ := fetch_of_executed hw
    rcases h with hwaits | ⟨-, huses⟩
    · simp [isAwaitingKey, hmode] at hwaits
    · exact huses w hfetch
  · rintro number isDown (⟨register, key, hkept⟩ | ⟨hrunning, huses⟩)
    · refine setKey_commute_cycle (by rw [hkept]; rfl) (fun w hw => ?_) number isDown
      rw [(fetch_of_executed hw).1] at hkept
      cases hkept
    · refine setKey_commute_cycle (by rw [hrunning]; rfl) (fun w hw => ?_) number isDown
      exact huses w (fetch_of_executed hw).2
  · intro number isDown other otherDown hrunning hne
    exact setKey_commute_setKey (by rw [hrunning]; rfl) isDown otherDown hne

/-- A machine that does nothing but add one to V2, while both timers run. -/
def countingInV2 : Machine :=
  { initial (.ofSeed 0) with memory := .filled 0x72 0x01, timers := ⟨1, 1⟩ }

/-- The machine that counts commutes with what its host does, and so does one that waits
    and has kept key 5. -/
theorem host_calls_commute_countingInV2 :
    let waiting : Machine := { countingInV2 with mode := .awaitingKey 2 (some 5) }
    countingInV2.fetch = .ok 0x7201 ∧
    countingInV2.Commute .tick .cycle ∧ waiting.Commute .tick .cycle ∧
    countingInV2.Commute (.setKey 16 true) .cycle ∧ waiting.Commute (.setKey 5 false) .cycle ∧
    countingInV2.Commute (.setKey 2 true) (.setKey 3 true) := by
  intro waiting
  have hmemory : countingInV2.memory = .filled 0x72 0x01 := rfl
  have hfetch : countingInV2.fetch = .ok 0x7201 := fetch_filled hmemory (by decide) (by decide)
  have hword : ∀ w, countingInV2.fetch = .ok w → w.family = 0x7 := by
    intro w hw
    rw [hfetch] at hw
    cases hw
    rfl
  obtain ⟨htick, hmove, -, hmoves⟩ := host_calls_commute countingInV2
  obtain ⟨htick', hmove', -⟩ := host_calls_commute waiting
  refine ⟨hfetch, htick (Or.inr ⟨rfl, ?_⟩), htick' (Or.inl rfl), hmove 16 true (Or.inr ⟨rfl, ?_⟩),
    hmove' 5 false (Or.inl ⟨2, 5, rfl⟩), hmoves 2 true 3 true rfl (by decide)⟩
  · rintro w hw ⟨hfamily, -⟩
    cases (hword w hw).symm.trans hfamily
  · rintro w hw (⟨hfamily, -⟩ | ⟨hfamily, -⟩)
    · cases (hword w hw).symm.trans hfamily
    · cases (hword w hw).symm.trans hfamily

end Machine

end Chip8
