/-
  Chip8.Proofs.WaitInPlace

  Where a machine waits. A word FX0A starts a wait and moves neither the program counter nor
  any byte (`Machine.execute_of_waits`), and what a host does while a program runs moves them
  only where it ends the wait. So a machine that waits for VX has the word FX0A of this X as
  its last one and still at its program counter (`Machine.StandsAtWait`). A program that is
  loaded into a waiting machine, or a word that was not fetched, could break this, so these
  calls are left out (`HostCall.KeepsProgram`).
-/
import Chip8.Proofs.HeadlessWait
import Chip8.Proofs.Reset

namespace Chip8

open RandomStream (Generator)

/-- The calls of a host that has its program in memory: all but those that load another one,
    and that execute a word from elsewhere. A reset loads the file of the program again. -/
inductive HostCall.KeepsProgram : HostCall → Prop
  | cycle : KeepsProgram .cycle
  | tick : KeepsProgram .tick
  | setKey (number : Nat) (isDown : Bool) : KeepsProgram (.setKey number isDown)
  | skipInstruction : KeepsProgram .skipInstruction
  | clearScreen : KeepsProgram .clearScreen
  | reset (files : FileSystem) : KeepsProgram (.reset files)
  | seed (seed : UInt64) : KeepsProgram (.seed seed)
  | setDialect (dialect : Dialect) : KeepsProgram (.setDialect dialect)
  | setPolicy (policy : UnknownWordPolicy) : KeepsProgram (.setPolicy policy)

/-! ## Words FX0A -/

namespace Word

theorem toNat_ofBytes (high low : UInt8) :
    (ofBytes high low).toNat = high.toNat * 256 + low.toNat := by
  have hhigh := high.toNat_lt
  have hlow := low.toNat_lt
  rw [ofBytes, UInt16.toNat_ofNat']
  omega

/-- A word that waits is 0xF00A, with the number of its register in the second digit. -/
theorem Waits.toNat_eq {w : Word} (h : w.Waits) : w.toNat = 0xF00A + 256 * w.x.val := by
  have hfamily : w.toNat / 4096 = 0xF := h.1
  have hbyte : w.toNat % 256 = 0x0A := by
    rw [← w.toNat_byte, h.2]
    rfl
  show w.toNat = 0xF00A + 256 * (w.toNat / 256 % 16)
  omega

end Word

namespace Machine

variable {m : Machine}

/-- The word that is fetched lies at the program counter, its high byte first. -/
theorem read_of_fetch {w : Word} (h : m.fetch = .ok w) :
    ∃ high low, m.memory.read m.registers.pc.toNat = .ok high ∧
      m.memory.read (m.registers.pc.toNat + 1) = .ok low ∧
      high.toNat * 256 + low.toNat = w.toNat := by
  by_cases hfit : m.registers.pc.toNat + 2 ≤ 4096
  · rw [fetch_of_le hfit] at h
    cases h
    have hhigh : m.registers.pc.toNat < 4096 := by omega
    have hlow : m.registers.pc.toNat + 1 < 4096 := by omega
    refine ⟨_, _, dif_pos hhigh, dif_pos hlow, ?_⟩
    rw [wordAt, Word.toNat_ofBytes]
  · rw [fetch_of_lt (Nat.not_le.mp hfit)] at h
    cases h

theorem pc_le_of_fetch {w : Word} (h : m.fetch = .ok w) : m.registers.pc.toNat ≤ 0xFFE := by
  by_cases hfit : m.registers.pc.toNat + 2 ≤ 4096
  · omega
  · rw [fetch_of_lt (Nat.not_le.mp hfit)] at h
    cases h

/-! ## The invariant -/

/-- The word FX0A for the given register is the last that the machine completed, and it is
    still at the program counter. -/
structure StandsAtWait (m : Machine) (register : Nat) : Prop where
  register_lt : register < 16
  toNat_lastWord : m.lastWord.toNat = 0xF00A + 256 * register
  fetch : m.fetch = .ok m.lastWord

/-- If the machine waits for a key, it stands at the word that waits. -/
def WaitsInPlace (m : Machine) : Prop :=
  ∀ register pressed, m.mode = .awaitingKey register pressed → m.StandsAtWait register

theorem waitsInPlace_of_running (h : m.mode = .running) : m.WaitsInPlace := by
  intro register pressed hmode
  rw [h] at hmode
  cases hmode

theorem waitsInPlace_of_waits {w : Word} (hw : w.Waits) (hfetch : m.fetch = .ok w) :
    (m.execute w).machine.WaitsInPlace := by
  rw [execute_of_waits hw]
  intro register pressed hmode
  cases hmode
  exact ⟨w.x.isLt, hw.toNat_eq, hfetch⟩

/-- What does not touch the memory, the program counter and the last word, and starts no wait,
    keeps the invariant. -/
theorem WaitsInPlace.of_eq {n : Machine} (h : m.WaitsInPlace) (hmemory : n.memory = m.memory)
    (hpc : n.registers.pc = m.registers.pc) (hlast : n.lastWord = m.lastWord)
    (hmode : ∀ register pressed, n.mode = .awaitingKey register pressed →
      ∃ before, m.mode = .awaitingKey register before) : n.WaitsInPlace := by
  intro register pressed hn
  obtain ⟨before, hm⟩ := hmode register pressed hn
  have hstands := h register before hm
  have hfetch : n.fetch = m.fetch := by
    simp only [Machine.fetch, hmemory, hpc]
  exact ⟨hstands.register_lt, hlast ▸ hstands.toNat_lastWord, by rw [hfetch, hlast, hstands.fetch]⟩

/-! ## Calls -/

/-- A cycle keeps the invariant: one that leaves the machine waiting either changed nothing, or
    has just executed the word FX0A that it fetched. -/
theorem cycle_waitsInPlace (h : m.WaitsInPlace) : m.cycle.machine.WaitsInPlace := by
  rcases m.cycle_machine_cases with
    hsame | ⟨x, key, -, hresumed⟩ | ⟨w, hrunning, hfetch, hcycle, hok⟩
  · rw [hsame]
    exact h
  · apply waitsInPlace_of_running
    rw [hresumed]
    rfl
  · rw [hcycle]
    by_cases hw : w.Waits
    · exact waitsInPlace_of_waits hw hfetch
    · apply waitsInPlace_of_running
      rw [execute_mode hok hw, hrunning]

theorem setKey_waitsInPlace (h : m.WaitsInPlace) (number : Nat) (isDown : Bool) :
    (m.setKey number isDown).machine.WaitsInPlace := by
  by_cases hlt : number < 16
  · rw [setKey_of_lt m isDown hlt]
    -- a press is kept for the register that was waited for before
    exact h.of_eq rfl rfl rfl fun _ _ hmode => keyMoved_eq_awaitingKey hmode
  · rw [setKey_of_le m isDown (Nat.not_lt.mp hlt)]
    exact h

theorem reset_waitsInPlace (m : Machine) (files : FileSystem) :
    (m.reset files).machine.WaitsInPlace := by
  apply waitsInPlace_of_running
  rw [(m.reset_loads files).2, (m.powerOn.loadFile?_sameButProgram files m.source).others]
  rfl

theorem call_waitsInPlace {call : HostCall} (h : m.WaitsInPlace) (hcall : call.KeepsProgram) :
    (m.call call).machine.WaitsInPlace := by
  cases hcall with
  | cycle => exact cycle_waitsInPlace h
  | setKey number isDown => exact setKey_waitsInPlace h number isDown
  | reset files => exact m.reset_waitsInPlace files
  | skipInstruction => exact waitsInPlace_of_running rfl
  | tick | clearScreen | seed | setDialect | setPolicy =>
      exact h.of_eq rfl rfl rfl fun _ pressed hmode => ⟨pressed, hmode⟩

/-- Loading programs into a machine just switched on does not make it wait. -/
theorem boot_afterLoads_waitsInPlace (files : FileSystem) (path? : Option String)
    (random : Generator) (loads : List Load) :
    ((boot files path? random).machine.afterLoads loads).WaitsInPlace := by
  apply waitsInPlace_of_running
  have hboot := ((initial random).loadFile?_sameButProgram files path?).others
  rw [(Machine.afterLoads_sameButProgram _ loads).others]
  show (boot files path? random).machine.mode = .running
  rw [boot, hboot]
  rfl

/-! ## Runs -/

/-- Take a machine that was switched on, with the program of a file or without, and perhaps
    had programs loaded into it then. Whatever calls it has seen since, failed ones included,
    other than loads and words from elsewhere: if it waits for a key for a register, then this
    is a register that exists, the last word that it completed is the word FX0A for it, and the
    two bytes at its program counter are that word, the high one first. -/
theorem wait_stands_at_its_word (files : FileSystem) (path? : Option String)
    (random : Generator) (loads : List Load) {calls : List HostCall}
    (hcalls : ∀ call ∈ calls, call.KeepsProgram) {register : Nat} {pressed : Option UInt8} :
    let m := ((boot files path? random).machine.afterLoads loads).afterCalls calls
    m.mode = .awaitingKey register pressed →
      register < 16 ∧ m.lastWord.toNat = 0xF00A + 256 * register ∧
      m.registers.pc.toNat ≤ 0xFFE ∧ m.fetch = .ok m.lastWord ∧
      ∃ high low, m.memory.read m.registers.pc.toNat = .ok high ∧
        m.memory.read (m.registers.pc.toNat + 1) = .ok low ∧
        high.toNat * 256 + low.toNat = m.lastWord.toNat := by
  intro m hmode
  have hwaits : m.WaitsInPlace :=
    afterCalls_induction calls (boot_afterLoads_waitsInPlace files path? random loads)
      fun _ hn call hcall => call_waitsInPlace hn (hcalls call hcall)
  obtain ⟨hregister, hlast, hfetch⟩ := hwaits register pressed hmode
  exact ⟨hregister, hlast, pc_le_of_fetch hfetch, hfetch, read_of_fetch hfetch⟩

/-- A program that sets V0 and then waits for a key for VF. -/
def setsAndWaits : List UInt8 := [0x60, 0x05, 0xFF, 0x0A]

/-- A machine just switched on with that program. -/
def aboutToWait : Machine :=
  (boot (fun _ => .error .missing) none (.ofSeed 0)).machine.afterLoads [.bytes setsAndWaits]

/-- The wait lasts through a key that does not exist, one that was held before, one that is
    pressed, a tick and another policy. -/
theorem wait_stands_at_its_word_aboutToWait :
    let calls : List HostCall := [.cycle, .setKey 5 true, .cycle, .setKey 16 true,
      .setKey 5 true, .setKey 2 true, .tick, .setPolicy .skip]
    let m := aboutToWait.afterCalls calls
    ((∀ call ∈ calls, call.KeepsProgram) ∧ m.mode = .awaitingKey 15 (some 2)) ∧
    m.lastWord.toNat = 0xFF0A ∧ m.registers.pc = 0x202 ∧ m.fetch = .ok m.lastWord := by
  intro calls m
  have hsets : aboutToWait.fetch = .ok 0x6005 :=
    fetch_program 0 rfl rfl (by decide) (by decide) (by decide)
  -- key 5 goes down before the wait
  let held := (((aboutToWait.performed (.decode 0x6005)).complete 0x6005).setKey 5 true).machine
  have hheld : aboutToWait.afterCalls [.cycle, .setKey 5 true] = held := by
    rw [afterCalls_cons, (call_of_no_obstacle rfl hsets rfl rfl).1]
    rfl
  have hwaits : held.fetch = .ok 0xFF0A :=
    fetch_program 2 rfl rfl (by decide) (by decide) (by decide)
  have hm : m = (held.execute 0xFF0A).machine.afterCalls (calls.drop 3) := by
    have hsplit : calls = [.cycle, .setKey 5 true] ++ .cycle :: calls.drop 3 := rfl
    rw [← cycle_of_fetch rfl hwaits, ← call_cycle, ← afterCalls_cons, ← hheld,
      ← afterCalls_append, ← hsplit]
  have hmode : m.mode = .awaitingKey 15 (some 2) := by
    rw [hm, execute_of_waits (by decide)]
    rfl
  have hpc : m.registers.pc = 0x202 := by
    rw [hm, execute_of_waits (by decide)]
    rfl
  have hcalls : ∀ call ∈ calls, call.KeepsProgram := by
    simp [calls, HostCall.KeepsProgram.cycle, HostCall.KeepsProgram.setKey,
      HostCall.KeepsProgram.tick, HostCall.KeepsProgram.setPolicy]
  obtain ⟨-, hlast, -, hfetch, -⟩ :=
    wait_stands_at_its_word (fun _ => .error .missing) none (.ofSeed 0) [.bytes setsAndWaits]
      hcalls hmode
  exact ⟨⟨hcalls, hmode⟩, hlast, hpc, hfetch⟩

end Machine

end Chip8
