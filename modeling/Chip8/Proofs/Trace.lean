/-
  Chip8.Proofs.Trace

  What can be seen of a run from outside. `Machine.executed?` is the word that a call
  executes, if it executes one, and `Machine.report` what the call tells its host;
  `executedWords` and `reports` collect them over any number of calls, failed ones
  included. Apart from the registers and the mode, which the end of a wait changes, a
  cycle reaches only what the word that it executes may change (`cycle_sameIn`). Two machines
  that answer each call alike answer any number of them alike (`run_alike`).
-/
import Chip8.Proofs.Footprint
import Chip8.Proofs.KeyWait

namespace Chip8

/-- What a call tells the host that made it. -/
structure Report where
  result : Except Error Unit
  /-- Whether the call was a tick with the sound on, so that the host is called back. -/
  sounded : Bool

namespace Machine

/-! ## One call -/

/-- The word that a call sets out to execute. A cycle has none if the machine waits for a
    key or if there is no word at the program counter. -/
def attempted? (m : Machine) : HostCall → Option Word
  | .cycle =>
    match m.mode, m.fetch with
    | .running, .ok word => some word
    | _, _ => none
  | .execute word => some word
  | _ => none

/-- The word that a call executes: the one it sets out to execute, if it succeeds. -/
def executed? (m : Machine) (call : HostCall) : Option Word :=
  match (m.call call).result with
  | .ok _ => m.attempted? call
  | .error _ => none

/-- What a call tells its host. -/
def report (m : Machine) (call : HostCall) : Report where
  result := (m.call call).result
  sounded :=
    match call with
    | .tick => m.tick.sounded
    | _ => false

variable {m : Machine}

theorem attempted?_cycle_of_fetch {word : Word} (hmode : m.mode = .running)
    (hfetch : m.fetch = .ok word) : m.attempted? .cycle = some word := by
  simp only [attempted?, hmode, hfetch]

theorem executed?_of_ok {call : HostCall} (h : (m.call call).result = .ok ()) :
    m.executed? call = m.attempted? call := by
  rw [executed?, h]

theorem executed?_of_error {call : HostCall} {error : Error}
    (h : (m.call call).result = .error error) : m.executed? call = none := by
  rw [executed?, h]

theorem executed?_of_not_attempted {call : HostCall} (h : m.attempted? call = none) :
    m.executed? call = none := by
  cases hresult : (m.call call).result with
  | error error => exact executed?_of_error hresult
  | ok done => rw [executed?_of_ok hresult, h]

@[simp] theorem executed?_tick (m : Machine) : m.executed? .tick = none := rfl

@[simp] theorem executed?_setKey (m : Machine) (number : Nat) (isDown : Bool) :
    m.executed? (.setKey number isDown) = none :=
  executed?_of_not_attempted rfl

/-- A cycle that succeeds executes the word that it fetched. -/
theorem executed?_cycle_of_fetch {word : Word} (hmode : m.mode = .running)
    (hfetch : m.fetch = .ok word) (hok : (m.execute word).result = .ok ()) :
    m.executed? .cycle = some word := by
  rw [executed?_of_ok (by rw [call_cycle, cycle_of_fetch hmode hfetch, hok]),
    attempted?_cycle_of_fetch hmode hfetch]

/-- A call that sets out to execute a word is the execution of that word. -/
theorem call_of_attempted {call : HostCall} {word : Word}
    (h : m.attempted? call = some word) : m.call call = m.execute word := by
  unfold attempted? at h
  split at h
  · split at h
    · next hmode hfetch =>
      cases h
      exact cycle_of_fetch hmode hfetch
    · cases h
  · cases h
    rfl
  · cases h

/-- A call that executes a word set out to execute it, and succeeds. -/
theorem attempted_of_executed {call : HostCall} {word : Word}
    (h : m.executed? call = some word) :
    m.attempted? call = some word ∧ (m.call call).result = .ok () := by
  cases hresult : (m.call call).result with
  | error error =>
      rw [executed?_of_error hresult] at h
      cases h
  | ok done => exact ⟨(executed?_of_ok hresult).symm.trans h, rfl⟩

/-- A call that executes a word is its execution, and succeeds. -/
theorem call_of_executed {call : HostCall} {word : Word} (h : m.executed? call = some word) :
    m.call call = m.execute word ∧ (m.execute word).result = .ok () := by
  obtain ⟨hattempted, hok⟩ := attempted_of_executed h
  have hcall := call_of_attempted hattempted
  exact ⟨hcall, hcall ▸ hok⟩

/-- A cycle that executes a word finds it at the program counter of a running machine. -/
theorem fetch_of_executed {word : Word} (h : m.executed? .cycle = some word) :
    m.mode = .running ∧ m.fetch = .ok word := by
  unfold executed? at h
  split at h
  · simp only [attempted?] at h
    split at h
    · next hmode hfetch =>
      cases h
      exact ⟨hmode, hfetch⟩
    · cases h
  · cases h

/-! ## What a cycle reaches -/

/-- Apart from the registers and the mode, what a cycle changes is what the word that it
    executes may change. -/
theorem cycle_sameIn (m : Machine) (part : Part) (hregister : ∀ x, part ≠ .register x)
    (hmode : part ≠ .mode) :
    m.SameIn m.cycle.machine part ∨
      ∃ word, m.executed? .cycle = some word ∧ m.MayChange word part := by
  rcases m.cycle_machine_cases with
    hsame | ⟨x, key, -, hresumed⟩ | ⟨word, hrunning, hfetch, hcycle, hok⟩
  · rw [hsame]
    exact Or.inl (m.sameIn_refl part)
  · -- the end of a wait, which executes no word
    rw [hresumed]
    cases part with
    | register y => exact absurd rfl (hregister y)
    | mode => exact absurd rfl hmode
    | _ => exact Or.inl rfl
  · have hexecuted := executed?_cycle_of_fetch hrunning hfetch hok
    rcases execute_sameIn hok part with hsame | hchange
    · rw [hcycle]
      exact Or.inl hsame
    · exact Or.inr ⟨word, hexecuted, hchange⟩

/-! ## Any number of calls -/

theorem afterCalls_cons (m : Machine) (call : HostCall) (calls : List HostCall) :
    m.afterCalls (call :: calls) = (m.call call).machine.afterCalls calls := rfl

theorem afterCalls_append (m : Machine) (first second : List HostCall) :
    m.afterCalls (first ++ second) = (m.afterCalls first).afterCalls second := by
  induction first generalizing m with
  | nil => rfl
  | cons call calls ih => exact ih (m.call call).machine

/-- A call that executes a word after some others leaves what that word leaves. -/
theorem afterCalls_concat_of_executed {before : List HostCall} {call : HostCall} {word : Word}
    (h : (m.afterCalls before).executed? call = some word) :
    m.afterCalls (before ++ [call]) = ((m.afterCalls before).execute word).machine := by
  rw [afterCalls_append, afterCalls_cons, (call_of_executed h).1]
  rfl

/-- The words that some calls execute, in order. -/
def executedWords (m : Machine) : List HostCall → List Word
  | [] => []
  | call :: calls => (m.executed? call).toList ++ (m.call call).machine.executedWords calls

/-- What is asked of the words of some calls is asked of the first call and of the others. -/
theorem forall_executedWords_cons {P : Word → Prop} (m : Machine) (call : HostCall)
    (calls : List HostCall) :
    (∀ w ∈ m.executedWords (call :: calls), P w) ↔
      (∀ w, m.executed? call = some w → P w) ∧
        ∀ w ∈ (m.call call).machine.executedWords calls, P w := by
  rw [executedWords, List.forall_mem_append]
  simp only [Option.mem_toList]

theorem executedWords_append (m : Machine) (first second : List HostCall) :
    m.executedWords (first ++ second) =
      m.executedWords first ++ (m.afterCalls first).executedWords second := by
  induction first generalizing m with
  | nil => rfl
  | cons call calls ih =>
      rw [List.cons_append, executedWords, ih, executedWords, afterCalls_cons,
        List.append_assoc]

/-- What some calls tell their host, in order. -/
def reports (m : Machine) : List HostCall → List Report
  | [] => []
  | call :: calls => m.report call :: (m.call call).machine.reports calls

/-! ## Two machines -/

/-- The same call at two machines: it tells both hosts the same, executes the same word at
    both, and leaves machines that are related by `R`. -/
structure AnswerAlike (R : Machine → Machine → Prop) (a b : Machine) (call : HostCall) :
    Prop where
  report : b.report call = a.report call
  executed? : b.executed? call = a.executed? call
  related : R (a.call call).machine (b.call call).machine

/-- Machines that answer a call alike while the first executes only words with `P` answer any
    number of calls alike. -/
theorem run_alike {R : Machine → Machine → Prop} {P : Word → Prop} {a b : Machine}
    {calls : List HostCall}
    (hstep : ∀ a b, R a b → ∀ call ∈ calls, (∀ w, a.executed? call = some w → P w) →
      AnswerAlike R a b call)
    (hab : R a b) (hwords : ∀ w ∈ a.executedWords calls, P w) :
    b.reports calls = a.reports calls ∧ b.executedWords calls = a.executedWords calls ∧
      R (a.afterCalls calls) (b.afterCalls calls) := by
  induction calls generalizing a b with
  | nil => exact ⟨rfl, rfl, hab⟩
  | cons call calls ih =>
      obtain ⟨hfirst, hothers⟩ := (a.forall_executedWords_cons call calls).mp hwords
      have hcall := hstep a b hab call (List.mem_cons_self ..) hfirst
      obtain ⟨hreports, hexecuted, hafter⟩ :=
        ih (fun a b hab c hc => hstep a b hab c (List.mem_cons_of_mem _ hc)) hcall.related hothers
      refine ⟨?_, ?_, hafter⟩
      · rw [reports, reports, hcall.report, hreports]
      · rw [executedWords, executedWords, hcall.executed?, hexecuted]

end Machine

/-! ## Memories of one word -/

/-- The memory with `high` at every even address and `low` at every odd one. -/
def Memory.filled (high low : UInt8) : Memory :=
  ⟨Vector.ofFn fun address => if address.val % 2 = 0 then high else low⟩

/-- In a memory of one word, that word is fetched from every even address. -/
theorem Machine.fetch_filled {m : Machine} {high low : UInt8}
    (hmemory : m.memory = .filled high low) (heven : m.registers.pc.toNat % 2 = 0)
    (hpc : m.registers.pc.toNat < 4096) : m.fetch = .ok (.ofBytes high low) := by
  have hfit : m.registers.pc.toNat + 2 ≤ 4096 := by omega
  have hodd : ¬ (m.registers.pc.toNat + 1) % 2 = 0 := by omega
  rw [fetch_of_le hfit]
  simp [wordAt, hmemory, Memory.filled, heven, hodd]

end Chip8
