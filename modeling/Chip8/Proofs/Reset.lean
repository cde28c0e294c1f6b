/-
  Chip8.Proofs.Reset

  A reset forgets. What it leaves depends on the machine before it in four parts only, those
  that it keeps: the dialect, the policy, the place in the random stream and the file of the
  program (`reset_eq_of_kept`). If the program of the file can be loaded again, it leaves a
  machine just switched on with that program (`reset_of_accepted`), and otherwise one without
  a program (`reset_of_refused`). As the four parts are kept even then, a later reset does
  not notice the one that failed.
-/
import Chip8.Proofs.Loading

namespace Chip8

open RandomStream (Generator)

/-- Why the program of a file is refused, if there is a file and its program is refused. -/
def FileSystem.refusal? (files : FileSystem) (path? : Option String) : Option Error :=
  match path? with
  | none => none
  | some path =>
    match (Load.file files path).program with
    | .error error => some error
    | .ok _ => none

namespace Machine

/-- What a reset keeps. -/
def kept (m : Machine) : Dialect × UnknownWordPolicy × Generator × Option String :=
  (m.dialect, m.unknownWords, m.random, m.source)

/-- The machine with the dialect, the policy and the place in the random stream of another. -/
def setUpAs (m other : Machine) : Machine :=
  { m with
    dialect := other.dialect, unknownWords := other.unknownWords, random := other.random }

/-! ## The program of a file, if there is a file -/

variable {m : Machine} {files : FileSystem}

theorem loadFile?_of_refused {path? : Option String} {error : Error}
    (h : files.refusal? path? = some error) : m.loadFile? files path? = .failed error m := by
  cases path? with
  | none => cases h
  | some path =>
      rw [FileSystem.refusal?] at h
      split at h
      · next reason hprogram =>
        cases h
        exact call_of_refused hprogram
      · cases h

/-- A program that is not refused is loaded into whatever machine. -/
theorem loadFile?_of_accepted {path? : Option String} (h : files.refusal? path? = none) :
    path? = none ∨
    ∃ path program, path? = some path ∧ ∀ m : Machine,
      (m.loadFile? files path?).result = .ok () ∧
        (m.loadFile? files path?).machine = m.loaded program path? := by
  cases path? with
  | none => exact Or.inl rfl
  | some path =>
      rw [FileSystem.refusal?] at h
      split at h
      · cases h
      · next program hprogram =>
        refine Or.inr ⟨path, program, rfl, fun m => ?_⟩
        have hload := m.call_load (.file files path)
        rw [hprogram] at hload
        exact ⟨congrArg Outcome.result hload, congrArg Outcome.machine hload⟩

/-! ## Resets -/

theorem powerOn_source (m : Machine) : m.powerOn.source = m.source := by
  rw [powerOn]

/-- After the machine was switched off and on, its program is loaded again. -/
theorem reset_loads (m : Machine) (files : FileSystem) :
    (m.reset files).result = (m.powerOn.loadFile? files m.source).result ∧
      (m.reset files).machine = (m.powerOn.loadFile? files m.source).machine := by
  simp only [reset, Outcome.andThen, powerOn_source, and_self]

/-- A machine just switched on is one that is booted without a program. -/
theorem powerOn_eq (m : Machine) (entropy : Generator) :
    m.powerOn = { (initial entropy).setUpAs m with source := m.source } := by
  rw [powerOn, setUpAs, initial, initial]

theorem boot_none (files : FileSystem) (entropy : Generator) :
    boot files none entropy = .done () (initial entropy) := rfl

theorem loaded_setUpAs (m other : Machine) (program : List UInt8) (path? : Option String) :
    (m.setUpAs other).loaded program path? = (m.loaded program path?).setUpAs other := by
  simp only [setUpAs, loaded]

theorem loaded_source (m : Machine) (program : List UInt8) (path : String)
    (source : Option String) :
    { m with source }.loaded program (some path) = m.loaded program (some path) := by
  simp only [loaded, Option.some_or]

theorem reset_of_refused {error : Error} (h : files.refusal? m.source = some error)
    (entropy : Generator) :
    (m.reset files).result = .error error ∧
      (m.reset files).machine =
        { (boot files none entropy).machine.setUpAs m with source := m.source } := by
  obtain ⟨hresult, hmachine⟩ := m.reset_loads files
  rw [hresult, hmachine, loadFile?_of_refused h, m.powerOn_eq entropy, boot_none]
  exact ⟨rfl, rfl⟩

theorem reset_of_accepted (h : files.refusal? m.source = none) (entropy : Generator) :
    (m.reset files).result = .ok () ∧ (boot files m.source entropy).result = .ok () ∧
      (m.reset files).machine = (boot files m.source entropy).machine.setUpAs m := by
  obtain ⟨hresult, hmachine⟩ := m.reset_loads files
  rcases loadFile?_of_accepted h with hnone | ⟨path, program, hpath, hload⟩
  · have hpower : m.powerOn = (initial entropy).setUpAs m := by
      rw [m.powerOn_eq entropy, hnone, setUpAs, initial]
    rw [hresult, hmachine, hpower, hnone, boot_none]
    exact ⟨rfl, rfl, rfl⟩
  · obtain ⟨hagain, hreset⟩ := hload m.powerOn
    obtain ⟨hfirst, hboot⟩ := hload (initial entropy)
    rw [hresult, hmachine, hagain, hreset, boot, hfirst, hboot, m.powerOn_eq entropy, hpath,
      loaded_source, loaded_setUpAs]
    exact ⟨rfl, rfl, rfl⟩

theorem loadFile?_kept (m : Machine) (files : FileSystem) :
    (m.loadFile? files m.source).machine.kept = m.kept := by
  cases h : files.refusal? m.source with
  | some error => rw [loadFile?_of_refused h, Outcome.failed]
  | none =>
      rcases loadFile?_of_accepted h with hnone | ⟨path, program, hpath, hload⟩
      · rw [hnone, loadFile?, Outcome.done]
      · rw [(hload m).2, hpath]
        simp only [kept, loaded, Option.some_or, hpath]

/-- A reset keeps what it keeps whether or not the program can be loaded again. -/
theorem reset_kept (m : Machine) (files : FileSystem) : (m.reset files).machine.kept = m.kept := by
  have hpower : m.powerOn.kept = m.kept := by
    rw [kept, kept, powerOn, initial]
  have hload := m.powerOn.loadFile?_kept files
  rw [powerOn_source, hpower] at hload
  rw [(m.reset_loads files).2, hload]

/-- Machines with the same in what a reset keeps are equal after a reset. -/
theorem reset_eq_of_kept {n : Machine} (h : n.kept = m.kept) (files : FileSystem) :
    n.reset files = m.reset files := by
  simp only [kept, Prod.mk.injEq] at h
  obtain ⟨hdialect, hpolicy, hrandom, hsource⟩ := h
  have hpower : n.powerOn = m.powerOn := by
    simp only [powerOn, hdialect, hpolicy, hrandom, hsource]
  rw [reset, hpower, reset]

/-- If a machine has no file, or the program of its file can be loaded, a reset succeeds, and
    leaves what a boot from this file would now build, apart from the dialect, the policy and
    the place in the random stream. Otherwise it fails for the reason for which the program is
    refused, and leaves what a boot without a file builds, apart from these and the file. The
    dialect, the policy, the place in the random stream and the file are those before the
    reset, and all else before it is forgotten: machines that agree in the four are equal
    after a reset, and one that comes later, be it with other files, leaves the same as if
    the first had not been. -/
theorem reset_erases_history (m : Machine) (files : FileSystem) :
    (∀ entropy,
      match files.refusal? m.source with
      | none =>
        (m.reset files).result = .ok () ∧ (boot files m.source entropy).result = .ok () ∧
          (m.reset files).machine = (boot files m.source entropy).machine.setUpAs m
      | some error =>
        (m.reset files).result = .error error ∧
          (m.reset files).machine =
            { (boot files none entropy).machine.setUpAs m with source := m.source }) ∧
    (m.reset files).machine.kept = m.kept ∧
    (∀ n : Machine, n.kept = m.kept → n.reset files = m.reset files) ∧
    (∀ later, (m.reset files).machine.reset later = m.reset later) := by
  refine ⟨fun entropy => ?_, m.reset_kept files, fun n hn => reset_eq_of_kept hn files,
    fun later => reset_eq_of_kept (m.reset_kept files) later⟩
  split
  · next haccepted => exact reset_of_accepted haccepted entropy
  · next error hrefused => exact reset_of_refused hrefused entropy

/-- A machine of the modern dialect that has kept key 5 for V2, with a program from a file. -/
def leftWaiting : Machine :=
  { initial (.ofSeed 3) with
    registers := { Registers.initial with pc := 0x3A2, index := 0x0FF }
    mode := .awaitingKey 2 (some 5)
    dialect := .modern
    lastWord := 0xF20A
    source := some "rom" }

/-- A machine that does something else, but is set up the same. -/
def leftRunning : Machine :=
  { initial (.ofSeed 3) with dialect := .modern, source := some "rom" }

/-- Both machines are equal after a reset, also if the file was missing for another one
    before. -/
theorem reset_erases_history_leftWaiting :
    let files : FileSystem := fun _ => .ok [0x12, 0x00]
    let gone : FileSystem := fun _ => .error .missing
    leftRunning.kept = leftWaiting.kept ∧
    leftRunning.reset files = leftWaiting.reset files ∧
    (leftWaiting.reset gone).result = .error (.file .missing) ∧
    (leftWaiting.reset gone).machine.reset files = leftWaiting.reset files ∧
    (leftWaiting.reset files).result = .ok () := by
  intro files gone
  have hkept : leftRunning.kept = leftWaiting.kept := by
    simp only [kept, leftRunning, leftWaiting, initial]
  obtain ⟨hback, -, hsame, -⟩ := reset_erases_history leftWaiting files
  obtain ⟨hgone, -, -, hlater⟩ := reset_erases_history leftWaiting gone
  exact ⟨hkept, hsame leftRunning hkept, (hgone (.ofSeed 0)).1, hlater files,
    (hback (.ofSeed 0)).1⟩

end Machine

end Chip8
