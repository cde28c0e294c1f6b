/-
  Chip8.Proofs.RandomBytes

  A word CXNN takes the next byte of the random stream, and nothing else does: no other
  word, no failed call, no tick, key, load or reset moves the generator of a machine
  (`call_random`). So after any calls but a new seed the generator has moved by as many
  bytes as words CXNN were executed (`afterCalls_random`), and each of these words found
  the byte whose number is its own.
-/
import Chip8.Proofs.Trace
import Mathlib.Logic.Function.Iterate

namespace Chip8

open RandomStream (Generator)

/-- Number of words CXNN, also with a mask of zero. -/
def Word.draws (words : List Word) : Nat :=
  words.countP fun w => w.family = 0xC

theorem Word.draws_append (first second : List Word) :
    draws (first ++ second) = draws first + draws second :=
  List.countP_append

/-- Whether a call sets the random stream to its start. -/
def HostCall.Seeds : HostCall → Prop
  | .seed _ => True
  | _ => False

theorem Instruction.decode_random {w : Word} (hfamily : w.family = 0xC) :
    decode w = .random w.x w.byte := by
  simp only [decode, decode?, hfamily, Option.getD_some]

namespace Machine

variable {m : Machine}

/-! ## Calls that execute a word -/

/-- A word CXNN always succeeds. It takes a byte, and puts what its mask keeps of it
    into VX. -/
theorem execute_random_eq {w : Word} (hfamily : w.family = 0xC) :
    (m.execute w).result = .ok () ∧ (m.execute w).machine.random = m.random.next ∧
      (m.execute w).machine.registers.get w.x = m.random.byte &&& w.byte := by
  have hdecode := Instruction.decode_random hfamily
  rw [execute_of_decode hdecode rfl]
  exact ⟨rfl, rfl, (m.registers.get_set ..).trans (if_pos rfl)⟩

theorem execute_random {w : Word} (h : (m.execute w).result = .ok ()) :
    (m.execute w).machine.random = Generator.next^[Word.draws [w]] m.random := by
  by_cases hfamily : w.family = 0xC
  · simp [(execute_random_eq hfamily).2.1, Word.draws, hfamily]
  · rcases execute_sameIn h .random with hsame | hchange
    · have hkept : (m.execute w).machine.random = m.random := hsame
      simp [hkept, Word.draws, hfamily]
    · cases hchange with
      | random hC => exact absurd hC hfamily

/-! ## Calls that execute none -/

theorem setKey_random (m : Machine) (number : Nat) (isDown : Bool) :
    (m.setKey number isDown).machine.random = m.random := by
  rw [m.setKey_machine number isDown]
  rfl

theorem loadProgram_random (m : Machine) (program : List UInt8) :
    (m.loadProgram program).machine.random = m.random := by
  unfold loadProgram
  split
  · rfl
  · rfl

theorem loadFile_random (m : Machine) (files : FileSystem) (path : String) :
    (m.loadFile files path).machine.random = m.random := by
  unfold loadFile
  split
  · rfl
  · next program _ =>
    have hload := m.loadProgram_random program
    unfold Outcome.andThen
    split
    · exact hload
    · exact hload

theorem loadFile?_random (m : Machine) (files : FileSystem) (path : Option String) :
    (m.loadFile? files path).machine.random = m.random := by
  cases path with
  | none => rfl
  | some path => exact m.loadFile_random files path

-- The generator has a name of its own here: against `m.random` the two machines would be
-- compared before their generators.
theorem powerOn_random {generator : Generator} (h : m.random = generator) :
    m.powerOn.random = generator := by
  simp only [powerOn, initial, h]

theorem reset_random (m : Machine) (files : FileSystem) :
    (m.reset files).machine.random = m.random := by
  calc (m.reset files).machine.random
    _ = (m.powerOn.loadFile? files m.powerOn.source).machine.random := rfl
    _ = m.powerOn.random := m.powerOn.loadFile?_random files m.powerOn.source
    _ = m.random := powerOn_random rfl

theorem cycle_random_of_not_executed (h : m.executed? .cycle = none) :
    m.cycle.machine.random = m.random := by
  rcases m.cycle_sameIn .random nofun nofun with hsame | ⟨w, hw, -⟩
  · exact hsame
  · rw [h] at hw
    cases hw

/-- A call that executes no word, be it that it failed, leaves the stream alone. -/
theorem call_random_of_not_executed {call : HostCall} (hseed : ¬ call.Seeds)
    (h : m.executed? call = none) : (m.call call).machine.random = m.random := by
  cases call with
  | cycle => exact cycle_random_of_not_executed h
  | execute word =>
      cases hresult : (m.execute word).result with
      | error error => exact congrArg random (execute_machine_of_error hresult)
      | ok done =>
          have hcall : (m.call (.execute word)).result = .ok () := hresult
          rw [executed?_of_ok hcall] at h
          cases h
  | setKey number isDown => exact m.setKey_random number isDown
  | loadProgram program => exact m.loadProgram_random program
  | loadFile files path => exact m.loadFile_random files path
  | reset files => exact m.reset_random files
  | seed seed => exact absurd trivial hseed
  | tick | skipInstruction | clearScreen | setDialect | setPolicy => rfl

/-! ## Any number of calls -/

/-- A call moves the generator by a byte if it executes a word CXNN, and otherwise leaves
    it where it is. -/
theorem call_random {call : HostCall} (hseed : ¬ call.Seeds) :
    (m.call call).machine.random =
      Generator.next^[Word.draws (m.executed? call).toList] m.random := by
  cases hexecuted : m.executed? call with
  | none => exact call_random_of_not_executed hseed hexecuted
  | some w =>
      obtain ⟨hcall, hok⟩ := call_of_executed hexecuted
      rw [hcall]
      exact execute_random hok

theorem afterCalls_random {calls : List HostCall} (hseed : ∀ call ∈ calls, ¬ call.Seeds) :
    (m.afterCalls calls).random =
      Generator.next^[Word.draws (m.executedWords calls)] m.random := by
  induction calls generalizing m with
  | nil => rfl
  | cons call calls ih =>
      obtain ⟨hfirst, hothers⟩ := List.forall_mem_cons.mp hseed
      rw [afterCalls_cons, ih hothers, call_random hfirst, executedWords, Word.draws_append,
        Nat.add_comm, Function.iterate_add_apply]

/-- Whatever a host does short of setting a new seed, and whether or not it succeeds, the
    generator moves by exactly one byte for each word CXNN that is executed. Each of these
    words puts into VX what its mask keeps of the byte whose number is the number of words
    CXNN before it. -/
theorem random_byte_per_draw {calls : List HostCall}
    (hseed : ∀ call ∈ calls, ¬ call.Seeds) :
    (m.afterCalls calls).random =
      Generator.next^[Word.draws (m.executedWords calls)] m.random ∧
    ∀ before call later w, calls = before ++ call :: later →
      (m.afterCalls before).executed? call = some w → w.family = 0xC →
      (m.afterCalls (before ++ [call])).registers.get w.x =
        (Generator.next^[Word.draws (m.executedWords before)] m.random).byte &&& w.byte := by
  refine ⟨afterCalls_random hseed, ?_⟩
  rintro before call later w rfl hexecuted hfamily
  have hbefore := afterCalls_random (m := m) (List.forall_mem_append.mp hseed).1
  rw [afterCalls_concat_of_executed hexecuted, (execute_random_eq hfamily).2.2, hbefore]

theorem executed?_execute_draw {w : Word} (hfamily : w.family = 0xC) :
    m.executed? (.execute w) = some w :=
  executed?_of_ok (execute_random_eq hfamily).1

/-- A machine that does nothing but put half of a random byte into V3. -/
def rollingV3 : Machine :=
  { initial (.ofSeed 7) with memory := .filled 0xC3 0x0F }

theorem executed_rollingV3 : rollingV3.executed? .cycle = some 0xC30F := by
  have hmemory : rollingV3.memory = .filled 0xC3 0x0F := rfl
  have hfetch := fetch_filled hmemory (by decide) (by decide)
  exact executed?_cycle_of_fetch rfl hfetch rfl

/-- A draw under a mask of zero counts, and a reset between draws does not go back. -/
theorem random_byte_per_draw_rollingV3 :
    let files : FileSystem := fun _ => .error .missing
    let calls : List HostCall :=
      [.cycle, .execute 0xC500, .setKey 16 true, .reset files, .execute 0xC4FF]
    ((∀ call ∈ calls, ¬ call.Seeds) ∧
      rollingV3.executedWords calls = [0xC30F, 0xC500, 0xC4FF]) ∧
    (rollingV3.afterCalls calls).random = Generator.next^[3] rollingV3.random ∧
    (rollingV3.afterCalls calls).registers.get 4 =
      (Generator.next^[2] rollingV3.random).byte &&& 0xFF := by
  intro files calls
  have hseed : ∀ call ∈ calls, ¬ call.Seeds := by simp [calls, HostCall.Seeds]
  have hreset : ∀ m : Machine, m.executed? (.reset files) = none :=
    fun m => executed?_of_not_attempted rfl
  have hdraw : ∀ m : Machine, ∀ w : Word, w.family = 0xC → m.executed? (.execute w) = some w :=
    fun m w hfamily => executed?_execute_draw hfamily
  have hwords : rollingV3.executedWords calls = [0xC30F, 0xC500, 0xC4FF] := by
    simp [calls, executedWords, executed_rollingV3, hreset, hdraw _ 0xC500 rfl,
      hdraw _ 0xC4FF rfl]
  have hbefore : rollingV3.executedWords [.cycle, .execute 0xC500, .setKey 16 true, .reset files] =
      [0xC30F, 0xC500] := by
    simp [executedWords, executed_rollingV3, hreset, hdraw _ 0xC500 rfl]
  obtain ⟨hrandom, hstored⟩ := random_byte_per_draw hseed
  rw [hwords] at hrandom
  have hlast := hstored [.cycle, .execute 0xC500, .setKey 16 true, .reset files] _ [] 0xC4FF rfl
    (executed?_execute_draw rfl) rfl
  rw [hbefore] at hlast
  exact ⟨⟨hseed, hwords⟩, hrandom, hlast⟩

end Machine

end Chip8
