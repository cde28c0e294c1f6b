/-
  Chip8.Proofs.SkipPolicy

  To pass over unknown words is the same as to halt at them under a host that resumes.
  No instruction looks at the policy, the last word or the counter of a machine, its
  `Books` (`work_withBooks`). So two machines that differ in nothing else
  stay in step, one with the policy to skip and one with the policy to halt whose host
  skips the instruction after such a fault: `InStep.keepsStep` for one event,
  `skip_follows_resumed_halt` for any number of them.
-/
import Chip8.Proofs.Cycle
import Chip8.Proofs.HostCall

namespace Chip8

/-! ## What no instruction looks at -/

/-- The policy of a machine, and what it notes of the words that it has executed. -/
structure Books where
  unknownWords : UnknownWordPolicy
  lastWord : Word
  counter : UInt64

/-- The books after one more instruction. -/
def Books.complete (books : Books) (word : Word) : Books :=
  { books with lastWord := word, counter := books.counter + 1 }

namespace Machine

/-- The books of a machine. -/
def books (m : Machine) : Books :=
  ⟨m.unknownWords, m.lastWord, m.counter⟩

/-- The machine with other books. -/
def withBooks (m : Machine) (books : Books) : Machine :=
  { m with
    unknownWords := books.unknownWords, lastWord := books.lastWord, counter := books.counter }

end Machine

namespace Instruction

variable (i : Instruction) (m : Machine) (books : Books)

theorem obstacle?_withBooks : i.obstacle? (m.withBooks books) = i.obstacle? m := by
  cases i with
  | _ => rfl

theorem flow_withBooks : i.flow (m.withBooks books) = i.flow m := by
  cases i with
  | skipIf condition =>
      cases condition with
      | _ => rfl
  | _ => rfl

theorem work_withBooks : i.work (m.withBooks books) = (i.work m).withBooks books := by
  cases i with
  | _ => rfl

/-- An instruction leaves the books alone. -/
theorem work_books : (i.work m).books = m.books := by
  cases i with
  | _ => rfl

/-- An instruction that starts a wait starts it for a register that exists. -/
theorem work_mode :
    (i.work m).mode = m.mode ∨ ∃ x : Fin 16, (i.work m).mode = .awaitingKey x none := by
  cases i with
  | waitKey x => exact Or.inr ⟨x, rfl⟩
  | _ => exact Or.inl rfl

end Instruction

namespace Machine

theorem follow_withBooks (m : Machine) (books : Books) (flow : Flow) :
    (m.withBooks books).follow flow = (m.follow flow).withBooks books := by
  cases flow with
  | _ => rfl

theorem follow_books (m : Machine) (flow : Flow) : (m.follow flow).books = m.books := by
  cases flow with
  | _ => rfl

theorem follow_mode (m : Machine) (flow : Flow) : (m.follow flow).mode = m.mode := by
  cases flow with
  | _ => rfl

theorem performed_withBooks (m : Machine) (books : Books) (i : Instruction) :
    (m.withBooks books).performed i = (m.performed i).withBooks books := by
  rw [performed, performed, Instruction.work_withBooks, Instruction.flow_withBooks,
    follow_withBooks]

theorem performed_books (m : Machine) (i : Instruction) : (m.performed i).books = m.books := by
  rw [performed, follow_books, Instruction.work_books]

theorem performed_register_lt {m : Machine} {i : Instruction} {register : Nat}
    {pressed : Option UInt8} (hmode : m.mode = .running)
    (h : (m.performed i).mode = .awaitingKey register pressed) : register < 16 := by
  rw [performed, follow_mode] at h
  rcases i.work_mode m with hkept | ⟨x, hwait⟩
  · rw [hkept, hmode] at h
    cases h
  · rw [hwait] at h
    cases h
    exact x.isLt

theorem execute_withBooks_of_no_obstacle {m : Machine} {word : Word} (books : Books)
    (h : (Instruction.decode word).obstacle? m = none) :
    (m.withBooks books).execute word =
      ⟨.ok (), ((m.performed (.decode word)).complete word).withBooks (books.complete word),
        [m.startRecord word]⟩ := by
  rw [execute_of_no_obstacle ((Instruction.obstacle?_withBooks _ m books).trans h),
    performed_withBooks]
  rfl

end Machine

/-! ## Two hosts -/

/-- Whether an error is, faults around it aside, that a word is no instruction. -/
def Error.isUnknownWord (error : Error) : Bool :=
  match error.cause with
  | .unknownWord _ => true
  | _ => false

/-- Whether a word was passed over. -/
def Record.isSkipping : Record → Bool
  | .skipping .. => true
  | _ => false

/-- Whether a word was passed over in a call. -/
def Outcome.skips (outcome : Outcome Unit) : Bool :=
  outcome.log.any Record.isSkipping

/-- How a host brings an event to a machine. -/
abbrev Host := Machine → Event → Outcome Unit

namespace Host

/-- The host that makes the call of each event and nothing else. -/
def direct : Host :=
  fun m event => m.call event.call

/-- The host that skips the instruction after a call that failed at an unknown word. -/
def resuming : Host :=
  fun m event =>
    let outcome := m.call event.call
    match outcome.result with
    | .ok _ => outcome
    | .error error =>
      if error.isUnknownWord then { outcome with machine := outcome.machine.skipInstruction }
      else outcome

theorem direct_cycle (m : Machine) : direct m .cycle = m.cycle := rfl

theorem resuming_of_ok {m : Machine} {event : Event} (h : (direct m event).result = .ok ()) :
    resuming m event = direct m event := by
  rw [direct] at h ⊢
  simp only [resuming, h]

theorem resuming_of_unknownWord {m : Machine} {event : Event} {error : Error}
    (h : (direct m event).result = .error error) (hunknown : error.isUnknownWord = true) :
    resuming m event =
      { direct m event with machine := (direct m event).machine.skipInstruction } := by
  rw [direct] at h ⊢
  simp only [resuming, h, hunknown, if_true]

theorem resuming_of_other_error {m : Machine} {event : Event} {error : Error}
    (h : (direct m event).result = .error error) (hother : error.isUnknownWord = false) :
    resuming m event = direct m event := by
  rw [direct] at h ⊢
  simp only [resuming, h, hother, Bool.false_eq_true, if_false]

/-- What each of some events gives. -/
def outcomes (host : Host) (m : Machine) : List Event → List (Outcome Unit)
  | [] => []
  | event :: events => host m event :: outcomes host (host m event).machine events

/-- The machine after some events. -/
def after (host : Host) (m : Machine) : List Event → Machine
  | [] => m
  | event :: events => after host (host m event).machine events

end Host

/-! ## One event -/

/-- The first outcome passed over a word at which the second failed. -/
def Outcome.PassedOver (first second : Outcome Unit) : Prop :=
  ∃ word pc, first.result = .ok () ∧ .skipping word pc ∈ first.log ∧
    second.result = .error (.fault word pc (.unknownWord word))

/-- Both outcomes came to the same result, and neither met a word that is no
    instruction. -/
def Outcome.Agreed (first second : Outcome Unit) : Prop :=
  first.result = second.result ∧ first.skips = false ∧
    ∀ error, second.result = .error error → error.isUnknownWord = false

/-- What an event gives where unknown words are passed over, and what it gives where they
    are halted at and the host resumes. -/
structure Outcome.Corresponds (first second : Outcome Unit) : Prop where
  /-- The machines are equal, the books aside. -/
  machines : second.machine = first.machine.withBooks second.machine.books
  results : first.PassedOver second ∨ first.Agreed second

/-- Two machines that differ only in their books, the first of which passes over unknown
    words while the second halts at them. -/
structure Machine.InStep (a b : Machine) : Prop where
  machines : b = a.withBooks b.books
  skip : a.unknownWords = .skip
  halt : b.unknownWords = .halt
  register_lt : ∀ register pressed, a.mode = .awaitingKey register pressed → register < 16

/-- What an event keeps: outcomes that correspond, machines that are in step, and the lead of
    the counter of the first machine, which grows by one if that machine passed over a word. -/
structure Outcome.KeepsStep (a b : Machine) (first second : Outcome Unit) : Prop where
  corresponds : first.Corresponds second
  inStep : first.machine.InStep second.machine
  counter : first.machine.counter + b.counter =
    second.machine.counter + a.counter + .ofNat first.skips.toNat

/-- Where both machines come to the same result, which is not that a word is unknown, they
    stay in step if the event left the same in both, the books aside. -/
theorem Outcome.KeepsStep.same {a after : Machine} {books : Books} (booksAfter : Books)
    {result : Except Error Unit} {log logAfter : List Record}
    (hresult : ∀ error, result = .error error → error.isUnknownWord = false)
    (hlog : log.any Record.isSkipping = false)
    (hskip : after.unknownWords = .skip) (hhalt : booksAfter.unknownWords = .halt)
    (hregister : ∀ register pressed, after.mode = .awaitingKey register pressed →
      register < 16)
    (hcounter : after.counter + books.counter = booksAfter.counter + a.counter) :
    Outcome.KeepsStep a (a.withBooks books) ⟨result, after, log⟩
      ⟨result, after.withBooks booksAfter, logAfter⟩ := by
  refine ⟨⟨rfl, Or.inr ⟨rfl, hlog, hresult⟩⟩, ⟨rfl, hskip, hhalt, hregister⟩, ?_⟩
  rw [Outcome.skips, hlog]
  exact hcounter.trans (UInt64.add_zero _).symm

theorem ok_not_unknownWord (error : Error) (h : (.ok () : Except Error Unit) = .error error) :
    error.isUnknownWord = false := by
  cases h

namespace Machine

variable {a : Machine} {books : Books}

theorem isUnknownWord_of_obstacle {m : Machine} {word : Word} {cause : Error} (pc : Word)
    (h : (Instruction.decode word).obstacle? m = some cause)
    (hne : cause ≠ .unknownWord word) : (Error.fault word pc cause).isUnknownWord = false := by
  rcases (Instruction.obstacle?_eq_some_iff _ _ _).mp h with
    ⟨-, -, rfl⟩ | ⟨-, -, -, rfl⟩ | ⟨-, -, -, rfl⟩ | ⟨unknown, -, rfl⟩
  · rfl
  · rfl
  · rfl
  · exact absurd (by rw [unknownWord_obstacle h]) hne

/-- An instruction that is performed is performed on both machines. -/
theorem performed_keepsStep {word : Word} (h : a.InStep (a.withBooks books))
    (hmode : a.mode = .running) (hnone : (Instruction.decode word).obstacle? a = none)
    (hfirst : Host.direct a .cycle = a.execute word)
    (hsecond : Host.direct (a.withBooks books) .cycle = (a.withBooks books).execute word) :
    Outcome.KeepsStep a (a.withBooks books) (Host.direct a .cycle)
      (Host.resuming (a.withBooks books) .cycle) := by
  have hbooks := performed_books a (.decode word)
  have hpolicy : (a.performed (.decode word)).unknownWords = a.unknownWords :=
    congrArg Books.unknownWords hbooks
  have hcounter : (a.performed (.decode word)).counter = a.counter :=
    congrArg Books.counter hbooks
  rw [execute_of_no_obstacle hnone] at hfirst
  rw [execute_withBooks_of_no_obstacle books hnone] at hsecond
  rw [Host.resuming_of_ok (congrArg Outcome.result hsecond), hfirst, hsecond]
  -- both machines count the word, so neither gains on the other
  refine .same _ ok_not_unknownWord rfl (hpolicy.trans h.skip) h.halt ?_ ?_
  · intro register pressed hawaiting
    exact performed_register_lt hmode hawaiting
  · show (a.performed (.decode word)).counter + 1 + books.counter =
      books.counter + 1 + a.counter
    rw [hcounter]
    ac_rfl

/-- An unknown word is passed over by the first machine, and is a fault of the second, after
    which the host skips it. -/
theorem passedOver_keepsStep {word : Word} (h : a.InStep (a.withBooks books))
    (hmode : a.mode = .running)
    (hunknown : (Instruction.decode word).obstacle? a = some (.unknownWord word))
    (hfirst : Host.direct a .cycle = a.execute word)
    (hsecond : Host.direct (a.withBooks books) .cycle = (a.withBooks books).execute word) :
    Outcome.KeepsStep a (a.withBooks books) (Host.direct a .cycle)
      (Host.resuming (a.withBooks books) .cycle) := by
  have hobstacle := (Instruction.obstacle?_withBooks (.decode word) a books).trans hunknown
  have hnot : ¬ (Error.unknownWord word = .unknownWord word ∧
      (a.withBooks books).unknownWords = .skip) := by
    rw [h.halt]
    rintro ⟨-, hpolicy⟩
    cases hpolicy
  rw [execute_of_obstacle hunknown, if_pos ⟨rfl, h.skip⟩] at hfirst
  rw [execute_of_obstacle hobstacle, if_neg hnot] at hsecond
  -- skipping an instruction also sets the machine running, which it is already
  have hskipped : (a.withBooks books).skipInstruction =
      ((a.advance 2).complete word).withBooks books := by
    rw [skipInstruction, ← hmode]
    rfl
  rw [Host.resuming_of_unknownWord (congrArg Outcome.result hsecond) rfl, hfirst, hsecond]
  refine ⟨⟨hskipped, Or.inl ⟨word, _, rfl, ?_, rfl⟩⟩,
    ⟨hskipped, h.skip, h.halt, h.register_lt⟩, ?_⟩
  · exact List.mem_cons_of_mem _ (List.mem_singleton.mpr rfl)
  -- only the first machine counts the word
  · show a.counter + 1 + books.counter = books.counter + a.counter + 1
    ac_rfl

/-- Any other fault of the first machine is one of the second, too. -/
theorem fault_keepsStep {word : Word} {cause : Error} (h : a.InStep (a.withBooks books))
    (hcause : (Instruction.decode word).obstacle? a = some cause)
    (hother : cause ≠ .unknownWord word)
    (hfirst : Host.direct a .cycle = a.execute word)
    (hsecond : Host.direct (a.withBooks books) .cycle = (a.withBooks books).execute word) :
    Outcome.KeepsStep a (a.withBooks books) (Host.direct a .cycle)
      (Host.resuming (a.withBooks books) .cycle) := by
  have hobstacle := (Instruction.obstacle?_withBooks (.decode word) a books).trans hcause
  have hknown := isUnknownWord_of_obstacle (a.withBooks books).registers.pc hcause hother
  rw [execute_of_obstacle hcause, if_neg fun hand => hother hand.1] at hfirst
  rw [execute_of_obstacle hobstacle, if_neg fun hand => hother hand.1] at hsecond
  rw [Host.resuming_of_other_error (congrArg Outcome.result hsecond) hknown, hfirst, hsecond]
  refine .same _ ?_ rfl h.skip h.halt h.register_lt (UInt64.add_comm ..)
  intro error herror
  cases herror
  exact hknown

theorem cycle_keepsStep (h : a.InStep (a.withBooks books)) :
    Outcome.KeepsStep a (a.withBooks books) (Host.direct a .cycle)
      (Host.resuming (a.withBooks books) .cycle) := by
  cases hmode : a.mode with
  | awaitingKey register pressed =>
      cases pressed with
      | none =>
          have hfirst : Host.direct a .cycle = .done () a := cycle_of_no_press hmode
          have hsecond : Host.direct (a.withBooks books) .cycle = .done () (a.withBooks books) :=
            cycle_of_no_press hmode
          rw [Host.resuming_of_ok (congrArg Outcome.result hsecond), hfirst, hsecond]
          exact .same _ ok_not_unknownWord rfl h.skip h.halt h.register_lt (UInt64.add_comm ..)
      | some key =>
          have hlt := h.register_lt register _ hmode
          have hfirst : Host.direct a .cycle = .done () (a.resumed ⟨register, hlt⟩ key) :=
            cycle_of_press hmode hlt
          have hsecond : Host.direct (a.withBooks books) .cycle =
              .done () ((a.withBooks books).resumed ⟨register, hlt⟩ key) :=
            cycle_of_press (m := a.withBooks books) hmode hlt
          rw [Host.resuming_of_ok (congrArg Outcome.result hsecond), hfirst, hsecond]
          -- the end of a wait counts as a cycle but leaves the last word
          refine .same { books with counter := books.counter + 1 } ok_not_unknownWord rfl
            h.skip h.halt ?_ ?_
          · intro other pressed hrunning
            cases hrunning
          · show a.counter + 1 + books.counter = books.counter + 1 + a.counter
            ac_rfl
  | running =>
      by_cases hpc : a.registers.pc.toNat + 2 ≤ 4096
      · have hfirst : Host.direct a .cycle = a.execute (a.wordAt _ hpc) :=
          cycle_of_fetch hmode (fetch_of_le hpc)
        have hsecond : Host.direct (a.withBooks books) .cycle =
            (a.withBooks books).execute (a.wordAt _ hpc) :=
          cycle_of_fetch hmode (fetch_of_le hpc)
        cases hcause : (Instruction.decode (a.wordAt _ hpc)).obstacle? a with
        | none => exact performed_keepsStep h hmode hcause hfirst hsecond
        | some cause =>
            by_cases hunknown : cause = .unknownWord (a.wordAt _ hpc)
            · rw [hunknown] at hcause
              exact passedOver_keepsStep h hmode hcause hfirst hsecond
            · exact fault_keepsStep h hcause hunknown hfirst hsecond
      · have hfetch := fetch_of_lt (Nat.not_le.mp hpc)
        have hfirst : Host.direct a .cycle = .failed _ a := cycle_of_fetch_error hmode hfetch
        have hsecond : Host.direct (a.withBooks books) .cycle = .failed _ (a.withBooks books) :=
          cycle_of_fetch_error hmode hfetch
        rw [Host.resuming_of_other_error (congrArg Outcome.result hsecond) rfl, hfirst, hsecond]
        refine .same _ ?_ rfl h.skip h.halt h.register_lt (UInt64.add_comm ..)
        intro error herror
        cases herror
        rfl

theorem setKey_keepsStep (number : Nat) (isDown : Bool) (h : a.InStep (a.withBooks books)) :
    Outcome.KeepsStep a (a.withBooks books) (Host.direct a (.setKey number isDown))
      (Host.resuming (a.withBooks books) (.setKey number isDown)) := by
  by_cases hnumber : number < 16
  · have hfirst : Host.direct a (.setKey number isDown) = .done () _ :=
      setKey_of_lt a isDown hnumber
    have hsecond : Host.direct (a.withBooks books) (.setKey number isDown) = .done () _ :=
      setKey_of_lt (a.withBooks books) isDown hnumber
    rw [Host.resuming_of_ok (congrArg Outcome.result hsecond), hfirst, hsecond]
    refine .same books ok_not_unknownWord rfl h.skip h.halt ?_ (UInt64.add_comm ..)
    intro register pressed hmode
    obtain ⟨before, hbefore⟩ := keyMoved_eq_awaitingKey hmode
    exact h.register_lt register before hbefore
  · have hfirst : Host.direct a (.setKey number isDown) = .failed _ a :=
      setKey_of_le a isDown (Nat.not_lt.mp hnumber)
    have hsecond : Host.direct (a.withBooks books) (.setKey number isDown) =
        .failed _ (a.withBooks books) :=
      setKey_of_le (a.withBooks books) isDown (Nat.not_lt.mp hnumber)
    rw [Host.resuming_of_other_error (congrArg Outcome.result hsecond) rfl, hfirst, hsecond]
    refine .same _ ?_ rfl h.skip h.halt h.register_lt (UInt64.add_comm ..)
    intro error herror
    cases herror
    rfl

/-- An event keeps two machines in step. -/
theorem InStep.keepsStep {a b : Machine} (h : a.InStep b) (event : Event) :
    Outcome.KeepsStep a b (Host.direct a event) (Host.resuming b event) := by
  -- the second machine is the first one with other books
  obtain ⟨books, rfl⟩ : ∃ books, b = a.withBooks books := ⟨b.books, h.machines⟩
  cases event with
  | cycle => exact cycle_keepsStep h
  | setKey number isDown => exact setKey_keepsStep number isDown h
  | tick =>
      rw [Host.resuming_of_ok rfl]
      exact .same books ok_not_unknownWord rfl h.skip h.halt h.register_lt (UInt64.add_comm ..)

end Machine

/-! ## Any number of events -/

namespace Host

/-- Take two machines that differ only in their books, one that passes over unknown words
    and is driven directly, and one that halts at them and is driven by the host that
    resumes. After any events they still differ only in their books, and the counter of the
    first has gained one, modulo 2^64, for each word that it passed over. Whatever event
    comes next then has outcomes that correspond. -/
theorem skip_follows_resumed_halt {a b : Machine} (h : a.InStep b) (events : List Event) :
    let first := after direct a events
    let second := after resuming b events
    first.InStep second ∧
    first.counter + b.counter =
      second.counter + a.counter + .ofNat ((outcomes direct a events).countP Outcome.skips) ∧
    ∀ event, (direct first event).Corresponds (resuming second event) := by
  induction events generalizing a b with
  | nil =>
      have hstart : a.counter + b.counter = b.counter + a.counter + .ofNat 0 :=
        (UInt64.add_comm ..).trans (UInt64.add_zero _).symm
      exact ⟨h, hstart, fun event => (h.keepsStep event).corresponds⟩
  | cons event events ih =>
      have hstep := h.keepsStep event
      obtain ⟨hmachines, hothers, hnext⟩ := ih hstep.inStep
      refine ⟨hmachines, ?_, hnext⟩
      have hfirst := hstep.counter
      have hcount : (outcomes direct a (event :: events)).countP Outcome.skips =
          (outcomes direct (direct a event).machine events).countP Outcome.skips +
            (direct a event).skips.toNat := by
        rw [outcomes, List.countP_cons]
        cases (direct a event).skips with
        | true => rfl
        | false => rfl
      -- what the first machine gains in this event adds to what it gains in the others
      rw [hcount, UInt64.ofNat_add, after, after]
      grind

/-- A machine all of whose memory is the word FFFF, which is no instruction. -/
def allOnes : Machine :=
  { Machine.initial (.ofSeed 0) with
    memory := ⟨Vector.replicate 4096 0xFF⟩, unknownWords := .skip }

theorem fetch_allOnes : allOnes.fetch = .ok 0xFFFF := by
  have hpc : allOnes.registers.pc.toNat + 2 ≤ 4096 := by decide
  have hword : allOnes.wordAt allOnes.registers.pc.toNat hpc = .ofBytes 0xFF 0xFF := by
    simp [Machine.wordAt, allOnes, Vector.getElem_replicate]
  rw [Machine.fetch_of_le hpc, hword]
  rfl

theorem skip_follows_resumed_halt_allOnes :
    let halting := { allOnes with unknownWords := .halt }
    allOnes.InStep halting ∧
    (direct allOnes .cycle).PassedOver (resuming halting .cycle) ∧
    (after direct allOnes [.cycle, .setKey 5 true, .tick]).InStep
      (after resuming halting [.cycle, .setKey 5 true, .tick]) := by
  intro halting
  have hstep : allOnes.InStep halting := by
    refine ⟨rfl, rfl, rfl, ?_⟩
    intro register pressed hmode
    cases hmode
  have hskips : (direct allOnes .cycle).skips = true := by
    have hcycle : allOnes.cycle = allOnes.execute 0xFFFF :=
      Machine.cycle_of_fetch rfl fetch_allOnes
    have hobstacle : (Instruction.decode 0xFFFF).obstacle? allOnes =
        some (.unknownWord 0xFFFF) := rfl
    rw [direct_cycle, hcycle, Machine.execute_of_obstacle hobstacle, if_pos ⟨rfl, rfl⟩]
    rfl
  refine ⟨hstep, ?_, (skip_follows_resumed_halt hstep _).1⟩
  rcases ((skip_follows_resumed_halt hstep []).2.2 .cycle).results with hpassed | hagreed
  · exact hpassed
  · have hnone : (direct allOnes .cycle).skips = false := hagreed.2.1
    rw [hnone] at hskips
    cases hskips

end Host

end Chip8
