/-
  Chip8.Proofs.Arithmetic

  What the words 6XNN, 7XNN and 8XYN compute, in numbers. `Machine.computation?` says what
  result and what flag come of the numbers in the registers before a word, and
  `Machine.Computed` what of it is in the registers after it. The operands are read before
  anything is written, and the flag is written before the result; so it plays no part which of
  VX, VY and VF are the same register (`Machine.execute_computes`).
-/
import Chip8.Proofs.Footprint
import Chip8.Proofs.RoundTrip

namespace Chip8

/-! ## The computations -/

/-- What a word computes from the numbers in the registers: a result for VX and perhaps a flag
    for VF. -/
structure Computation where
  result : Nat
  flag : Option Bool
  deriving DecidableEq

/-- What the words 8XYN compute, by their last digit, from the numbers `a` in VX, `b` in VY and
    `s` in the register that is shifted. -/
def Computation.ofDigit? (n : Fin 16) (a b s : Nat) : Option Computation :=
  match n with
  | 0x0 => some ⟨b, none⟩
  | 0x1 => some ⟨a ||| b, none⟩
  | 0x2 => some ⟨a &&& b, none⟩
  | 0x3 => some ⟨a ^^^ b, none⟩
  | 0x4 => some ⟨(a + b) % 256, some (255 < a + b)⟩
  -- the flag of a difference says that nothing was borrowed
  | 0x5 => some ⟨(((a : Int) - b) % 256).toNat, some (b ≤ a)⟩
  | 0x6 => some ⟨s / 2, some (s.testBit 0)⟩
  | 0x7 => some ⟨(((b : Int) - a) % 256).toNat, some (a ≤ b)⟩
  | 0xE => some ⟨2 * s % 256, some (s.testBit 7)⟩
  | _ => none

namespace Machine

/-- What a word computes in a machine: 6XNN its byte, 7XNN the sum of VX and its byte, and 8XYN
    what its last digit says. A shift takes VY or VX, as the dialect has it. -/
def computation? (m : Machine) (w : Word) : Option Computation :=
  let v x := (m.registers.get x).toNat
  match w.family with
  | 0x6 => some ⟨w.toNat % 256, none⟩
  | 0x7 => some ⟨(v w.x + w.toNat % 256) % 256, none⟩
  | 0x8 =>
    Computation.ofDigit? w.n (v w.x) (v w.y) (v (if m.dialect.shiftReadsY then w.y else w.x))
  | _ => none

/-- Whether `n` has the result of a computation in `V x` and its flag, if it has one and that is
    another register, in VF, and is otherwise as `m` in its registers and its memory. -/
structure Computed (m n : Machine) (x : Fin 16) (computation : Computation) : Prop where
  result : (n.registers.get x).toNat = computation.result
  flag : ∀ flag ∈ computation.flag, x ≠ 0xF → (n.registers.get 0xF).toNat = flag.toNat
  others : ∀ y, y ≠ x → (y = 0xF → computation.flag = none) →
    n.registers.get y = m.registers.get y
  index : n.registers.index = m.registers.index
  memory : n.memory = m.memory

end Machine

/-! ## Operations on bytes, in numbers -/

/-- What an operation yields, in numbers. -/
def Operation.Yield.toComputation (yield : Operation.Yield) : Computation :=
  ⟨yield.value.toNat, yield.flag⟩

namespace Computation

theorem toNat_shiftRight_one (s : UInt8) : (s >>> 1).toNat = s.toNat / 2 := by
  rw [UInt8.toNat_shiftRight]
  exact Nat.shiftRight_eq_div_pow s.toNat 1

theorem toNat_shiftLeft_one (s : UInt8) : (s <<< 1).toNat = 2 * s.toNat % 256 := by
  rw [UInt8.toNat_shiftLeft, Nat.mul_comm 2]
  exact congrArg (· % 256) (Nat.shiftLeft_eq s.toNat 1)

theorem toNat_sub (a b : UInt8) :
    (a - b).toNat = (((a.toNat : Int) - b.toNat) % 256).toNat := by
  have ha := a.toNat_lt
  have hb := b.toNat_lt
  rw [UInt8.toNat_sub]
  omega

theorem decide_low_bit (s : UInt8) : decide (s % 2 = 1) = s.toNat.testBit 0 := by
  rw [Nat.testBit_zero, decide_eq_decide, ← UInt8.toNat_inj, UInt8.toNat_mod]
  exact Iff.rfl

theorem decide_high_bit (s : UInt8) : decide (128 ≤ s) = s.toNat.testBit 7 := by
  have hlt := s.toNat_lt
  have h128 : (128 : UInt8).toNat = 128 := rfl
  rw [Nat.testBit_eq_decide_div_mod_eq, decide_eq_decide, UInt8.le_iff_toNat_le, h128]
  omega

end Computation

/-- An operation yields what its digit computes. -/
theorem Operation.ofDigit?_code (operation : Operation) (dialect : Dialect) (a b : UInt8) :
    Computation.ofDigit? operation.code a.toNat b.toNat
        (if dialect.shiftReadsY then b else a).toNat =
      some (operation.apply dialect a b).toComputation := by
  unfold apply
  -- which register is shifted plays no part any more
  generalize (if dialect.shiftReadsY then b else a) = s
  cases operation with
  | copy => rfl
  | or =>
      show some (Computation.mk (a.toNat ||| b.toNat) none) = some ⟨(a ||| b).toNat, none⟩
      rw [UInt8.toNat_or]
  | and =>
      show some (Computation.mk (a.toNat &&& b.toNat) none) = some ⟨(a &&& b).toNat, none⟩
      rw [UInt8.toNat_and]
  | xor =>
      show some (Computation.mk (a.toNat ^^^ b.toNat) none) = some ⟨(a ^^^ b).toNat, none⟩
      rw [UInt8.toNat_xor]
  | add =>
      show some (Computation.mk ((a.toNat + b.toNat) % 256) _) = some ⟨(a + b).toNat, _⟩
      rw [UInt8.toNat_add]
  | subtract =>
      show some (Computation.mk _ _) = some ⟨(a - b).toNat, _⟩
      rw [Computation.toNat_sub]
      rfl
  | subtractReversed =>
      show some (Computation.mk _ _) = some ⟨(b - a).toNat, _⟩
      rw [Computation.toNat_sub]
      rfl
  | shiftRight =>
      show some (Computation.mk _ _) = some ⟨(s >>> 1).toNat, some (decide (s % 2 = 1))⟩
      rw [Computation.toNat_shiftRight_one, Computation.decide_low_bit]
  | shiftLeft =>
      show some (Computation.mk _ _) = some ⟨(s <<< 1).toNat, some (decide (128 ≤ s))⟩
      rw [Computation.toNat_shiftLeft_one, Computation.decide_high_bit]

/-- The digits that compute something are those of the operations. -/
theorem Computation.exists_operation {n : Fin 16} {a b s : Nat} {computation : Computation}
    (h : ofDigit? n a b s = some computation) :
    ∃ operation, Operation.ofCode? n = some operation := by
  unfold ofDigit? at h
  split at h
  -- the last case is that of all other digits
  case h_10 => cases h
  all_goals exact ⟨_, rfl⟩

/-! ## Writing a yield -/

namespace Operation.Yield

theorem get_commit_self (yield : Operation.Yield) (r : Registers) (x : Fin 16) :
    (yield.commit r x).get x = yield.value := by
  unfold commit
  split
  · rw [Registers.get_set, if_pos rfl]
  · rw [Registers.get_setWithFlag, if_pos rfl]

theorem get_commit_flag {yield : Operation.Yield} {x : Fin 16} {flag : Bool} (r : Registers)
    (hflag : yield.flag = some flag) (hx : x ≠ 0xF) :
    (yield.commit r x).get 0xF = flag.toUInt8 := by
  have hF : Registers.flagRegister = 0xF := rfl
  simp only [commit, hflag, Registers.get_setWithFlag, if_neg hx, hF, if_true]

end Operation.Yield

namespace Machine

variable {m : Machine} {w : Word}

/-- After a yield was written and the program counter moved on, the machine has computed it. -/
theorem computed_commit (m : Machine) (w : Word) (yield : Operation.Yield) (x : Fin 16) :
    m.Computed
      ((({ m with registers := yield.commit m.registers x } : Machine).advance 2).complete w) x
      yield.toComputation := by
  generalize hn : (({ m with registers := yield.commit m.registers x } : Machine).advance
    2).complete w = n
  -- the program counter and the counters are beside what is asked about
  have hget : ∀ y, n.registers.get y = (yield.commit m.registers x).get y := by
    intro y
    rw [← hn]
    rfl
  refine ⟨?_, ?_, ?_, ?_, ?_⟩
  · rw [hget, Operation.Yield.get_commit_self]
    rfl
  · intro flag hflag hx
    rw [hget, Operation.Yield.get_commit_flag m.registers hflag hx]
    cases flag with
    | _ => rfl
  · intro y hy hflag
    rw [hget]
    -- VF is one of the other registers only if there is no flag
    refine Operation.Yield.get_commit m.registers hy.symm ?_
    by_cases hF : y = 0xF
    · exact Or.inl (hflag hF)
    · exact Or.inr (Ne.symm hF)
  · rw [← hn]
    exact Operation.Yield.commit_index yield m.registers x
  · rw [← hn]
    rfl

/-! ## Words -/

/-- A word that computes something is performed, and writes a yield with the numbers of its
    computation. -/
theorem exists_yield {computation : Computation} (h : m.computation? w = some computation) :
    ∃ yield : Operation.Yield, yield.toComputation = computation ∧
      (Instruction.decode w).obstacle? m = none ∧
      (Instruction.decode w).flow m = .next ∧
      (Instruction.decode w).work m =
        { m with registers := yield.commit m.registers w.x } := by
  unfold computation? at h
  dsimp only at h
  split at h
  · next hfamily =>
    have hdecode : Instruction.decode w = .loadByte w.x w.byte := by
      simp only [Instruction.decode, Instruction.decode?, hfamily, Option.getD_some]
    rw [← w.toNat_byte] at h
    rw [hdecode]
    exact ⟨⟨w.byte, none⟩, Option.some.inj h, rfl, rfl, rfl⟩
  · next hfamily =>
    have hdecode : Instruction.decode w = .addByte w.x w.byte := by
      simp only [Instruction.decode, Instruction.decode?, hfamily, Option.getD_some]
    rw [← w.toNat_byte, ← UInt8.toNat_add] at h
    rw [hdecode]
    exact ⟨⟨m.registers.get w.x + w.byte, none⟩, Option.some.inj h, rfl, rfl, rfl⟩
  · next hfamily =>
    obtain ⟨operation, hcode⟩ := Computation.exists_operation h
    have hdecode : Instruction.decode w = .combine operation w.x w.y := by
      simp only [Instruction.decode, Instruction.decode?, hfamily, hcode, Option.map_some,
        Option.getD_some]
    -- to choose a register and look at it is to look at both and choose
    rw [← Operation.code_of_ofCode? hcode, apply_ite m.registers.get,
      operation.ofDigit?_code m.dialect] at h
    rw [hdecode]
    exact ⟨_, Option.some.inj h, rfl, rfl, rfl⟩
  · cases h

/-- A word 6XNN, 7XNN or 8XYN succeeds. It puts what it computes from the registers before it
    into VX, also where that is VF, and the flag, if there is one and VX is not VF, into VF. It
    leaves the other registers, the index and the memory alone. -/
theorem execute_computes (m : Machine) (w : Word) (computation : Computation)
    (h : m.computation? w = some computation) :
    (m.execute w).result = .ok () ∧ m.Computed (m.execute w).machine w.x computation := by
  obtain ⟨yield, hyield, hnone, hflow, hwork⟩ := exists_yield h
  rw [execute_of_no_obstacle hnone, performed, hflow, hwork, ← hyield]
  exact ⟨rfl, m.computed_commit w yield w.x⟩

/-- A machine with 100 in V0 and 200 in VF. -/
def hundredAndTwoHundred : Machine :=
  { initial (.ofSeed 0) with registers := (Registers.initial.set 0 100).set 0xF 200 }

/-- VF is added before the carry is written into it. -/
theorem execute_computes_hundredAndTwoHundred :
    hundredAndTwoHundred.computation? 0x80F4 = some ⟨44, some true⟩ ∧
    let n := (hundredAndTwoHundred.execute 0x80F4).machine
    (n.registers.get 0).toNat = 44 ∧ (n.registers.get 0xF).toNat = 1 := by
  have hcomputation : hundredAndTwoHundred.computation? 0x80F4 = some ⟨44, some true⟩ := by
    decide
  obtain ⟨-, hcomputed⟩ := execute_computes hundredAndTwoHundred 0x80F4 _ hcomputation
  exact ⟨hcomputation, hcomputed.result, hcomputed.flag true rfl (by decide)⟩

end Machine

end Chip8
