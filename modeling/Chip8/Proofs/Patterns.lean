/-
  Chip8.Proofs.Patterns

  The table of the instruction words: one pattern of four digits for each
  instruction, as it is usually written down (0NNN, 00E0, …, FX65). The decoder
  does not use the table; `decode_eq_unknown_iff` says that the words it gives up
  on are those that match no pattern.
-/
import Chip8.Instruction.Encoding

namespace Chip8

/-! ## Patterns -/

/-- Words of one family, some of whose other digits are fixed. -/
structure Pattern where
  family : Nat
  x : Option (Fin 16)
  y : Option (Fin 16)
  n : Option (Fin 16)

namespace Pattern

/-- Whether a word has the digits of a pattern. -/
def Matches (p : Pattern) (w : Word) : Prop :=
  w.family = p.family ∧ (∀ d ∈ p.x, w.x = d) ∧ (∀ d ∈ p.y, w.y = d) ∧ (∀ d ∈ p.n, w.n = d)

/-- The patterns of the instructions. -/
def all : List Pattern :=
  [⟨0x0, none, none, none⟩, -- 0NNN
   ⟨0x0, some 0x0, some 0xE, some 0x0⟩, -- 00E0
   ⟨0x0, some 0x0, some 0xE, some 0xE⟩, -- 00EE
   ⟨0x1, none, none, none⟩, -- 1NNN
   ⟨0x2, none, none, none⟩, -- 2NNN
   ⟨0x3, none, none, none⟩, -- 3XNN
   ⟨0x4, none, none, none⟩, -- 4XNN
   ⟨0x5, none, none, some 0x0⟩, -- 5XY0
   ⟨0x6, none, none, none⟩, -- 6XNN
   ⟨0x7, none, none, none⟩, -- 7XNN
   ⟨0x8, none, none, some 0x0⟩, -- 8XY0
   ⟨0x8, none, none, some 0x1⟩, -- 8XY1
   ⟨0x8, none, none, some 0x2⟩, -- 8XY2
   ⟨0x8, none, none, some 0x3⟩, -- 8XY3
   ⟨0x8, none, none, some 0x4⟩, -- 8XY4
   ⟨0x8, none, none, some 0x5⟩, -- 8XY5
   ⟨0x8, none, none, some 0x6⟩, -- 8XY6
   ⟨0x8, none, none, some 0x7⟩, -- 8XY7
   ⟨0x8, none, none, some 0xE⟩, -- 8XYE
   ⟨0x9, none, none, some 0x0⟩, -- 9XY0
   ⟨0xA, none, none, none⟩, -- ANNN
   ⟨0xB, none, none, none⟩, -- BNNN
   ⟨0xC, none, none, none⟩, -- CXNN
   ⟨0xD, none, none, none⟩, -- DXYN
   ⟨0xE, none, some 0x9, some 0xE⟩, -- EX9E
   ⟨0xE, none, some 0xA, some 0x1⟩, -- EXA1
   ⟨0xF, none, some 0x0, some 0x7⟩, -- FX07
   ⟨0xF, none, some 0x0, some 0xA⟩, -- FX0A
   ⟨0xF, none, some 0x1, some 0x5⟩, -- FX15
   ⟨0xF, none, some 0x1, some 0x8⟩, -- FX18
   ⟨0xF, none, some 0x1, some 0xE⟩, -- FX1E
   ⟨0xF, none, some 0x2, some 0x9⟩, -- FX29
   ⟨0xF, none, some 0x3, some 0x3⟩, -- FX33
   ⟨0xF, none, some 0x5, some 0x5⟩, -- FX55
   ⟨0xF, none, some 0x6, some 0x5⟩] -- FX65

end Pattern

/-- Whether a word matches the pattern of some instruction. -/
def Word.IsInstruction (w : Word) : Prop :=
  ∃ p ∈ Pattern.all, p.Matches w

/-! ## Digits and bytes -/

namespace Word

theorem family_lt (w : Word) : w.family < 16 := by
  have := w.toNat_lt
  unfold family
  omega

/-- The last byte of a word is its last two digits. -/
theorem byte_eq_iff (w : Word) (high low : Fin 16) :
    w.byte = UInt8.ofNat (high * 16 + low) ↔ w.y = high ∧ w.n = low := by
  have hlt : high.val * 16 + low.val < 2 ^ 8 := by omega
  rw [← UInt8.toNat_inj, toNat_byte, UInt8.toNat_ofNat_of_lt' hlt]
  simp only [y, n, Fin.ext_iff]
  omega

end Word

namespace Instruction

/-! ## The words that say nothing -/

theorem ofCode?_eq_none_iff (code : Fin 16) :
    Operation.ofCode? code = none ↔
      code ≠ 0x0 ∧ code ≠ 0x1 ∧ code ≠ 0x2 ∧ code ≠ 0x3 ∧ code ≠ 0x4 ∧
      code ≠ 0x5 ∧ code ≠ 0x6 ∧ code ≠ 0x7 ∧ code ≠ 0xE := by
  revert code
  decide

theorem ofKeyByte?_eq_none_iff (w : Word) :
    ofKeyByte? w.x w.byte = none ↔
      ¬ (w.y = 0x9 ∧ w.n = 0xE) ∧ ¬ (w.y = 0xA ∧ w.n = 0x1) := by
  have h9E : w.byte = 0x9E ↔ _ := w.byte_eq_iff 0x9 0xE
  have hA1 : w.byte = 0xA1 ↔ _ := w.byte_eq_iff 0xA 0x1
  rw [← h9E, ← hA1]
  unfold ofKeyByte?
  split <;> simp_all

theorem ofDeviceByte?_eq_none_iff (w : Word) :
    ofDeviceByte? w.x w.byte = none ↔
      ¬ (w.y = 0x0 ∧ w.n = 0x7) ∧ ¬ (w.y = 0x0 ∧ w.n = 0xA) ∧
      ¬ (w.y = 0x1 ∧ w.n = 0x5) ∧ ¬ (w.y = 0x1 ∧ w.n = 0x8) ∧
      ¬ (w.y = 0x1 ∧ w.n = 0xE) ∧ ¬ (w.y = 0x2 ∧ w.n = 0x9) ∧
      ¬ (w.y = 0x3 ∧ w.n = 0x3) ∧ ¬ (w.y = 0x5 ∧ w.n = 0x5) ∧
      ¬ (w.y = 0x6 ∧ w.n = 0x5) := by
  have h07 : w.byte = 0x07 ↔ _ := w.byte_eq_iff 0x0 0x7
  have h0A : w.byte = 0x0A ↔ _ := w.byte_eq_iff 0x0 0xA
  have h15 : w.byte = 0x15 ↔ _ := w.byte_eq_iff 0x1 0x5
  have h18 : w.byte = 0x18 ↔ _ := w.byte_eq_iff 0x1 0x8
  have h1E : w.byte = 0x1E ↔ _ := w.byte_eq_iff 0x1 0xE
  have h29 : w.byte = 0x29 ↔ _ := w.byte_eq_iff 0x2 0x9
  have h33 : w.byte = 0x33 ↔ _ := w.byte_eq_iff 0x3 0x3
  have h55 : w.byte = 0x55 ↔ _ := w.byte_eq_iff 0x5 0x5
  have h65 : w.byte = 0x65 ↔ _ := w.byte_eq_iff 0x6 0x5
  rw [← h07, ← h0A, ← h15, ← h18, ← h1E, ← h29, ← h33, ← h55, ← h65]
  unfold ofDeviceByte?
  split <;> simp_all

/-- The decoder gives up on a word exactly if it matches no pattern. -/
theorem decode?_eq_none_iff (w : Word) : decode? w = none ↔ ¬ w.IsInstruction := by
  have hfamily := w.family_lt
  -- the table as one disjunction over digits, so that each case below is cheap
  simp only [Word.IsInstruction, Pattern.all, List.mem_cons, exists_eq_or_imp,
    List.not_mem_nil, or_false, exists_eq_left, Pattern.Matches, Option.mem_def,
    Option.some.injEq, reduceCtorEq, false_implies, implies_true, true_and, and_true,
    forall_eq']
  unfold decode?
  split
  case h_9 h =>
    rw [Option.map_eq_none_iff, ofCode?_eq_none_iff]
    simp [h]
  case h_15 h =>
    rw [ofKeyByte?_eq_none_iff]
    simp [h]
  case h_16 h =>
    rw [ofDeviceByte?_eq_none_iff]
    simp [h]
  case h_17 =>
    -- no family is left
    exfalso
    generalize w.family = family at *
    grind
  all_goals
    rename_i h
    simp [h]
  split
  · simp
  · split <;> simp

end Instruction

/-! ## What words say -/

/-- What a word says: each instruction, with the digits by which its words are known. -/
inductive Word.Says (w : Word) : Instruction → Prop
  | clearScreen (hword : w = 0x00E0) : Says w .clearScreen
  | ret (hword : w = 0x00EE) : Says w .ret
  | sys (hfamily : w.family = 0x0) : Says w (.sys w.address)
  | jump (hfamily : w.family = 0x1) : Says w (.jump w.address)
  | call (hfamily : w.family = 0x2) : Says w (.call w.address)
  | equalsByte (hfamily : w.family = 0x3) : Says w (.skipIf (.equalsByte w.x w.byte))
  | differsByte (hfamily : w.family = 0x4) : Says w (.skipIf (.differsByte w.x w.byte))
  | equals (hfamily : w.family = 0x5) (hn : w.n = 0) : Says w (.skipIf (.equals w.x w.y))
  | loadByte (hfamily : w.family = 0x6) : Says w (.loadByte w.x w.byte)
  | addByte (hfamily : w.family = 0x7) : Says w (.addByte w.x w.byte)
  | combine (hfamily : w.family = 0x8) {operation : Operation}
      (hcode : Operation.ofCode? w.n = some operation) : Says w (.combine operation w.x w.y)
  | differs (hfamily : w.family = 0x9) (hn : w.n = 0) : Says w (.skipIf (.differs w.x w.y))
  | loadIndex (hfamily : w.family = 0xA) : Says w (.loadIndex w.address)
  | jumpOffset (hfamily : w.family = 0xB) : Says w (.jumpOffset w.x w.address)
  | random (hfamily : w.family = 0xC) : Says w (.random w.x w.byte)
  | draw (hfamily : w.family = 0xD) : Says w (.draw w.x w.y w.n)
  | keyDown (hfamily : w.family = 0xE) (hbyte : w.byte = 0x9E) :
      Says w (.skipIf (.keyDown w.x))
  | keyUp (hfamily : w.family = 0xE) (hbyte : w.byte = 0xA1) : Says w (.skipIf (.keyUp w.x))
  | loadDelay (hfamily : w.family = 0xF) (hbyte : w.byte = 0x07) : Says w (.loadDelay w.x)
  | waitKey (hfamily : w.family = 0xF) (hbyte : w.byte = 0x0A) : Says w (.waitKey w.x)
  | setDelay (hfamily : w.family = 0xF) (hbyte : w.byte = 0x15) : Says w (.setDelay w.x)
  | setSound (hfamily : w.family = 0xF) (hbyte : w.byte = 0x18) : Says w (.setSound w.x)
  | addIndex (hfamily : w.family = 0xF) (hbyte : w.byte = 0x1E) : Says w (.addIndex w.x)
  | fontGlyph (hfamily : w.family = 0xF) (hbyte : w.byte = 0x29) : Says w (.fontGlyph w.x)
  | storeDecimal (hfamily : w.family = 0xF) (hbyte : w.byte = 0x33) :
      Says w (.storeDecimal w.x)
  | storeRegisters (hfamily : w.family = 0xF) (hbyte : w.byte = 0x55) :
      Says w (.storeRegisters w.x)
  | loadRegisters (hfamily : w.family = 0xF) (hbyte : w.byte = 0x65) :
      Says w (.loadRegisters w.x)
  | unknown (hword : ¬ w.IsInstruction) : Says w (.unknown w)

namespace Instruction

theorem ofKeyByte?_says {w : Word} {i : Instruction} (hfamily : w.family = 0xE)
    (h : ofKeyByte? w.x w.byte = some i) : w.Says i := by
  unfold ofKeyByte? at h
  split at h
  · next hbyte =>
    cases h
    exact .keyDown hfamily hbyte
  · next hbyte =>
    cases h
    exact .keyUp hfamily hbyte
  · cases h

theorem ofDeviceByte?_says {w : Word} {i : Instruction} (hfamily : w.family = 0xF)
    (h : ofDeviceByte? w.x w.byte = some i) : w.Says i := by
  unfold ofDeviceByte? at h
  split at h
  all_goals
    cases h
  all_goals
    constructor
    · exact hfamily
    · assumption

theorem decode?_says {w : Word} {i : Instruction} (h : decode? w = some i) : w.Says i := by
  unfold decode? at h
  split at h
  case h_1 hfamily =>
    split at h
    · next hword =>
      cases h
      exact .clearScreen hword
    · split at h
      · next hword =>
        cases h
        exact .ret hword
      · cases h
        exact .sys hfamily
  case h_6 hfamily =>
    split at h
    · next hn =>
      cases h
      exact .equals hfamily hn
    · cases h
  case h_9 hfamily =>
    cases hcode : Operation.ofCode? w.n with
    | none =>
        rw [hcode] at h
        cases h
    | some operation =>
        rw [hcode] at h
        cases h
        exact .combine hfamily hcode
  case h_10 hfamily =>
    split at h
    · next hn =>
      cases h
      exact .differs hfamily hn
    · cases h
  case h_15 hfamily => exact ofKeyByte?_says hfamily h
  case h_16 hfamily => exact ofDeviceByte?_says hfamily h
  all_goals
    cases h
  all_goals
    constructor
    assumption

/-- A word decodes to what it says. -/
theorem decode_says (w : Word) : w.Says (decode w) := by
  unfold decode
  cases h : decode? w with
  | none => exact .unknown ((decode?_eq_none_iff w).mp h)
  | some i => exact decode?_says h

/-- A word decodes to no instruction exactly if it matches no pattern, and then to
    itself as unknown. -/
theorem decode_eq_unknown_iff (w word : Word) :
    decode w = .unknown word ↔ ¬ w.IsInstruction ∧ word = w := by
  constructor
  · intro h
    have hsays := decode_says w
    rw [h] at hsays
    cases hsays with
    | unknown hword => exact ⟨hword, rfl⟩
  · rintro ⟨hword, rfl⟩
    rw [decode, (decode?_eq_none_iff word).mpr hword, Option.getD_none]

/-! ## Words of one family -/

theorem decode_ret : decode 0x00EE = .ret := rfl

theorem decode_call {w : Word} (hfamily : w.family = 0x2) : decode w = .call w.address := by
  simp only [decode, decode?, hfamily, Option.getD_some]

theorem decode_device {w : Word} (hfamily : w.family = 0xF) :
    decode w = (ofDeviceByte? w.x w.byte).getD (.unknown w) := by
  simp only [decode, decode?, hfamily]

end Instruction

end Chip8
