/-
  Chip8.Proofs.RoundTrip

  Words and instructions, there and back. A word is put together again from the digits that
  were taken out of it (`Word.ofDigits_digits`, `ofByte_digits`, `ofAddress_digits`), and a
  word that is put together has the digits that it was given, as far as they fit
  (`x_ofDigits`, `byte_ofByte`, `address_ofAddress`). So the word of what a word says is the
  word itself (`Instruction.encode_decode`), and an instruction with the operands of a word
  (`Instruction.Canonical`) is what its word says (`Instruction.decode_encode`).
-/
import Chip8.Proofs.Patterns
import Mathlib.Logic.Function.Basic

namespace Chip8

namespace Word

/-! ## Words put together from their own digits -/

theorem ofDigits_digits (w : Word) : ofDigits w.family w.x w.y w.n = w := by
  have hlt := w.toNat_lt
  rw [← UInt16.toNat_inj, ofDigits, UInt16.toNat_ofNat']
  simp only [family, x, y, n]
  omega

theorem ofByte_digits (w : Word) : ofByte w.family w.x w.byte = w := by
  have hlt := w.toNat_lt
  rw [← UInt16.toNat_inj, ofByte, UInt16.toNat_ofNat', toNat_byte]
  simp only [family, x]
  omega

theorem ofAddress_digits (w : Word) : ofAddress w.family w.address = w := by
  have hlt := w.toNat_lt
  rw [← UInt16.toNat_inj, ofAddress, UInt16.toNat_ofNat', toNat_address]
  simp only [family]
  omega

/-! ## The digits of words put together -/

section

variable {family : Nat} (hfamily : family < 16)

include hfamily

theorem toNat_ofDigits (x y n : Fin 16) :
    (ofDigits family x y n).toNat = family * 4096 + x * 256 + y * 16 + n := by
  rw [ofDigits, UInt16.toNat_ofNat']
  omega

theorem toNat_ofByte (x : Fin 16) (byte : UInt8) :
    (ofByte family x byte).toNat = family * 4096 + x * 256 + byte.toNat := by
  have hbyte := byte.toNat_lt
  rw [ofByte, UInt16.toNat_ofNat']
  omega

theorem toNat_ofAddress {address : Word} (h : address.toNat < 4096) :
    (ofAddress family address).toNat = family * 4096 + address.toNat := by
  rw [ofAddress, UInt16.toNat_ofNat']
  omega

@[simp] theorem family_ofDigits (x y n : Fin 16) : (ofDigits family x y n).family = family := by
  rw [Word.family, toNat_ofDigits hfamily]
  omega

@[simp] theorem x_ofDigits (x y n : Fin 16) : (ofDigits family x y n).x = x := by
  simp only [Word.x, toNat_ofDigits hfamily, Fin.ext_iff]
  omega

@[simp] theorem y_ofDigits (x y n : Fin 16) : (ofDigits family x y n).y = y := by
  simp only [Word.y, toNat_ofDigits hfamily, Fin.ext_iff]
  omega

@[simp] theorem n_ofDigits (x y n : Fin 16) : (ofDigits family x y n).n = n := by
  simp only [Word.n, toNat_ofDigits hfamily, Fin.ext_iff]
  omega

@[simp] theorem family_ofByte (x : Fin 16) (byte : UInt8) :
    (ofByte family x byte).family = family := by
  have hbyte := byte.toNat_lt
  rw [Word.family, toNat_ofByte hfamily]
  omega

@[simp] theorem x_ofByte (x : Fin 16) (byte : UInt8) : (ofByte family x byte).x = x := by
  have hbyte := byte.toNat_lt
  simp only [Word.x, toNat_ofByte hfamily, Fin.ext_iff]
  omega

@[simp] theorem byte_ofByte (x : Fin 16) (byte : UInt8) :
    (ofByte family x byte).byte = byte := by
  have hbyte := byte.toNat_lt
  rw [← UInt8.toNat_inj, toNat_byte, toNat_ofByte hfamily]
  omega

@[simp] theorem family_ofAddress {address : Word} (h : address.toNat < 4096) :
    (ofAddress family address).family = family := by
  rw [Word.family, toNat_ofAddress hfamily h]
  omega

@[simp] theorem address_ofAddress {address : Word} (h : address.toNat < 4096) :
    (ofAddress family address).address = address := by
  rw [← UInt16.toNat_inj, toNat_address, toNat_ofAddress hfamily h]
  omega

/-- The second digit of a word is the top digit of its address. -/
theorem x_ofAddress {address : Word} (h : address.toNat < 4096) :
    (ofAddress family address).x.val = address.toNat / 256 := by
  simp only [Word.x, toNat_ofAddress hfamily h]
  omega

end

@[simp] theorem ofAddress_zero (address : Word) : ofAddress 0x0 address = address := by
  rw [ofAddress, Nat.zero_mul, Nat.zero_add, UInt16.ofNat_toNat]

end Word

/-! ## Operations and their digits -/

namespace Operation

@[simp] theorem ofCode?_code (operation : Operation) : ofCode? operation.code = some operation := by
  cases operation with
  | _ => rfl

theorem code_of_ofCode? {code : Fin 16} {operation : Operation}
    (h : ofCode? code = some operation) : operation.code = code := by
  revert h
  unfold ofCode?
  split
  case h_10 => exact nofun
  all_goals
    intro h
    cases h
    rfl

end Operation

namespace Instruction

/-! ## There and back -/

/-- The word of what a word says is the word itself. -/
theorem encode_decode (w : Word) : encode (decode w) = w := by
  have hmeans := decode_says w
  -- only these facts about the instruction matter, not how it was found
  generalize decode w = i at hmeans
  cases hmeans with
  | clearScreen hword | ret hword => exact hword.symm
  | unknown hword => rfl
  | sys hfamily | jump hfamily | call hfamily | loadIndex hfamily | jumpOffset hfamily =>
      rw [encode, ← hfamily]
      exact w.ofAddress_digits
  | equalsByte hfamily | differsByte hfamily | loadByte hfamily | addByte hfamily
  | random hfamily =>
      rw [encode, ← hfamily]
      exact w.ofByte_digits
  | draw hfamily =>
      rw [encode, ← hfamily]
      exact w.ofDigits_digits
  | equals hfamily hn | differs hfamily hn =>
      rw [encode, ← hfamily, ← hn]
      exact w.ofDigits_digits
  | combine hfamily hcode =>
      rw [encode, ← hfamily, Operation.code_of_ofCode? hcode]
      exact w.ofDigits_digits
  | keyDown hfamily hbyte | keyUp hfamily hbyte | loadDelay hfamily hbyte
  | waitKey hfamily hbyte | setDelay hfamily hbyte | setSound hfamily hbyte
  | addIndex hfamily hbyte | fontGlyph hfamily hbyte | storeDecimal hfamily hbyte
  | storeRegisters hfamily hbyte | loadRegisters hfamily hbyte =>
      rw [encode, ← hfamily, ← hbyte]
      exact w.ofByte_digits

/-- Whether the operands of an instruction are in the ranges of the digits of a word, and fit
    together as they do in a word. The numbers of registers and of rows are digits by their
    type. -/
def Canonical : Instruction → Prop
  | .sys address => address.toNat < 4096 ∧ address ≠ 0x0E0 ∧ address ≠ 0x0EE
  | .jump address | .call address | .loadIndex address => address.toNat < 4096
  | .jumpOffset x address => address.toNat < 4096 ∧ x.val = address.toNat / 256
  | .unknown word => ¬ word.IsInstruction
  | _ => True

theorem decode_canonical (w : Word) : (decode w).Canonical := by
  have haddress := w.toNat_address_lt
  have hmeans := decode_says w
  generalize hi : decode w = i at hmeans
  cases hmeans with
  | unknown hword => exact hword
  | jump | call | loadIndex => exact haddress
  | jumpOffset =>
      refine ⟨haddress, ?_⟩
      rw [Word.toNat_address]
      show w.toNat / 256 % 16 = w.toNat % 4096 / 256
      omega
  | sys hfamily =>
      -- in this family the address is the whole word, and the two others are taken
      have hw : w = w.address := by
        have hfull := w.ofAddress_digits
        rw [hfamily, Word.ofAddress_zero] at hfull
        exact hfull.symm
      refine ⟨haddress, ?_, ?_⟩
      · intro hclear
        rw [hw, hclear] at hi
        cases hi
      · intro hret
        rw [hw, hret] at hi
        cases hi
  | _ => exact trivial

/-- An instruction with the operands of a word is what its word says. -/
theorem decode_encode {i : Instruction} (h : i.Canonical) : decode (encode i) = i := by
  cases i with
  | clearScreen | ret => rfl
  | unknown word => exact (decode_eq_unknown_iff word word).mpr ⟨h, rfl⟩
  | sys address =>
      obtain ⟨hlt, hclear, hret⟩ := h
      have hfamily := Word.family_ofAddress (show 0x0 < 16 by decide) hlt
      have haddress := Word.address_ofAddress (show 0x0 < 16 by decide) hlt
      rw [Word.ofAddress_zero] at hfamily haddress
      rw [encode, Word.ofAddress_zero, decode, decode?, hfamily]
      simp [hclear, hret, haddress]
  | jump address | call address | loadIndex address =>
      have hlt : address.toNat < 4096 := h
      simp [encode, decode, decode?, hlt]
  | jumpOffset x address =>
      -- its register is in the word as the top digit of the address
      obtain ⟨hlt, htop⟩ := h
      have hx : (Word.ofAddress 0xB address).x = x :=
        Fin.ext ((Word.x_ofAddress (by decide) hlt).trans htop.symm)
      simp [encode, decode, decode?, hlt, hx]
  | skipIf condition =>
      cases condition with
      | equals | differs | equalsByte | differsByte => simp [encode, decode, decode?]
      | keyDown | keyUp => simp [encode, decode, decode?, ofKeyByte?]
  | combine | draw | loadByte | addByte | random => simp [encode, decode, decode?]
  | loadDelay | waitKey | setDelay | setSound | addIndex | fontGlyph | storeDecimal
  | storeRegisters | loadRegisters => simp [encode, decode, decode?, ofDeviceByte?]

/-- Reading a word as an instruction and writing an instruction as a word undo each other. What
    a word says has the operands of a word, and is no instruction exactly if the word matches no
    pattern. Each instruction with such operands is what its word says. So two words never say
    the same. -/
theorem decode_inverts_encode :
    (∀ w, encode (decode w) = w ∧ (decode w).Canonical ∧
      ((∃ word, decode w = .unknown word) ↔ ¬ w.IsInstruction)) ∧
    (∀ i : Instruction, i.Canonical → decode (encode i) = i) ∧
    Function.Injective decode := by
  refine ⟨fun w => ⟨encode_decode w, decode_canonical w, ?_⟩, fun i h => decode_encode h, ?_⟩
  · constructor
    · rintro ⟨word, hword⟩
      exact ((decode_eq_unknown_iff w word).mp hword).1
    · intro hword
      exact ⟨w, (decode_eq_unknown_iff w w).mpr ⟨hword, rfl⟩⟩
  · exact Function.LeftInverse.injective encode_decode

/-- A jump with offset says its register twice: by itself and as the top digit of its address. -/
theorem decode_inverts_encode_jumpOffset :
    (jumpOffset 0xA 0xA10).Canonical ∧ decode (encode (.jumpOffset 0xA 0xA10)) =
      .jumpOffset 0xA 0xA10 := by
  have hcanonical : (jumpOffset 0xA 0xA10).Canonical := ⟨by decide, by decide⟩
  exact ⟨hcanonical, decode_inverts_encode.2.1 _ hcanonical⟩

end Instruction

end Chip8
