/-
  Chip8.Proofs.Numerals

  Hexadecimal numerals, read back. The digits of a numeral give its number again, whatever
  the width (`ofUpperHex_upperHex`), a number that fits the width fills it
  (`length_upperHex`), and there is nothing but letters and figures in a numeral
  (`isAlphanum_of_mem_upperHex`). Numerals in lower case are described by what they are for a
  reader (`IsHexNumeral`), and from two digits on that leaves one text for a number
  (`IsHexNumeral.eq_hex`).
-/
import Chip8.Text.Hex
import Mathlib.Algebra.Group.Nat.Defs
import Mathlib.Data.List.Induction

namespace Chip8.Text

/-! ## The number of a numeral -/

/-- The number of a hexadecimal digit in upper case. -/
def digitValue (digit : Char) : Nat :=
  if digit.isDigit then digit.toNat - '0'.toNat else 10 + (digit.toNat - 'A'.toNat)

/-- The number of a numeral of such digits, most significant first. -/
def ofUpperHex (digits : List Char) : Nat :=
  digits.foldl (fun n digit => 16 * n + digitValue digit) 0

theorem ofUpperHex_concat (digits : List Char) (digit : Char) :
    ofUpperHex (digits ++ [digit]) = 16 * ofUpperHex digits + digitValue digit := by
  simp [ofUpperHex]

/-- Zeros in front change nothing. -/
theorem ofUpperHex_zeros (count : Nat) (digits : List Char) :
    ofUpperHex (List.replicate count '0' ++ digits) = ofUpperHex digits := by
  induction count with
  | zero => rfl
  | succ count ih => exact ih

/-! ## Digits -/

theorem digitValue_digitChar : ∀ d < 16, digitValue (Nat.digitChar d).toUpper = d := by decide

theorem isAlphanum_digitChar : ∀ d < 16, (Nat.digitChar d).toUpper.isAlphanum = true := by decide

theorem mem_toDigits {n : Nat} {c : Char} (h : c ∈ Nat.toDigits 16 n) :
    ∃ d < 16, c = Nat.digitChar d := by
  -- the last digit comes off the end
  induction n using Nat.strongRecOn with
  | ind n ih =>
    rw [Nat.toDigits_eq_if (by decide)] at h
    split at h
    · next hlt => exact ⟨n, hlt, List.mem_singleton.mp h⟩
    · next hge =>
      rcases List.mem_append.mp h with hrest | hlast
      · exact ih (n / 16) (by omega) hrest
      · exact ⟨n % 16, Nat.mod_lt n (by decide), List.mem_singleton.mp hlast⟩

theorem ofUpperHex_toDigits (n : Nat) :
    ofUpperHex ((Nat.toDigits 16 n).map Char.toUpper) = n := by
  induction n using Nat.strongRecOn with
  | ind n ih =>
    rw [Nat.toDigits_eq_if (by decide)]
    split
    · next hlt => exact (Nat.zero_add _).trans (digitValue_digitChar n hlt)
    · next hge =>
      have hlast := digitValue_digitChar (n % 16) (Nat.mod_lt n (show 16 > 0 by decide))
      rw [List.map_append, List.map_singleton, ofUpperHex_concat, ih (n / 16) (by omega), hlast]
      omega

/-! ## Numerals -/

/-- The characters of a numeral: zeros in front of digits. -/
theorem toList_upperHex (width n : Nat) :
    (upperHex width n).toList =
      List.replicate (width - (Nat.toDigits 16 n).length) '0' ++
        (Nat.toDigits 16 n).map Char.toUpper := by
  rw [upperHex, String.toList_ofList, hexDigits, List.leftpad, List.map_append, List.map_replicate]
  rfl

/-- A numeral gives its number again. -/
theorem ofUpperHex_upperHex (width n : Nat) : ofUpperHex (upperHex width n).toList = n := by
  rw [toList_upperHex, ofUpperHex_zeros, ofUpperHex_toDigits]

/-- A number with no more digits than that fills the width. -/
theorem length_upperHex {width n : Nat} (h : (Nat.toDigits 16 n).length ≤ width) :
    (upperHex width n).toList.length = width := by
  rw [toList_upperHex, List.length_append, List.length_replicate, List.length_map]
  omega

theorem isAlphanum_of_mem_upperHex {width n : Nat} {c : Char} (h : c ∈ (upperHex width n).toList) :
    c.isAlphanum = true := by
  rw [toList_upperHex, List.mem_append] at h
  rcases h with hzero | hdigit
  · rw [List.eq_of_mem_replicate hzero]
    rfl
  · obtain ⟨lower, hlower, rfl⟩ := List.mem_map.mp hdigit
    obtain ⟨d, hd, rfl⟩ := mem_toDigits hlower
    exact isAlphanum_digitChar d hd

/-! ## Lower case -/

/-- `numeral` is `n` in lower-case hexadecimal digits, at least `width` of them and no more than
    it takes. -/
structure IsHexNumeral (width n : Nat) (numeral : String) : Prop where
  digits : ∀ c ∈ numeral.toList, c ∈ "0123456789abcdef".toList
  value : ofUpperHex (numeral.toList.map Char.toUpper) = n
  length_le_iff : ∀ count, 0 < count → (numeral.length ≤ count ↔ width ≤ count ∧ n < 16 ^ count)

theorem mem_lowerDigits_iff {c : Char} :
    c ∈ "0123456789abcdef".toList ↔ ∃ d < 16, Nat.digitChar d = c := by
  have hdigits : "0123456789abcdef".toList = (List.range 16).map Nat.digitChar := by decide
  simp only [hdigits, List.mem_map, List.mem_range]

theorem isHexNumeral_hex (width n : Nat) : IsHexNumeral width n (hex width n) where
  digits := by
    intro c hc
    rw [hex, String.toList_ofList, hexDigits, List.leftpad, List.mem_append] at hc
    rcases hc with hzero | hdigit
    · rw [List.eq_of_mem_replicate hzero]
      decide
    · obtain ⟨d, hd, rfl⟩ := mem_toDigits hdigit
      exact mem_lowerDigits_iff.mpr ⟨d, hd, rfl⟩
  value := by
    have hupper : (hex width n).toList.map Char.toUpper = (upperHex width n).toList := by
      rw [hex, upperHex, String.toList_ofList, String.toList_ofList]
    rw [hupper, ofUpperHex_upperHex]
  length_le_iff := by
    intro count hcount
    rw [hex, String.length_ofList, hexDigits, List.length_leftpad, Nat.max_le,
      Nat.length_toDigits_le_iff (by decide) hcount]

/-- Numerals of one length that stand for one number are the same. -/
theorem eq_of_ofUpperHex_eq {first second : List Char}
    (hfirst : ∀ c ∈ first, c ∈ "0123456789abcdef".toList)
    (hsecond : ∀ c ∈ second, c ∈ "0123456789abcdef".toList)
    (hlength : first.length = second.length)
    (hvalue : ofUpperHex (first.map Char.toUpper) = ofUpperHex (second.map Char.toUpper)) :
    first = second := by
  -- the last digits are the remainders by sixteen, and the digits before them the quotients
  induction first using List.reverseRecOn generalizing second with
  | nil => exact (List.length_eq_zero_iff.mp hlength.symm).symm
  | append_singleton first c ih =>
      rcases List.eq_nil_or_concat second with rfl | ⟨second, d, rfl⟩
      · simp at hlength
      · rw [List.concat_eq_append] at hsecond hlength hvalue ⊢
        rw [List.forall_mem_append, List.forall_mem_singleton] at hfirst hsecond
        rw [List.length_append, List.length_append, List.length_singleton,
          List.length_singleton, Nat.add_right_cancel_iff] at hlength
        rw [List.map_append, List.map_append, List.map_singleton, List.map_singleton,
          ofUpperHex_concat, ofUpperHex_concat] at hvalue
        obtain ⟨i, hi, rfl⟩ := mem_lowerDigits_iff.mp hfirst.2
        obtain ⟨j, hj, rfl⟩ := mem_lowerDigits_iff.mp hsecond.2
        rw [digitValue_digitChar i hi, digitValue_digitChar j hj] at hvalue
        have hdigit : i = j := by omega
        rw [hdigit, ih hfirst.1 hsecond.1 hlength (by omega)]

theorem IsHexNumeral.length_le {width n : Nat} {first second : String}
    (hfirst : IsHexNumeral width n first) (hsecond : IsHexNumeral width n second)
    (hwidth : 1 < width) : first.length ≤ second.length := by
  have hlong : ¬ second.length ≤ 1 := by
    intro hle
    exact absurd ((hsecond.length_le_iff 1 Nat.one_pos).mp hle).1 (Nat.not_le.mpr hwidth)
  have hpos : 0 < second.length := by omega
  exact (hfirst.length_le_iff _ hpos).mpr ((hsecond.length_le_iff _ hpos).mp (Nat.le_refl _))

/-- What a numeral is for a reader determines its text. -/
theorem IsHexNumeral.eq_hex {width n : Nat} {numeral : String} (h : IsHexNumeral width n numeral)
    (hwidth : 1 < width) : numeral = hex width n := by
  have hhex := isHexNumeral_hex width n
  have hlength : numeral.length = (hex width n).length :=
    Nat.le_antisymm (h.length_le hhex hwidth) (hhex.length_le h hwidth)
  exact String.toList_injective
    (eq_of_ofUpperHex_eq h.digits hhex.digits hlength (h.value.trans hhex.value.symm))

end Chip8.Text
