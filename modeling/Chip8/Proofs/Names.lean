/-
  Chip8.Proofs.Names

  Names given by a user. Before they are compared they lose the blanks at both ends and their
  ASCII letters become lower case (`Text.normalize`). Neither of these makes work for the
  other, since the lower case of a letter is no blank, so that a name is in this form after
  one time (`Text.normalize_normalize`). The names of dialects and policies are looked up in a
  list each (`Dialect.ofName_eq_lookUp`, `UnknownWordPolicy.ofName_eq_lookUp`).
-/
import Chip8.Dialect
import Mathlib.Data.List.DropRight

namespace Chip8

namespace Text

/-! ## Characters -/

/-- No blank is among the visible ASCII characters. -/
theorem isBlank_of_visible {c : Char} (hlow : 0x21 ≤ c.toNat) (hhigh : c.toNat ≤ 0x7E) :
    isBlank c = false := by
  rw [Bool.eq_false_iff]
  intro hblank
  simp only [isBlank, blankRanges, List.any_cons, List.any_nil, Bool.or_eq_true,
    Bool.and_eq_true, decide_eq_true_eq, Bool.false_eq_true, or_false] at hblank
  omega

/-- The lower case of a capital letter of ASCII comes 32 places after it. -/
theorem toNat_toLower {c : Char} (h : 0x41 ≤ c.toNat ∧ c.toNat ≤ 0x5A) :
    c.toLower.toNat = c.toNat + 0x20 := by
  have hlower : c.toLower.val = c.val + 0x20 := congrArg Char.val (dif_pos h)
  show c.toLower.val.toNat = c.toNat + 0x20
  rw [hlower, UInt32.toNat_add]
  show (c.toNat + 0x20) % 4294967296 = _
  omega

/-- Every other character is its own lower case. -/
theorem toLower_of_not_capital {c : Char} (h : ¬(0x41 ≤ c.toNat ∧ c.toNat ≤ 0x5A)) :
    c.toLower = c :=
  dif_neg h

/-- The lower case of a character is the character itself, unless that is one of the 26 capital
    letters of ASCII. -/
theorem toLower_cases (c : Char) :
    c.toLower = c ∨
      (0x41 ≤ c.toNat ∧ c.toNat ≤ 0x5A ∧ c.toLower.toNat = c.toNat + 0x20) := by
  by_cases h : 0x41 ≤ c.toNat ∧ c.toNat ≤ 0x5A
  · exact Or.inr ⟨h.1, h.2, toNat_toLower h⟩
  · exact Or.inl (toLower_of_not_capital h)

theorem isBlank_toLower (c : Char) : isBlank c.toLower = isBlank c := by
  rcases toLower_cases c with hsame | ⟨hlow, hhigh, hlower⟩
  · rw [hsame]
  · rw [isBlank_of_visible (by omega) (by omega), isBlank_of_visible (by omega) (by omega)]

theorem toLower_toLower (c : Char) : c.toLower.toLower = c.toLower := by
  rcases toLower_cases c with hsame | ⟨hlow, hhigh, hlower⟩
  · rw [hsame, hsame]
  · -- a small letter is none of the capital ones
    rcases toLower_cases c.toLower with hsame | ⟨hlow', hhigh', -⟩
    · exact hsame
    · omega

/-! ## Trimming -/

/-- Trimming takes the blanks off the front and then off the back. -/
theorem trim_eq (cs : List Char) : trim cs = (cs.dropWhile isBlank).rdropWhile isBlank := rfl

/-- A trimmed text has no blank in front. -/
theorem dropWhile_trim (cs : List Char) : (trim cs).dropWhile isBlank = trim cs := by
  rw [List.dropWhile_eq_self_iff]
  intro hlength
  -- what is taken off the back leaves the first character
  have hpre : trim cs <+: cs.dropWhile isBlank := List.rdropWhile_prefix ..
  rw [hpre.getElem hlength]
  exact List.dropWhile_get_zero_not isBlank cs (hlength.trans_le hpre.length_le)

theorem trim_trim (cs : List Char) : trim (trim cs) = trim cs := by
  rw [trim_eq, dropWhile_trim, trim_eq, List.rdropWhile_idempotent]

theorem trim_map_toLower (cs : List Char) :
    trim (cs.map Char.toLower) = (trim cs).map Char.toLower := by
  have hblank : isBlank ∘ Char.toLower = isBlank := funext isBlank_toLower
  rw [trim, trim, List.dropWhile_map, hblank, ← List.map_reverse, List.dropWhile_map, hblank,
    List.map_reverse]

theorem normalize_normalize (name : String) : normalize (normalize name) = normalize name := by
  have hlower : Char.toLower ∘ Char.toLower = Char.toLower := funext toLower_toLower
  rw [normalize, normalize, String.toList_ofList, trim_map_toLower, trim_trim, List.map_map,
    hlower]

/-! ## Looking up -/

section

variable {α : Type}

/-- What a list of names has for a name, once that is in normal form. -/
def lookUp (variableName : String) (allowed : List String) (names : List (String × α))
    (name : String) : Except UnknownName α :=
  match names.lookup (normalize name) with
  | some value => .ok value
  | none => .error ⟨variableName, normalize name, allowed⟩

variable (variableName : String) (allowed : List String) (names : List (String × α))
  (name : String)

/-- Two entries have nothing for a third name. -/
theorem lookup_eq_none_of_ne {first second : String} {a b : α} (hfirst : name ≠ first)
    (hsecond : name ≠ second) : [(first, a), (second, b)].lookup name = none := by
  apply List.lookup_eq_none_iff.mpr
  simp only [List.forall_mem_cons, bne_iff_ne]
  exact ⟨hfirst, hsecond, List.forall_mem_nil _⟩

theorem toOption_lookUp :
    (lookUp variableName allowed names name).toOption = names.lookup (normalize name) := by
  rw [lookUp]
  cases names.lookup (normalize name) with
  | _ => rfl

theorem lookUp_normalize :
    lookUp variableName allowed names (normalize name) =
      lookUp variableName allowed names name := by
  rw [lookUp, lookUp, normalize_normalize]

end

end Text

/-! ## The names of dialects and policies -/

/-- The dialects by their names. -/
def Dialect.names : List (String × Dialect) :=
  [("original", .classic), ("modern", .modern)]

/-- The policies by their names. -/
def UnknownWordPolicy.names : List (String × UnknownWordPolicy) :=
  [("halt", .halt), ("skip", .skip)]

theorem Dialect.ofName_eq_lookUp (name : String) :
    ofName name = Text.lookUp variableName ["modern", "original"] names name := by
  unfold ofName Text.lookUp
  split
  · next heq => rw [heq]; rfl
  · next heq => rw [heq]; rfl
  · next given hclassic hmodern =>
    rw [names, Text.lookup_eq_none_of_ne _ hclassic hmodern]

theorem UnknownWordPolicy.ofName_eq_lookUp (name : String) :
    ofName name = Text.lookUp variableName ["halt", "skip"] names name := by
  unfold ofName Text.lookUp
  split
  · next heq => rw [heq]; rfl
  · next heq => rw [heq]; rfl
  · next given hhalt hskip =>
    rw [names, Text.lookup_eq_none_of_ne _ hhalt hskip]

theorem Dialect.toOption_ofName (name : String) :
    (ofName name).toOption = names.lookup (Text.normalize name) := by
  rw [ofName_eq_lookUp, Text.toOption_lookUp]

theorem UnknownWordPolicy.toOption_ofName (name : String) :
    (ofName name).toOption = names.lookup (Text.normalize name) := by
  rw [ofName_eq_lookUp, Text.toOption_lookUp]

end Chip8
