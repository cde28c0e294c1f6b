/-
  Chip8.Proofs.Disassembly

  Assembler notation, read back. The text of an instruction is a line: a name and operands
  (`Instruction.line`, `text_line`). There are no blanks and commas in names and operands, so
  the text can be taken apart at them (`Line.ofText?_text`), and a line says its instruction
  (`Instruction.ofLine?_line`). So a word is known by its text, in every dialect.
-/
import Chip8.Instruction.Mnemonic
import Chip8.Proofs.Numerals
import Chip8.Proofs.ProgramCounter
import Chip8.Proofs.RoundTrip

namespace Chip8

namespace Mnemonic

/-! ## Names and operands -/

/-- The fixed words of the notation: the names of instructions, and the operands that are
    neither registers nor numbers. -/
inductive Keyword where
  | sys | cls | ret | jp | call | se | sne | skp | sknp | ld | add | or | and | xor | sub | shr
  | subn | shl | rnd | drw | dw
  | index | memory | delay | sound | key | font | decimal
  deriving DecidableEq

namespace Keyword

def text : Keyword → String
  | sys => "SYS"
  | cls => "CLS"
  | ret => "RET"
  | jp => "JP"
  | call => "CALL"
  | se => "SE"
  | sne => "SNE"
  | skp => "SKP"
  | sknp => "SKNP"
  | ld => "LD"
  | add => "ADD"
  | or => "OR"
  | and => "AND"
  | xor => "XOR"
  | sub => "SUB"
  | shr => "SHR"
  | subn => "SUBN"
  | shl => "SHL"
  | rnd => "RND"
  | drw => "DRW"
  | dw => "DW"
  | index => "I"
  | memory => "[I]"
  | delay => "DT"
  | sound => "ST"
  | key => "K"
  | font => "F"
  | decimal => "B"

/-- All keywords. -/
def all : List Keyword :=
  [sys, cls, ret, jp, call, se, sne, skp, sknp, ld, add, or, and, xor, sub, shr, subn, shl, rnd,
    drw, dw, index, memory, delay, sound, key, font, decimal]

/-- The keyword that is written with the given characters. -/
def ofChars? (chars : List Char) : Option Keyword :=
  all.find? fun keyword => keyword.text.toList == chars

theorem mem_all (keyword : Keyword) : keyword ∈ all := by
  cases keyword with
  | _ => decide

theorem ofChars?_text (keyword : Keyword) : ofChars? keyword.text.toList = some keyword := by
  have hall : ∀ word ∈ all, ofChars? word.text.toList = some word := by decide +kernel
  exact hall keyword keyword.mem_all

end Keyword

/-- An operand, as it is written. -/
inductive Operand where
  | keyword (name : Keyword)
  | register (x : Fin 16)
  | byte (value : UInt8)
  | address (value : Word)
  | word (value : Word)
  /-- A decimal number. -/
  | count (n : Fin 16)
  deriving DecidableEq

namespace Operand

def text : Operand → String
  | .keyword name => name.text
  | .register x => Mnemonic.register x
  | .byte value => Mnemonic.byte value
  | .address value => Mnemonic.address value
  | .word value => "0x" ++ Text.upperHex 4 value.toNat
  | .count n => toString n.val

/-- Whether an operand fits the place for it. -/
def Fits : Operand → Prop
  | .address value => value.toNat < 4096
  | _ => True

/-- The operand that is a hexadecimal number of `width` digits. -/
def ofNumeral (width value : Nat) : Operand :=
  match width with
  | 2 => .byte (.ofNat value)
  | 3 => .address (.ofNat value)
  | _ => .word (.ofNat value)

/-- The operand that is written with the given characters. Bytes, addresses and words differ in
    their number of digits. -/
def ofChars : List Char → Operand
  | 'V' :: digits => .register (Fin.ofNat 16 (Text.ofUpperHex digits))
  | '0' :: 'x' :: digits => ofNumeral digits.length (Text.ofUpperHex digits)
  | chars =>
    match Keyword.ofChars? chars with
    | some name => .keyword name
    | none => .count (Fin.ofNat 16 (Nat.ofDigitChars 10 chars 0))

theorem ofChars_register (x : Fin 16) : ofChars (Mnemonic.register x).toList = .register x := by
  have hx : Fin.ofNat 16 x.val = x := Fin.ofNat_val_eq_self x
  rw [Mnemonic.register, String.toList_append]
  show Operand.register (Fin.ofNat 16 (Text.ofUpperHex (Text.upperHex 1 x).toList)) = _
  rw [Text.ofUpperHex_upperHex, hx]

theorem ofChars_numeral {width value : Nat} (h : (Nat.toDigits 16 value).length ≤ width) :
    ofChars ("0x" ++ Text.upperHex width value).toList = ofNumeral width value := by
  rw [String.toList_append]
  show ofNumeral (Text.upperHex width value).toList.length
    (Text.ofUpperHex (Text.upperHex width value).toList) = _
  rw [Text.ofUpperHex_upperHex, Text.length_upperHex h]

/-- An operand is read back from its text. -/
theorem ofChars_text {operand : Operand} (h : operand.Fits) :
    ofChars operand.text.toList = operand := by
  -- the keywords and the counts are few enough to read each of them back
  cases operand with
  | keyword name =>
    have hall : ∀ name ∈ Keyword.all, ofChars (keyword name).text.toList = .keyword name := by
      decide +kernel
    exact hall name name.mem_all
  | register x => exact ofChars_register x
  | byte value =>
    have hdigits : (Nat.toDigits 16 value.toNat).length ≤ 2 :=
      (Nat.length_toDigits_le_iff (by decide) (by decide)).mpr value.toNat_lt
    exact (ofChars_numeral hdigits).trans (congrArg byte UInt8.ofNat_toNat)
  | address value =>
    have hdigits : (Nat.toDigits 16 value.toNat).length ≤ 3 :=
      (Nat.length_toDigits_le_iff (by decide) (by decide)).mpr h
    exact (ofChars_numeral hdigits).trans (congrArg address UInt16.ofNat_toNat)
  | word value =>
    have hdigits : (Nat.toDigits 16 value.toNat).length ≤ 4 :=
      (Nat.length_toDigits_le_iff (by decide) (by decide)).mpr value.toNat_lt
    exact (ofChars_numeral hdigits).trans (congrArg word UInt16.ofNat_toNat)
  | count n =>
    have hall : ∀ n : Fin 16, ofChars (count n).text.toList = .count n := by decide +kernel
    exact hall n

end Operand

/-! ## Separators -/

/-- Whether a character stands between the parts of a line. -/
def isSeparator (c : Char) : Bool := c == ' ' || c == ','

/-- Whether some characters have no separator among them. -/
def IsPart (chars : List Char) : Prop := chars.any isSeparator = false

instance IsPart.decidable (chars : List Char) : Decidable (IsPart chars) :=
  inferInstanceAs (Decidable (chars.any isSeparator = false))

theorem IsPart.not_mem {chars : List Char} (h : IsPart chars) {c : Char}
    (hc : isSeparator c = true) : c ∉ chars := by
  intro hmem
  have hany := List.any_eq_false.mp h c hmem
  exact hany hc

theorem IsPart.append {first second : List Char} (hfirst : IsPart first)
    (hsecond : IsPart second) : IsPart (first ++ second) := by
  rw [IsPart, List.any_append, hfirst, hsecond]
  rfl

theorem isPart_upperHex (width n : Nat) : IsPart (Text.upperHex width n).toList := by
  refine List.any_eq_false.mpr fun c hc hseparator => ?_
  have halphanum := Text.isAlphanum_of_mem_upperHex hc
  rcases Bool.or_eq_true_iff.mp hseparator with hblank | hcomma
  · rw [eq_of_beq hblank] at halphanum
    cases halphanum
  · rw [eq_of_beq hcomma] at halphanum
    cases halphanum

theorem Keyword.isPart (keyword : Keyword) : IsPart keyword.text.toList := by
  have hall : ∀ word ∈ all, IsPart word.text.toList := by decide +kernel
  exact hall keyword keyword.mem_all

theorem Operand.isPart (operand : Operand) : IsPart operand.text.toList := by
  have hnumeral {start : String} (h : IsPart start.toList) (width n : Nat) :
      IsPart (start ++ Text.upperHex width n).toList := by
    rw [String.toList_append]
    exact h.append (isPart_upperHex width n)
  cases operand with
  | keyword name => exact name.isPart
  | register | byte | address | word => exact hnumeral (by decide +kernel) _ _
  | count n =>
    have hall : ∀ n : Fin 16, IsPart (count n).text.toList := by decide +kernel
    exact hall n

/-! ## Lines -/

/-- The name of an instruction and its operands. -/
structure Line where
  name : Keyword
  operands : List Operand

namespace Line

/-- Whether all operands of a line fit. -/
def Fits (line : Line) : Prop := ∀ operand ∈ line.operands, operand.Fits

/-- Operands that follow others, each behind a comma. -/
def moreText (operands : List Operand) : String :=
  operands.foldr (fun operand rest => ", " ++ operand.text ++ rest) ""

/-- A line in assembler notation. -/
def text (line : Line) : String :=
  match line.operands with
  | [] => line.name.text
  | operand :: more => line.name.text ++ " " ++ operand.text ++ moreText more

/-- The line with a text: what stands between blanks, without the commas. -/
def ofText? (text : String) : Option Line :=
  match (text.toList.filter (· ≠ ',')).splitOn ' ' with
  | [] => none
  | name :: operands =>
    (Keyword.ofChars? name).map fun name => ⟨name, operands.map Operand.ofChars⟩

theorem filter_comma {chars : List Char} (h : IsPart chars) :
    chars.filter (· ≠ ',') = chars := by
  refine List.filter_eq_self.mpr fun c hc => decide_eq_true ?_
  rintro rfl
  exact h.not_mem rfl hc

/-- Without the commas there is one blank before each of the operands. -/
theorem filter_moreText (operands : List Operand) :
    (moreText operands).toList.filter (· ≠ ',') =
      operands.flatMap fun operand => ' ' :: operand.text.toList := by
  induction operands with
  | nil => rfl
  | cons operand rest ih =>
    have hcut : (", ".toList).filter (· ≠ ',') = [' '] := by decide
    rw [moreText, List.foldr_cons, ← moreText, String.toList_append, String.toList_append,
      List.filter_append, List.filter_append, hcut, filter_comma operand.isPart, ih]
    rfl

/-- With one separator between them, all lists but the first have it in front. -/
theorem intercalate_cons {α : Type} (separator : α) (first : List α) (rest : List (List α)) :
    [separator].intercalate (first :: rest) = first ++ rest.flatMap (separator :: ·) := by
  induction rest generalizing first with
  | nil => simp
  | cons second rest ih =>
    rw [List.intercalate_cons_cons, ih, List.flatMap_cons, List.append_assoc]
    rfl

/-- Without the commas a line is its name and its operands with one blank between them. -/
theorem filter_text (line : Line) :
    line.text.toList.filter (· ≠ ',') =
      [' '].intercalate (line.name.text.toList :: line.operands.map (·.text.toList)) := by
  obtain ⟨name, operands⟩ := line
  rw [intercalate_cons, List.flatMap_map]
  cases operands with
  | nil =>
    rw [text, filter_comma name.isPart]
    exact (List.append_nil _).symm
  | cons operand more =>
    have hblank : (" ".toList).filter (· ≠ ',') = [' '] := by decide
    simp only [text, String.toList_append, List.filter_append, hblank, filter_moreText,
      filter_comma name.isPart, filter_comma operand.isPart]
    rw [List.append_assoc, List.append_assoc]
    rfl

/-- A line is read back from its text. -/
theorem ofText?_text {line : Line} (h : line.Fits) : ofText? line.text = some line := by
  -- neither the name nor an operand is split
  have hblank : ∀ part ∈ line.name.text.toList :: line.operands.map (·.text.toList),
      ' ' ∉ part := by
    intro part hpart
    rcases List.mem_cons.mp hpart with rfl | hoperand
    · exact line.name.isPart.not_mem rfl
    · obtain ⟨operand, -, rfl⟩ := List.mem_map.mp hoperand
      exact operand.isPart.not_mem rfl
  have hread : (line.operands.map (·.text.toList)).map Operand.ofChars = line.operands := by
    have heach : ∀ operand ∈ line.operands,
        (Operand.ofChars ∘ (·.text.toList)) operand = id operand :=
      fun operand hoperand => Operand.ofChars_text (h operand hoperand)
    rw [List.map_map, List.map_congr_left heach, List.map_id]
  rw [ofText?, filter_text, List.splitOn_intercalate ' ' hblank (List.cons_ne_nil _ _)]
  simp only [Keyword.ofChars?_text, Option.map_some, hread]

/-- Lines with the same text are the same, if their operands fit. -/
theorem eq_of_text_eq {first second : Line} (hfirst : first.Fits) (hsecond : second.Fits)
    (h : first.text = second.text) : first = second := by
  have hread := ofText?_text hfirst
  rw [h, ofText?_text hsecond] at hread
  exact (Option.some.inj hread).symm

/-! ## Lines of few operands -/

theorem text_one (name : Keyword) (operand : Operand) :
    text ⟨name, [operand]⟩ = one name.text operand.text :=
  String.append_empty

theorem text_two (name : Keyword) (first second : Operand) :
    text ⟨name, [first, second]⟩ = two name.text first.text second.text := by
  simp only [text, moreText, List.foldr_cons, List.foldr_nil, two, String.append_empty,
    String.append_assoc]

theorem text_three (name : Keyword) (first second third : Operand) :
    text ⟨name, [first, second, third]⟩ =
      two name.text first.text second.text ++ ", " ++ third.text := by
  simp only [text, moreText, List.foldr_cons, List.foldr_nil, two, String.append_empty,
    String.append_assoc]

end Line

end Mnemonic

open Mnemonic

/-! ## Instructions as lines -/

/-- The name of the instruction for an operation. -/
def Operation.keyword : Operation → Keyword
  | .copy => .ld
  | .or => .or
  | .and => .and
  | .xor => .xor
  | .add => .add
  | .subtract => .sub
  | .shiftRight => .shr
  | .subtractReversed => .subn
  | .shiftLeft => .shl

theorem Operation.text_keyword (operation : Operation) :
    operation.keyword.text = operation.mnemonic := by
  cases operation with
  | _ => rfl

/-- The line of an instruction that skips, by its condition. -/
def Condition.line : Condition → Line
  | .equalsByte x value => ⟨.se, [.register x, .byte value]⟩
  | .differsByte x value => ⟨.sne, [.register x, .byte value]⟩
  | .equals x y => ⟨.se, [.register x, .register y]⟩
  | .differs x y => ⟨.sne, [.register x, .register y]⟩
  | .keyDown x => ⟨.skp, [.register x]⟩
  | .keyUp x => ⟨.sknp, [.register x]⟩

namespace Instruction

/-- The line of an instruction in a dialect. -/
def line (dialect : Dialect) : Instruction → Line
  | .sys target => ⟨.sys, [.address target]⟩
  | .clearScreen => ⟨.cls, []⟩
  | .ret => ⟨.ret, []⟩
  | .jump target => ⟨.jp, [.address target]⟩
  | .call target => ⟨.call, [.address target]⟩
  | .skipIf condition => condition.line
  | .loadByte x value => ⟨.ld, [.register x, .byte value]⟩
  | .addByte x value => ⟨.add, [.register x, .byte value]⟩
  | .combine operation x y => ⟨operation.keyword, [.register x, .register y]⟩
  | .loadIndex target => ⟨.ld, [.keyword .index, .address target]⟩
  | .jumpOffset x target =>
    ⟨.jp, [.register (if dialect.jumpReadsX then x else 0), .address target]⟩
  | .random x mask => ⟨.rnd, [.register x, .byte mask]⟩
  | .draw x y rows => ⟨.drw, [.register x, .register y, .count rows]⟩
  | .waitKey x => ⟨.ld, [.register x, .keyword .key]⟩
  | .loadDelay x => ⟨.ld, [.register x, .keyword .delay]⟩
  | .setDelay x => ⟨.ld, [.keyword .delay, .register x]⟩
  | .setSound x => ⟨.ld, [.keyword .sound, .register x]⟩
  | .addIndex x => ⟨.add, [.keyword .index, .register x]⟩
  | .fontGlyph x => ⟨.ld, [.keyword .font, .register x]⟩
  | .storeDecimal x => ⟨.ld, [.keyword .decimal, .register x]⟩
  | .storeRegisters x => ⟨.ld, [.keyword .memory, .register x]⟩
  | .loadRegisters x => ⟨.ld, [.register x, .keyword .memory]⟩
  | .unknown word => ⟨.dw, [.word word]⟩

/-- The text of an instruction is the text of its line. -/
theorem text_line (dialect : Dialect) (i : Instruction) :
    (i.line dialect).text = i.disassemble dialect := by
  cases i with
  | clearScreen | ret => rfl
  | sys | jump | call => exact Line.text_one ..
  | unknown word =>
    rw [line, Line.text_one]
    exact String.append_assoc ..
  | skipIf condition =>
    cases condition with
    | keyDown | keyUp => exact Line.text_one ..
    | _ => exact Line.text_two ..
  | combine operation x y =>
    rw [line, Line.text_two, operation.text_keyword]
    rfl
  | draw => exact Line.text_three ..
  | _ => exact Line.text_two ..

/-- Without a dialect a jump with offset is written as in the classic one. -/
theorem disassemble_classic (i : Instruction) : i.disassemble .classic = i.mnemonic := by
  cases i with
  | _ => rfl

/-- The operands of what a word says fit. -/
theorem fits_line (dialect : Dialect) {i : Instruction} (h : i.Canonical) :
    (i.line dialect).Fits := by
  cases i with
  | sys | jumpOffset => simp [line, Line.Fits, Operand.Fits, h.1]
  | jump target | call target | loadIndex target =>
    have hlt : target.toNat < 4096 := h
    simp [line, Line.Fits, Operand.Fits, hlt]
  | skipIf condition =>
    cases condition with
    | _ => simp [line, Condition.line, Line.Fits, Operand.Fits]
  | _ => simp [line, Line.Fits, Operand.Fits]

/-- The instruction that a line says. A jump with offset has its register in the address, since
    the dialect may write V0 for it. -/
def ofLine? : Line → Option Instruction
  | ⟨.sys, [.address target]⟩ => some (.sys target)
  | ⟨.cls, []⟩ => some .clearScreen
  | ⟨.ret, []⟩ => some .ret
  | ⟨.jp, [.address target]⟩ => some (.jump target)
  | ⟨.call, [.address target]⟩ => some (.call target)
  | ⟨.se, [.register x, .byte value]⟩ => some (.skipIf (.equalsByte x value))
  | ⟨.sne, [.register x, .byte value]⟩ => some (.skipIf (.differsByte x value))
  | ⟨.se, [.register x, .register y]⟩ => some (.skipIf (.equals x y))
  | ⟨.sne, [.register x, .register y]⟩ => some (.skipIf (.differs x y))
  | ⟨.skp, [.register x]⟩ => some (.skipIf (.keyDown x))
  | ⟨.sknp, [.register x]⟩ => some (.skipIf (.keyUp x))
  | ⟨.ld, [.register x, .byte value]⟩ => some (.loadByte x value)
  | ⟨.add, [.register x, .byte value]⟩ => some (.addByte x value)
  | ⟨.ld, [.register x, .register y]⟩ => some (.combine .copy x y)
  | ⟨.or, [.register x, .register y]⟩ => some (.combine .or x y)
  | ⟨.and, [.register x, .register y]⟩ => some (.combine .and x y)
  | ⟨.xor, [.register x, .register y]⟩ => some (.combine .xor x y)
  | ⟨.add, [.register x, .register y]⟩ => some (.combine .add x y)
  | ⟨.sub, [.register x, .register y]⟩ => some (.combine .subtract x y)
  | ⟨.shr, [.register x, .register y]⟩ => some (.combine .shiftRight x y)
  | ⟨.subn, [.register x, .register y]⟩ => some (.combine .subtractReversed x y)
  | ⟨.shl, [.register x, .register y]⟩ => some (.combine .shiftLeft x y)
  | ⟨.ld, [.keyword .index, .address target]⟩ => some (.loadIndex target)
  | ⟨.jp, [.register _, .address target]⟩ => some (.jumpOffset target.x target)
  | ⟨.rnd, [.register x, .byte mask]⟩ => some (.random x mask)
  | ⟨.drw, [.register x, .register y, .count rows]⟩ => some (.draw x y rows)
  | ⟨.ld, [.register x, .keyword .key]⟩ => some (.waitKey x)
  | ⟨.ld, [.register x, .keyword .delay]⟩ => some (.loadDelay x)
  | ⟨.ld, [.keyword .delay, .register x]⟩ => some (.setDelay x)
  | ⟨.ld, [.keyword .sound, .register x]⟩ => some (.setSound x)
  | ⟨.add, [.keyword .index, .register x]⟩ => some (.addIndex x)
  | ⟨.ld, [.keyword .font, .register x]⟩ => some (.fontGlyph x)
  | ⟨.ld, [.keyword .decimal, .register x]⟩ => some (.storeDecimal x)
  | ⟨.ld, [.keyword .memory, .register x]⟩ => some (.storeRegisters x)
  | ⟨.ld, [.register x, .keyword .memory]⟩ => some (.loadRegisters x)
  | ⟨.dw, [.word word]⟩ => some (.unknown word)
  | _ => none

theorem ofLine?_line (dialect : Dialect) {i : Instruction} (h : i.Canonical) :
    ofLine? (i.line dialect) = some i := by
  cases i with
  | jumpOffset x target =>
    -- whichever register is written, the address has the one of the word
    have hx : target.x = x := by
      refine Fin.ext ?_
      show target.toNat / 256 % 16 = x.val
      obtain ⟨hlt, htop⟩ := h
      omega
    show some (jumpOffset target.x target) = _
    rw [hx]
  | skipIf condition =>
    cases condition with
    | _ => rfl
  | combine operation x y =>
    cases operation with
    | _ => rfl
  | _ => rfl

/-- A word is known by the text of what it says. -/
theorem disassemble_decode_injective (dialect : Dialect) :
    Function.Injective fun w => (decode w).disassemble dialect := by
  intro a b (h : (decode a).disassemble dialect = (decode b).disassemble dialect)
  have ha := decode_canonical a
  have hb := decode_canonical b
  rw [← text_line, ← text_line] at h
  -- the text tells the line, the line the instruction, and the instruction the word
  have hline := Line.eq_of_text_eq (fits_line dialect ha) (fits_line dialect hb) h
  have hsame : some (decode a) = some (decode b) := by
    rw [← ofLine?_line dialect ha, hline, ofLine?_line dialect hb]
  rw [← encode_decode a, Option.some.inj hsame, encode_decode]

/-! ## The register of a jump with offset -/

theorem decode_jumpOffset {w : Word} (h : w.family = 0xB) :
    decode w = .jumpOffset w.x w.address := by
  simp [decode, decode?, h]

/-- The text of a jump with offset names one register, the one that the dialect reads. -/
theorem disassemble_jumpOffset_iff (dialect : Dialect) {w : Word} (h : w.family = 0xB)
    (x : Fin 16) :
    (decode w).disassemble dialect = two "JP" (register x) (address w.address) ↔
      x = if dialect.jumpReadsX then w.x else 0 := by
  have hfits (y : Fin 16) : Line.Fits ⟨.jp, [.register y, .address w.address]⟩ := by
    simp [Line.Fits, Operand.Fits, w.toNat_address_lt]
  rw [decode_jumpOffset h]
  constructor
  · intro htext
    have htexts : (line dialect (.jumpOffset w.x w.address)).text =
        Line.text ⟨.jp, [.register x, .address w.address]⟩ := by
      rw [text_line, htext, Line.text_two]
      rfl
    have hlines := Line.eq_of_text_eq (hfits _) (hfits x) htexts
    obtain ⟨-, hoperands⟩ := Line.mk.inj hlines
    obtain ⟨hregister, -⟩ := List.cons.inj hoperands
    exact (Operand.register.inj hregister).symm
  · rintro rfl
    rfl

/-- A jump with offset goes to its address plus the register that the dialect reads. -/
theorem execute_jumpOffset (m : Machine) {w : Word} (h : w.family = 0xB) :
    (m.execute w).result = .ok () ∧ (m.execute w).machine.registers.pc.toNat =
      (w.toNat % 4096 +
        (m.registers.get (if m.dialect.jumpReadsX then w.x else 0)).toNat) % 4096 := by
  rw [Machine.execute_of_decode (decode_jumpOffset h) rfl]
  refine ⟨rfl, ?_⟩
  show (m.performed (.jumpOffset w.x w.address)).registers.pc.toNat = _
  rw [m.toNat_performed_pc]
  simp [flow, Flow.target, Word.toNat_address]

/-- The text of an instruction loses nothing: in every dialect, and also where no dialect is
    given, two words with the same text are the same word. And the text of a word of family B
    names a single register in a dialect, which is the one that every machine of the dialect
    adds to the address when it executes the word. -/
theorem disassembly_is_lossless :
    (∀ dialect, Function.Injective fun w => (decode w).disassemble dialect) ∧
    (Function.Injective fun w => (decode w).mnemonic) ∧
    ∀ (dialect : Dialect) (w : Word), w.family = 0xB →
      ∃ x, (∀ y, (decode w).disassemble dialect = two "JP" (register y) (address w.address) ↔
          y = x) ∧
        ∀ m : Machine, m.dialect = dialect →
          (m.execute w).result = .ok () ∧ (m.execute w).machine.registers.pc.toNat =
            (w.toNat % 4096 + (m.registers.get x).toNat) % 4096 := by
  refine ⟨disassemble_decode_injective, ?_, fun dialect w h => ?_⟩
  · have hclassic := disassemble_decode_injective .classic
    simpa only [disassemble_classic] using hclassic
  · refine ⟨if dialect.jumpReadsX then w.x else 0, disassemble_jumpOffset_iff dialect h, ?_⟩
    rintro m rfl
    exact execute_jumpOffset m h

/-- A machine of the modern dialect with 2 in V1. -/
def addingV1 : Machine :=
  { Machine.initial (.ofSeed 0) with
    registers := Registers.initial.set 0x1 2, dialect := .modern }

/-- In the modern dialect the text of B123 names V1, which the machine adds. -/
theorem disassembly_is_lossless_addingV1 :
    (decode 0xB123).disassemble .modern = "JP V1, 0x123" ∧
    (decode 0xB123).disassemble .modern ≠ (decode 0xB124).disassemble .modern ∧
    (decode 0xB123).mnemonic ≠ (decode 0xB124).mnemonic ∧
    (addingV1.execute 0xB123).machine.registers.pc.toNat = 0x125 := by
  have htext : (decode 0xB123).disassemble .modern = "JP V1, 0x123" := by decide +kernel
  obtain ⟨hdialects, hplain, hjumps⟩ := disassembly_is_lossless
  obtain ⟨x, hnames, hadds⟩ := hjumps .modern 0xB123 rfl
  have hx : 0x1 = x := (hnames 0x1).mp htext
  subst hx
  exact ⟨htext, (hdialects .modern).ne (by decide), hplain.ne (by decide),
    (hadds addingV1 rfl).2⟩

end Instruction

end Chip8
