/-
  Chip8.Proofs.Glyphs

  The built-in font, and its glyphs on the screen. The font lies below the programs, so that
  no load reaches it, and a reset puts it back; only a word that stores bytes can write over it
  (`Machine.call_hasFont`). So a machine has its font as long as no word has done this since it
  was switched on or reset (`Machine.afterCalls_hasFont`). While it has its font, FX29 and DXYN
  one after the other draw the glyph of a digit: the index leads to the five bytes of the glyph
  (`Machine.bytesAtIndex_glyph`), and what a drawing does with them is known pixel by pixel.
-/
import Chip8.Proofs.RangeAccess
import Chip8.Proofs.Reset
import Chip8.Proofs.RoundTrip
import Chip8.Proofs.Sprite
import Chip8.Proofs.Transfer
import Mathlib.Data.List.Induction

namespace Chip8

open RandomStream (Generator)

/-- The rows of the glyph of a digit, from the top. -/
def Font.glyph (digit : Fin 16) : List UInt8 :=
  (Font.bytes.toList.drop (5 * digit)).take 5

/-- Whether a call is a reset. -/
def HostCall.Resets : HostCall → Prop
  | .reset _ => True
  | _ => False

namespace Machine

/-- The bytes of the font are where they were when the machine was switched on. -/
def HasFont (m : Machine) : Prop :=
  ∀ i < 80, m.memory.bytes[0x50 + i]? = Font.bytes.toList[i]?

/-- Whether a call executes a word that writes a byte of the font. -/
def WritesFont (m : Machine) (call : HostCall) : Prop :=
  ∃ address, 0x50 ≤ address ∧ address < 0xA0 ∧ m.Writes call address

/-- Whether some of a list of calls writes a byte of the font, and no reset comes after it. -/
def FontOverwritten (m : Machine) (calls : List HostCall) : Prop :=
  ∃ before call later, calls = before ++ call :: later ∧ (∀ c ∈ later, ¬ c.Resets) ∧
    (m.afterCalls before).WritesFont call

/-! ## The font in memory -/

variable {m : Machine}

/-- What does not touch the bytes below the programs keeps the font. -/
theorem HasFont.of_low {n : Machine} (h : m.HasFont)
    (hlow : ∀ address < 0x200, n.memory.bytes[address]? = m.memory.bytes[address]?) :
    n.HasFont := by
  intro i hi
  rw [hlow (0x50 + i) (by omega)]
  exact h i hi

theorem initial_hasFont (random : Generator) : (initial random).HasFont := by
  intro i hi
  have hlength : Font.bytes.toList.length = 80 := Vector.length_toList
  have hfit : Font.base + Font.bytes.toList.length ≤ 4096 := by
    rw [hlength]
    decide
  have hbyte := (⟨Vector.replicate 4096 0⟩ : Memory).getElem?_store_add hfit i
  rw [List.getElem?_eq_getElem (by omega), Option.some_or] at hbyte
  rw [List.getElem?_eq_getElem (by omega)]
  exact hbyte

theorem loadFile?_hasFont (h : m.HasFont) (files : FileSystem) (path? : Option String) :
    (m.loadFile? files path?).machine.HasFont :=
  h.of_low (m.loadFile?_sameButProgram files path?).low

theorem boot_hasFont (files : FileSystem) (path? : Option String) (random : Generator) :
    (boot files path? random).machine.HasFont :=
  loadFile?_hasFont (initial_hasFont random) files path?

/-- A reset puts the font back, also if the program cannot be loaded again. -/
theorem reset_hasFont (m : Machine) (files : FileSystem) : (m.reset files).machine.HasFont := by
  have hpower : m.powerOn.HasFont := initial_hasFont m.random
  rw [(m.reset_loads files).2]
  exact loadFile?_hasFont hpower files m.source

/-- A call that does not write into the font keeps it. -/
theorem call_hasFont (h : m.HasFont) {call : HostCall} (hcall : ¬ m.WritesFont call) :
    (m.call call).machine.HasFont := by
  by_cases hloads : call.Loads
  · cases call with
    | loadProgram program => exact h.of_low (m.afterLoads_sameButProgram [.bytes program]).low
    | loadFile files path => exact h.of_low (m.afterLoads_sameButProgram [.file files path]).low
    | reset files => exact m.reset_hasFont files
    | _ => exact absurd hloads id
  · intro i hi
    have hnot : ¬ m.Writes call (0x50 + i) := by
      intro hwrites
      exact hcall ⟨0x50 + i, by omega, by omega, hwrites⟩
    rw [getElem?_call hloads hnot]
    exact h i hi

theorem not_resets_of_writesFont {call : HostCall} (h : m.WritesFont call) : ¬ call.Resets := by
  intro hreset
  obtain ⟨_, -, -, w, hw, -⟩ := h
  cases call with
  | reset files =>
      rw [executed?_of_not_attempted rfl] at hw
      cases hw
  | _ => exact hreset

/-- With one more call, the font is overwritten if it was or if this call writes into it, unless
    it is a reset. -/
theorem fontOverwritten_concat (m : Machine) (calls : List HostCall) (call : HostCall) :
    m.FontOverwritten (calls ++ [call]) ↔
      ¬ call.Resets ∧ (m.FontOverwritten calls ∨ (m.afterCalls calls).WritesFont call) := by
  constructor
  · rintro ⟨before, writing, later, heq, hlater, hwrites⟩
    rcases List.eq_nil_or_concat' later with rfl | ⟨others, last, rfl⟩
    · -- the call that writes is the last one
      obtain ⟨rfl, hlast⟩ := List.append_inj' heq rfl
      obtain rfl := List.head_eq_of_cons_eq hlast
      exact ⟨not_resets_of_writesFont hwrites, Or.inr hwrites⟩
    · rw [← List.cons_append, ← List.append_assoc] at heq
      obtain ⟨rfl, hlast⟩ := List.append_inj' heq rfl
      obtain rfl := List.head_eq_of_cons_eq hlast
      rw [List.forall_mem_append] at hlater
      exact ⟨hlater.2 call (List.mem_singleton_self call),
        Or.inl ⟨before, writing, others, rfl, hlater.1, hwrites⟩⟩
  · rintro ⟨hreset, ⟨before, writing, later, rfl, hlater, hwrites⟩ | hwrites⟩
    · refine ⟨before, writing, later ++ [call], by rw [List.append_assoc, List.cons_append], ?_,
        hwrites⟩
      rw [List.forall_mem_append]
      exact ⟨hlater, fun c hc => by rwa [List.mem_singleton.mp hc]⟩
    · exact ⟨calls, call, [], rfl, fun c hc => (List.not_mem_nil hc).elim, hwrites⟩

/-- The font stays as long as no word has written into it since the last reset. -/
theorem afterCalls_hasFont (h : m.HasFont) {calls : List HostCall}
    (hcalls : ¬ m.FontOverwritten calls) : (m.afterCalls calls).HasFont := by
  -- from the last call backwards, since a reset makes good what was before it
  induction calls using List.reverseRecOn with
  | nil => exact h
  | append_singleton calls call ih =>
      rw [afterCalls_append, afterCalls_cons]
      rw [fontOverwritten_concat, not_and_or, not_not, not_or] at hcalls
      rcases hcalls with hreset | ⟨hbefore, hlast⟩
      · cases call with
        | reset files => exact (m.afterCalls calls).reset_hasFont files
        | _ => exact absurd hreset id
      · exact call_hasFont (ih hbefore) hlast

theorem readRange_font (h : m.HasFont) :
    m.memory.readRange 0x50 80 = .ok Font.bytes.toList := by
  have hfit : 0x50 + 80 ≤ 4096 := by decide
  have hlength : Font.bytes.toList.length = 80 := Vector.length_toList
  rw [m.memory.readRange_of_le hfit]
  refine congrArg Except.ok (List.ext_getElem? fun i => ?_)
  by_cases hi : i < 80
  · rw [m.memory.getElem?_slice 0x50 80 hfit i hi, ← h i hi, Vector.getElem?_eq_getElem]
  · have hpast := Nat.not_lt.mp hi
    rw [List.getElem?_eq_none (by rwa [Memory.length_slice]),
      List.getElem?_eq_none (by rwa [hlength])]

/-! ## A glyph at the index -/

/-- If the index is at the glyph of a digit, the bytes there are the rows of the glyph. -/
theorem bytesAtIndex_glyph (h : m.HasFont) (digit : Fin 16) {rows : Nat} (hrows : rows ≤ 5)
    (hindex : m.registers.index.toNat = 0x50 + 5 * digit) :
    m.bytesAtIndex rows = (Font.glyph digit).take rows := by
  have hdigit := digit.isLt
  have hfit : m.registers.index.toNat + rows ≤ 4096 := by omega
  refine List.ext_getElem? fun j => ?_
  by_cases hj : j < rows
  · have hplace : m.registers.index.toNat + j = 0x50 + (5 * digit + j) := by omega
    rw [getElem?_bytesAtIndex hfit hj, hplace, h _ (by omega), List.getElem?_take_of_lt hj,
      Font.glyph, List.getElem?_take_of_lt (by omega), List.getElem?_drop]
  · have hpast := Nat.not_lt.mp hj
    rw [List.getElem?_eq_none ((m.length_bytesAtIndex_le rows).trans hpast),
      List.getElem?_eq_none (by rw [List.length_take]; omega)]

/-- Whether `n` has the index at the glyph of the low digit of `V r`, and the byte registers, the
    memory and the screen of `m`. -/
structure FoundGlyph (m n : Machine) (r : Fin 16) : Prop where
  index : n.registers.index.toNat = 0x50 + 5 * ((m.registers.get r).toNat % 16)
  get : ∀ x, n.registers.get x = m.registers.get x
  memory : n.memory = m.memory
  screen : n.screen = m.screen

/-- FX29 puts the index at the glyph of the low digit of VX. -/
theorem execute_fontGlyph (m : Machine) (r : Fin 16) :
    let found := m.execute (.ofByte 0xF r 0x29)
    found.result = .ok () ∧ m.FoundGlyph found.machine r := by
  intro found
  have hdecode : Instruction.decode (.ofByte 0xF r 0x29) = .fontGlyph r :=
    Instruction.decode_encode (i := .fontGlyph r) trivial
  have hfound : found = _ := execute_of_decode hdecode rfl
  rw [hfound]
  refine ⟨rfl, ?_, fun _ => rfl, rfl, rfl⟩
  -- the glyphs are below 4096, so the index takes their addresses as they are
  show UInt16.toNat (Word.address (Font.glyphAddress (lowDigit (m.registers.get r))).toUInt16) = _
  have hlow := (lowDigit (m.registers.get r)).isLt
  have haddress : Font.glyphAddress (lowDigit (m.registers.get r)) =
      0x50 + (m.registers.get r).toNat % 16 * 5 := rfl
  rw [Word.toNat_address, Nat.toUInt16, UInt16.toNat_ofNat', haddress]
  omega

/-- DXYN draws the bytes at the index, if they all exist, and puts the collision into VF. -/
theorem execute_draw (m : Machine) (x y rows : Fin 16)
    (hfit : m.registers.index.toNat + rows ≤ 4096) :
    let drawn := m.execute (.ofDigits 0xD x y rows)
    let picture := m.screen.draw (m.registers.get x).toNat (m.registers.get y).toNat
      (m.bytesAtIndex rows)
    drawn.result = .ok () ∧ drawn.machine.screen = picture.screen ∧
      drawn.machine.registers.get 0xF = picture.collided.toUInt8 ∧
      drawn.machine.registers.index = m.registers.index := by
  intro drawn picture
  have hdecode : Instruction.decode (.ofDigits 0xD x y rows) = .draw x y rows :=
    Instruction.decode_encode (i := .draw x y rows) trivial
  have hobstacle : (Instruction.draw x y rows).obstacle? m = m.rangeObstacle? rows := rfl
  obtain ⟨hiff, hmachine⟩ := execute_window hdecode hobstacle
  have hok := hiff.mpr hfit
  refine ⟨hok, ?_, ?_, ?_⟩
  · rw [hmachine hok]
    rfl
  · rw [hmachine hok]
    exact m.registers.get_set 0xF 0xF picture.collided.toUInt8
  · rw [hmachine hok]
    rfl

end Machine

/-! ## A glyph on the screen -/

/-- The points under a sprite depend on its corner around the edges only. -/
theorem Screen.spritePoints_mod (x y : Nat) (sprite : List UInt8) :
    spritePoints (x % 64) (y % 32) sprite = spritePoints x y sprite := by
  simp only [spritePoints, Nat.mod_add_mod]

namespace Machine

/-- The points under the first `rows` rows of the glyph of the low digit of `V r`, with its
    corner at column `V x` and row `V y`, both around the edges. -/
def glyphPoints (m : Machine) (r x y rows : Fin 16) : Finset (Nat × Nat) :=
  Screen.spritePoints ((m.registers.get x).toNat % 64) ((m.registers.get y).toNat % 32)
    ((Font.glyph (lowDigit (m.registers.get r))).take rows)

/-- What there is to see in `n` after `m` has drawn the first `rows` rows of the glyph of the low
    digit of `V r` at column `V x` and row `V y`. -/
structure DrewGlyph (m n : Machine) (r x y rows : Fin 16) : Prop where
  index : n.registers.index.toNat = 0x50 + 5 * ((m.registers.get r).toNat % 16)
  pixels : ∀ column row, n.screen.isLit column row =
    if (column, row) ∈ m.glyphPoints r x y rows then !m.screen.isLit column row
    else m.screen.isLit column row
  flag : n.registers.get 0xF =
    if ∃ p ∈ m.glyphPoints r x y rows, m.screen.isLit p.1 p.2 = true then 1 else 0

variable {m : Machine}

/-- A machine with its font draws the glyph of a digit by FX29 and DXYN. -/
theorem execute_glyph (h : m.HasFont) (r x y : Fin 16) {rows : Fin 16} (hrows : rows.val ≤ 5) :
    let found := m.execute (.ofByte 0xF r 0x29)
    let drawn := found.machine.execute (.ofDigits 0xD x y rows)
    found.result = .ok () ∧ drawn.result = .ok () ∧ m.DrewGlyph drawn.machine r x y rows := by
  intro found drawn
  obtain ⟨hfound, hglyph⟩ : found.result = .ok () ∧ m.FoundGlyph found.machine r :=
    m.execute_fontGlyph r
  have hindex := hglyph.index
  have hfont : found.machine.HasFont := by
    intro i hi
    rw [hglyph.memory]
    exact h i hi
  have hfit : found.machine.registers.index.toNat + rows ≤ 4096 := by omega
  obtain ⟨hdrawn, hpixels, hflag, hkept⟩ := found.machine.execute_draw x y rows hfit
  -- the sprite at the index is the glyph, and the registers and the screen are those of `m`
  rw [bytesAtIndex_glyph hfont (lowDigit (m.registers.get r)) hrows hindex,
    hglyph.screen, hglyph.get, hglyph.get] at hpixels hflag
  have hpoints := Screen.spritePoints_mod (m.registers.get x).toNat (m.registers.get y).toNat
    ((Font.glyph (lowDigit (m.registers.get r))).take rows)
  refine ⟨hfound, hdrawn, ?_, ?_, ?_⟩
  · rw [hkept]
    exact hindex
  · intro column row
    rw [hpixels, Screen.isLit_draw, glyphPoints, hpoints]
  · rw [hflag, glyphPoints, hpoints]
    simp only [← Screen.collided_draw_iff]
    cases (m.screen.draw _ _ _).collided with
    | false => rfl
    | true => rfl

/-- Take any calls since a machine was switched on. If none of them executed a word that wrote
    into 0x50 to 0x9F, or none since the last reset, then the font is there. Then FX29 and DXYN
    with at most five rows, executed one after the other, both succeed: they put the index at
    the glyph of the low digit of the first register, flip the pixels under these rows of the
    glyph and no others, around the edges of the screen, and tell in VF whether one of the
    pixels was lit. -/
theorem glyphs_are_drawn (files : FileSystem) (path? : Option String) (random : Generator)
    (calls : List HostCall)
    (h : ¬ (boot files path? random).machine.FontOverwritten calls) :
    let m := (boot files path? random).machine.afterCalls calls
    m.memory.readRange 0x50 80 = .ok Font.bytes.toList ∧
    ∀ r x y rows : Fin 16, rows.val ≤ 5 →
      let found := m.execute (.ofByte 0xF r 0x29)
      let drawn := found.machine.execute (.ofDigits 0xD x y rows)
      found.result = .ok () ∧ drawn.result = .ok () ∧ m.DrewGlyph drawn.machine r x y rows := by
  intro m
  have hfont : m.HasFont := afterCalls_hasFont (boot_hasFont files path? random) h
  exact ⟨readRange_font hfont, fun r x y rows hrows => execute_glyph hfont r x y hrows⟩

/-- Calls that write over the first byte of the font, reset the machine and set VA. -/
def resetAfterOverwriting : List HostCall :=
  [.execute 0xA050, .execute 0xF055, .reset fun _ => .error .missing, .execute 0x6A1B]

/-- Before the reset the font is overwritten. After it a B is drawn for the 0x1B in VA, with VF,
    which is still zero, as its column. -/
theorem glyphs_are_drawn_afterReset :
    let start := (boot (fun _ => .error .missing) none (.ofSeed 0)).machine
    let m := start.afterCalls resetAfterOverwriting
    let drawn := (m.execute (.ofByte 0xF 0xA 0x29)).machine.execute (.ofDigits 0xD 0xF 0x0 0x5)
    (start.FontOverwritten (resetAfterOverwriting.take 2) ∧
      ¬ start.FontOverwritten resetAfterOverwriting) ∧
    drawn.result = .ok () ∧ drawn.machine.registers.index.toNat = 0x50 + 5 * 0xB ∧
    drawn.machine.screen.isLit 0 0 = true ∧ drawn.machine.screen.isLit 3 0 = false := by
  intro start m drawn
  have hoverwritten : start.FontOverwritten (resetAfterOverwriting.take 2) := by
    refine (fontOverwritten_concat start [.execute 0xA050] (.execute 0xF055)).mpr ⟨id, Or.inr ?_⟩
    exact ⟨0x50, le_refl _, by decide, 0xF055, rfl, .stored rfl rfl (le_refl _) (le_refl _)⟩
  have hkept : ¬ start.FontOverwritten resetAfterOverwriting := by
    intro hlast
    have hreset := ((fontOverwritten_concat start
      [.execute 0xA050, .execute 0xF055, .reset fun _ => .error .missing]
      (.execute 0x6A1B)).mp hlast).2
    rcases hreset with hbefore | ⟨address, -, -, hwrites⟩
    · exact ((fontOverwritten_concat start [.execute 0xA050, .execute 0xF055] _).mp hbefore).1
        trivial
    · exact not_writes_of_family (by rintro w ⟨⟩; decide) hwrites
  obtain ⟨-, hdraws⟩ := glyphs_are_drawn (fun _ => .error .missing) none (.ofSeed 0) _ hkept
  obtain ⟨-, hok, hdrew⟩ := hdraws 0xA 0xF 0x0 0x5 (by decide)
  have hVA : m.registers.get 0xA = 0x1B := rfl
  have hVF : m.registers.get 0xF = 0 := rfl
  have hV0 : m.registers.get 0x0 = 0 := rfl
  have hscreen : m.screen = .blank := rfl
  have hpoints : m.glyphPoints 0xA 0xF 0x0 0x5 =
      Screen.spritePoints 0 0 ((Font.glyph 0xB).take 5) := by
    rw [glyphPoints, hVA, hVF, hV0]
    rfl
  refine ⟨⟨hoverwritten, hkept⟩, hok, ?_, ?_, ?_⟩
  · rw [hdrew.index, hVA]
    rfl
  · rw [hdrew.pixels 0 0, hpoints, if_pos (by decide), hscreen]
    rfl
  · rw [hdrew.pixels 3 0, hpoints, if_neg (by decide), hscreen]
    rfl

end Machine

end Chip8
