/-
  Chip8.Proofs.Picture

  A screen seen from four sides: the pixels as they stand one behind the other, the question for
  a single pixel, the number of lit pixels, and the text. All four show the same picture
  (`Screen.views_show_one_picture`). The text falls apart into its lines at the line ends
  (`Screen.splitOn_text`), and each character of a line is the answer for one pixel, so that the
  text determines the pixels. The rows that the text is made of are the pixels again when they are
  put one behind the other (`Screen.toList_pixels`), so that it has a `#` for each lit one.
-/
import Chip8.Proofs.ScreenText
import Chip8.Proofs.Sprite

namespace Chip8.Screen

/-! ## Single pixels -/

/-- The pixel in column `x` and row `y` comes after `y` rows and `x` more pixels. -/
theorem getElem?_pixels (s : Screen) {x y : Nat} (hx : x < 64) (hy : y < 32) :
    s.pixels[x + 64 * y]? = some (s.isLit x y) := by
  have hcell : (cell x y).val = x + 64 * y := by
    rw [val_cell]
    omega
  rw [s.isLit_of_inside ⟨hx, hy⟩, Fin.getElem_fin, ← Vector.getElem?_eq_getElem, hcell]

theorem isLit_outside (s : Screen) {x y : Nat} (h : 64 ≤ x ∨ 32 ≤ y) : s.isLit x y = false :=
  s.isLit_of_outside (by omega)

/-- Pixels are the same if the answers for all of them are. -/
theorem pixels_eq_of_isLit {s t : Screen}
    (h : ∀ x y, x < 64 → y < 32 → s.isLit x y = t.isLit x y) : s.pixels = t.pixels := by
  apply Vector.ext
  intro i hi
  have hcolumn : i % 64 < 64 := Nat.mod_lt i (by decide)
  have hrow : i / 64 < 32 := by omega
  have hs := s.getElem?_pixels hcolumn hrow
  have ht := t.getElem?_pixels hcolumn hrow
  rw [Nat.mod_add_div, Vector.getElem?_eq_getElem hi, Option.some_inj] at hs ht
  rw [hs, ht, h _ _ hcolumn hrow]

/-! ## Rows -/

/-- The numbers below a product, in blocks of one length. -/
theorem range_mul (count size : Nat) :
    List.range (count * size) =
      (List.range count).flatMap fun y => (List.range size).map fun x => y * size + x := by
  induction count with
  | zero => rw [Nat.zero_mul]; rfl
  | succ count ih =>
      rw [Nat.succ_mul, List.range_add, ih, List.range_succ, List.flatMap_append,
        List.flatMap_singleton]

/-- The rows of a screen, one behind the other, are its pixels. -/
theorem toList_pixels (s : Screen) : s.pixels.toList = (List.range 32).flatMap s.row := by
  -- the place of a pixel tells its column and its row
  have hpixels : s.pixels.toList =
      (List.range (32 * 64)).map fun i => s.isLit (i % 64) (i / 64) := by
    apply List.ext_getElem
    · rw [Vector.length_toList, List.length_map, List.length_range]
    · intro i hi _
      have hlt : i < 2048 := s.pixels.length_toList ▸ hi
      have hpixel := s.getElem?_pixels (Nat.mod_lt i (show 64 > 0 by decide))
        (show i / 64 < 32 by omega)
      rw [Nat.mod_add_div, Vector.getElem?_eq_getElem hlt, Option.some_inj] at hpixel
      rw [List.getElem_map, List.getElem_range, Vector.getElem_toList, hpixel]
  -- cut into rows, the places go through the columns of one row after the other
  rw [hpixels, range_mul, List.map_flatMap, List.flatMap_def, List.flatMap_def]
  apply congrArg List.flatten
  apply List.map_congr_left
  intro y hy
  rw [s.row_eq_map_isLit (List.mem_range.mp hy), List.map_map]
  apply List.map_congr_left
  intro x hx
  have hlt := List.mem_range.mp hx
  have hcolumn : (y * 64 + x) % 64 = x := by omega
  have hrow : (y * 64 + x) / 64 = y := by omega
  rw [Function.comp_apply, hcolumn, hrow]

/-! ## Lines -/

theorem length_lines (s : Screen) : s.lines.length = 32 := by
  rw [lines, List.length_map, List.length_range]

theorem length_of_mem_lines {s : Screen} {line : String} (h : line ∈ s.lines) :
    line.length = 64 := by
  obtain ⟨y, -, rfl⟩ := List.mem_map.mp h
  rw [String.length_ofList, List.length_map, List.length_range]

/-- The character in column `x` of line `y`. -/
theorem char_lines (s : Screen) {x y : Nat} (hx : x < 64) (hy : y < 32) :
    (s.lines[y]?.bind fun line => line.toList[x]?) = some (if s.isLit x y then '#' else '.') := by
  simp only [lines, List.getElem?_map, List.getElem?_range hy, List.getElem?_range hx,
    Option.map_some, Option.bind_some, String.toList_ofList]

/-- Two pixels with one character are both lit or both dark. -/
theorem mark_injective :
    ∀ lit other : Bool, (if lit then '#' else '.') = (if other then '#' else '.') → lit = other := by
  decide

/-- There is no line end inside a line. -/
theorem newline_not_mem_lines {s : Screen} {line : String} (h : line ∈ s.lines) :
    '\n' ∉ line.toList := by
  obtain ⟨y, -, rfl⟩ := List.mem_map.mp h
  rw [String.toList_ofList]
  intro hnewline
  obtain ⟨x, -, hmark⟩ := List.mem_map.mp hnewline
  split at hmark
  · exact absurd hmark (by decide)
  · exact absurd hmark (by decide)

/-- Lines that are ended are read again by cutting at the line ends. -/
theorem splitOn_ended {lines : List (List Char)} (h : ∀ line ∈ lines, '\n' ∉ line) :
    (lines.flatMap (· ++ ['\n'])).splitOn '\n' = lines ++ [[]] := by
  induction lines with
  | nil => rfl
  | cons line lines ih =>
      obtain ⟨hline, hlines⟩ := List.forall_mem_cons.mp h
      rw [List.flatMap_cons, List.append_assoc, List.singleton_append,
        List.splitOn_append_cons_self_of_not_mem hline, ih hlines, List.cons_append]

theorem splitOn_text (s : Screen) :
    s.text.toList.splitOn '\n' = s.lines.map String.toList ++ [[]] := by
  have hended : s.text.toList = (s.lines.map String.toList).flatMap (· ++ ['\n']) := by
    rw [text_eq_join_lines, String.toList_join, List.flatMap_map, List.flatMap_map]
    simp only [String.toList_append]
    rfl
  rw [hended]
  apply splitOn_ended
  intro line hline
  obtain ⟨line, hmem, rfl⟩ := List.mem_map.mp hline
  exact newline_not_mem_lines hmem

/-! ## The text -/

/-- In the text of a row there is a `#` for each lit pixel. -/
theorem count_row (row : List Bool) :
    ((row.map fun lit => if lit then '#' else '.') ++ ['\n']).count '#' = row.countP id := by
  induction row with
  | nil => rfl
  | cons lit row ih =>
      rw [List.map_cons, List.cons_append, List.count_cons, ih, List.countP_cons]
      cases lit with
      | _ => rfl

theorem count_text (s : Screen) : s.text.toList.count '#' = s.litCount := by
  -- both are sums over the rows
  rw [text, String.toList_ofList, litCount, toList_pixels, List.count_flatMap,
    List.countP_flatMap]
  apply congrArg List.sum
  apply List.map_congr_left
  intro y _
  exact count_row (s.row y)

/-- The text determines the pixels. -/
theorem text_eq_iff (s t : Screen) : s.text = t.text ↔ s.pixels = t.pixels := by
  constructor
  · intro htext
    -- what stands between the line ends is the same, so the lines are
    have hlines : s.lines = t.lines := by
      have hcut := s.splitOn_text
      rw [htext, splitOn_text, List.append_left_inj] at hcut
      exact ((List.map_inj_right fun _ _ h => String.toList_injective h).mp hcut).symm
    apply pixels_eq_of_isLit
    intro x y hx hy
    have hmark := s.char_lines hx hy
    rw [hlines, t.char_lines hx hy, Option.some_inj] at hmark
    exact (mark_injective _ _ hmark).symm
  · intro hpixels
    obtain ⟨pixels⟩ := s
    exact congrArg (fun pixels => text ⟨pixels⟩) hpixels

/-- All views of a screen show one picture. The text has 32 lines of 64 characters, each line
    ended, with a `#` for a lit pixel and a `.` for a dark one, so that screens have the same text
    exactly if they have the same pixels, and there are as many `#` as lit pixels. Pixel by pixel
    the answers are those of the row of pixels, and outside the screen no pixel is lit. -/
theorem views_show_one_picture (s : Screen) :
    (s.text = String.join (s.lines.map (· ++ "\n")) ∧
      s.lines.length = 32 ∧ (∀ line ∈ s.lines, line.length = 64) ∧
      ∀ x y, x < 64 → y < 32 →
        (s.lines[y]?.bind fun line => line.toList[x]?) =
          some (if s.isLit x y then '#' else '.')) ∧
    (∀ t : Screen, s.text = t.text ↔ s.pixels = t.pixels) ∧
    s.text.toList.count '#' = s.litCount ∧
    (∀ x y, x < 64 → y < 32 → s.pixels[x + 64 * y]? = some (s.isLit x y)) ∧
    ∀ x y, 64 ≤ x ∨ 32 ≤ y → s.isLit x y = false := by
  refine ⟨⟨s.text_eq_join_lines, s.length_lines, ?_, ?_⟩, s.text_eq_iff, s.count_text, ?_, ?_⟩
  · intro line hline
    exact length_of_mem_lines hline
  · intro x y hx hy
    exact s.char_lines hx hy
  · intro x y hx hy
    exact s.getElem?_pixels hx hy
  · intro x y houtside
    exact s.isLit_outside houtside

/-- A sprite at the lower right corner comes in again at the left edge: its third pixel is the
    first of the last line, and the column after the last one is dark. -/
theorem views_show_one_picture_corner :
    let s := (blank.draw 62 31 [0xF0, 0x80]).screen
    (0 < 64 ∧ 31 < 32 ∧ (64 ≤ 64 ∨ 32 ≤ 31)) ∧
    (s.lines[31]?.bind fun line => line.toList[0]?) = some '#' ∧
    s.pixels[0 + 64 * 31]? = some true ∧ s.isLit 64 31 = false := by
  intro s
  obtain ⟨⟨-, -, -, hchars⟩, -, -, hpixels, houtside⟩ := views_show_one_picture s
  have hcolumn : 0 < 64 := by decide
  have hrow : 31 < 32 := by decide
  have hoff : 64 ≤ 64 ∨ 32 ≤ 31 := by decide
  have hlit : s.isLit 0 31 = true := by
    rw [isLit_draw, if_pos (by decide)]
    simp [isLit, blank]
  refine ⟨⟨hcolumn, hrow, hoff⟩, ?_, ?_, houtside 64 31 hoff⟩
  · rw [hchars 0 31 hcolumn hrow, hlit]
    rfl
  · rw [hpixels 0 31 hcolumn hrow, hlit]

end Chip8.Screen
