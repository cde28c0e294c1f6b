/-
  Chip8.Proofs.ScreenText

  The text of a screen, line by line: 32 lines of 64 characters, each of which tells whether
  one pixel is lit.
-/
import Chip8.Screen

namespace Chip8.Screen

/-- The lines of a screen as text, from the top: a character for each pixel from the left, `#`
    for a lit one and `.` for a dark one. -/
def lines (s : Screen) : List String :=
  (List.range 32).map fun row =>
    String.ofList ((List.range 64).map fun column => if s.isLit column row then '#' else '.')

theorem row_eq_map_isLit (s : Screen) {y : Nat} (h : y < 32) :
    s.row y = (List.range 64).map fun x => s.isLit x y := by
  apply List.map_congr_left
  intro x hx
  exact (s.isLit_of_inside ⟨List.mem_range.mp hx, h⟩).symm

/-- The text of a screen is its lines, each ended. -/
theorem text_eq_join_lines (s : Screen) : s.text = String.join (s.lines.map (· ++ "\n")) := by
  apply String.toList_injective
  rw [text, String.toList_ofList, String.toList_join, lines, List.map_map, List.flatMap_map,
    List.flatMap_def, List.flatMap_def]
  apply congrArg List.flatten
  apply List.map_congr_left
  intro y hy
  rw [s.row_eq_map_isLit (List.mem_range.mp hy), List.map_map, Function.comp_apply,
    String.toList_append, String.toList_ofList]
  rfl

end Chip8.Screen
