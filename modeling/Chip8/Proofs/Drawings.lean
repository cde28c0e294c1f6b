/-
  Chip8.Proofs.Drawings

  Many drawings on one screen. The pixels after a list of drawings are those after one run of
  flips, through the places under all the sprites (`Screen.drawAll_eq_foldl`), and of a run of
  flips only the parity counts with which each place comes. So the order of the drawings plays
  no part, and drawings in pairs cancel. A sprite that is cut into two is a run of flips that
  is cut into two, which is why the parts may be drawn one after the other.
-/
import Chip8.Proofs.Sprite
import Mathlib.Algebra.BigOperators.Group.Finset.Lemmas
import Mathlib.Algebra.Group.Nat.Even

namespace Chip8.Screen

/-- A sprite to draw, with the column and the row of its upper left corner. -/
structure Drawing where
  x : Nat
  y : Nat
  sprite : List UInt8
  deriving DecidableEq

/-- Makes a drawing on a screen. -/
def Drawing.on (d : Drawing) (s : Screen) : Drawn :=
  s.draw d.x d.y d.sprite

/-- The same drawing with its corner on the screen. -/
def Drawing.wrapped (d : Drawing) : Drawing :=
  { d with x := d.x % 64, y := d.y % 32 }

/-- The screen after some drawings, one after the other. -/
def drawAll (s : Screen) (drawings : List Drawing) : Screen :=
  drawings.foldl (fun s d => (d.on s).screen) s

/-! ## Runs of flips -/

/-- Screens are the same if their pixels are. -/
theorem ext_isLitAt {s t : Screen} (h : ∀ place, s.isLitAt place = t.isLitAt place) : s = t := by
  cases s with
  | mk p =>
      cases t with
      | mk q =>
          congr 1
          exact Vector.ext fun i hi => h ⟨i, hi⟩

/-- A run of flips does not look at the collisions before it. -/
theorem foldl_flip_eq (places : List (Fin 2048)) (d : Drawn) :
    places.foldl Drawn.flip d =
      ⟨(places.foldl Drawn.flip ⟨d.screen, false⟩).screen,
        d.collided || (places.foldl Drawn.flip ⟨d.screen, false⟩).collided⟩ := by
  induction places generalizing d with
  | nil => simp
  | cons place places ih =>
      rw [List.foldl_cons, List.foldl_cons, ih (d.flip place),
        ih (Drawn.flip ⟨d.screen, false⟩ place)]
      simp only [Drawn.flip, Bool.false_or, Bool.or_assoc]

/-! ## The places of a drawing -/

/-- The places under the set pixels of a drawing. -/
def Drawing.cells (d : Drawing) : List (Fin 2048) :=
  spriteCells d.x d.y (d.sprite.take maxSpriteHeight)

theorem drawAll_eq_foldl (s : Screen) (drawings : List Drawing) :
    s.drawAll drawings =
      ((drawings.flatMap Drawing.cells).foldl Drawn.flip ⟨s, false⟩).screen := by
  induction drawings generalizing s with
  | nil => rfl
  | cons d drawings ih =>
      -- the collisions of the first drawing are dropped
      rw [List.flatMap_cons, List.foldl_append, foldl_flip_eq]
      exact ih (d.on s).screen

/-- After some drawings a pixel is turned over exactly if its place was under an odd number of
    set pixels. -/
theorem isLitAt_drawAll (s : Screen) (drawings : List Drawing) (place : Fin 2048) :
    (s.drawAll drawings).isLitAt place =
      (s.isLitAt place ^^ decide ((drawings.flatMap Drawing.cells).count place % 2 = 1)) := by
  rw [drawAll_eq_foldl, isLitAt_foldl_flip]

/-! ## Order and pairs -/

theorem drawAll_perm (s : Screen) {drawings others : List Drawing} (h : drawings.Perm others) :
    s.drawAll others = s.drawAll drawings := by
  apply ext_isLitAt
  intro place
  have hcount := (h.flatMap_right Drawing.cells).count_eq place
  rw [isLitAt_drawAll, isLitAt_drawAll, hcount]

/-- If each drawing comes an even number of times, so does each place. -/
theorem even_count_cells {drawings : List Drawing}
    (h : ∀ d ∈ drawings, Even (drawings.count d)) (place : Fin 2048) :
    Even ((drawings.flatMap Drawing.cells).count place) := by
  -- summed over the different drawings, each as often as it is in the list
  rw [List.count_flatMap, Finset.sum_list_map_count]
  apply Finset.even_sum
  intro d hd
  exact (h d (List.mem_toFinset.mp hd)).nsmul_left _

theorem drawAll_of_even (s : Screen) {drawings : List Drawing}
    (h : ∀ d ∈ drawings, Even (drawings.count d)) : s.drawAll drawings = s := by
  apply ext_isLitAt
  intro place
  have heven := Nat.even_iff.mp (even_count_cells h place)
  rw [isLitAt_drawAll, heven]
  exact Bool.xor_false _

/-! ## Corners -/

/-- The places under a sprite depend on its corner around the edges only. -/
theorem spriteCells_congr {x x' y y' : Nat} (hx : x % 64 = x' % 64) (hy : y % 32 = y' % 32)
    (rows : List UInt8) : spriteCells x y rows = spriteCells x' y' rows := by
  -- the rows below start one lower on either side, which is the same row around the edge
  induction rows generalizing y y' with
  | nil => rfl
  | cons bits rows ih =>
      have hcell : ∀ column, cell (x + column) y = cell (x' + column) y' := by
        intro column
        have hcolumn : (x + column) % 64 = (x' + column) % 64 := by omega
        apply Fin.ext
        rw [val_cell, val_cell, hcolumn, hy]
      have hrows : (y + 1) % 32 = (y' + 1) % 32 := by omega
      simp only [spriteCells, hcell, ih hrows]

theorem on_wrapped (d : Drawing) (s : Screen) : d.wrapped.on s = d.on s := by
  have hcells := spriteCells_congr (Nat.mod_mod d.x 64) (Nat.mod_mod d.y 32)
    (d.sprite.take maxSpriteHeight)
  simp only [Drawing.on, Drawing.wrapped, draw, hcells]

/-! ## Cutting a sprite -/

theorem spriteCells_append (x y : Nat) (first second : List UInt8) :
    spriteCells x y (first ++ second) =
      spriteCells x y first ++ spriteCells x (y + first.length) second := by
  induction first generalizing y with
  | nil => rfl
  | cons bits first ih =>
      have hrow : y + 1 + first.length = y + (bits :: first).length := by
        rw [List.length_cons]
        omega
      rw [List.cons_append, spriteCells, ih, spriteCells, List.append_assoc, hrow]

/-- A sprite that is not too high may be drawn in two parts, the second below the first. -/
theorem draw_append (s : Screen) (x y : Nat) {first second : List UInt8}
    (h : first.length + second.length ≤ 15) :
    let upper := s.draw x y first
    let lower := upper.screen.draw x (y + first.length) second
    s.draw x y (first ++ second) = ⟨lower.screen, upper.collided || lower.collided⟩ := by
  intro upper lower
  have hwhole : (first ++ second).take maxSpriteHeight = first ++ second :=
    List.take_of_length_le (by rw [List.length_append]; exact h)
  have hfirst : first.take maxSpriteHeight = first :=
    List.take_of_length_le (by rw [maxSpriteHeight]; omega)
  have hsecond : second.take maxSpriteHeight = second :=
    List.take_of_length_le (by rw [maxSpriteHeight]; omega)
  rw [draw, hwhole, spriteCells_append, List.foldl_append, foldl_flip_eq]
  simp only [lower, upper, draw, hfirst, hsecond]

/-! ## The laws -/

/-- The laws of drawing. The order of drawings does not matter for the pixels; drawings that
    come in pairs leave the screen as it was; a drawing depends on its corner around the edges
    only; and a sprite that is not too high can be drawn in two parts, the second below the
    first, with a collision exactly if one of the parts collides. -/
theorem drawing_laws (s : Screen) :
    (∀ drawings others : List Drawing, drawings.Perm others →
      s.drawAll others = s.drawAll drawings) ∧
    (∀ drawings : List Drawing, (∀ d ∈ drawings, Even (drawings.count d)) →
      s.drawAll drawings = s) ∧
    (∀ d : Drawing, d.wrapped.on s = d.on s) ∧
    (∀ (x y : Nat) (first second : List UInt8), first.length + second.length ≤ 15 →
      let whole := s.draw x y (first ++ second)
      let upper := s.draw x y first
      let lower := upper.screen.draw x (y + first.length) second
      whole.screen = lower.screen ∧
        (whole.collided = true ↔ upper.collided = true ∨ lower.collided = true)) := by
  refine ⟨fun _ _ h => s.drawAll_perm h, fun _ h => s.drawAll_of_even h,
    fun d => on_wrapped d s, ?_⟩
  intro x y first second h whole upper lower
  have hwhole : whole = ⟨lower.screen, upper.collided || lower.collided⟩ :=
    s.draw_append x y h
  rw [hwhole]
  exact ⟨rfl, Bool.or_eq_true_iff⟩

/-- Two sprites that overlap at the lower right corner: in either order they leave the same
    pixels, and both drawn twice they leave none. Of the first, the upper row may be drawn
    before the lower one. -/
theorem drawing_laws_corner :
    let a : Drawing := ⟨62, 31, [0xF0, 0x80]⟩
    let b : Drawing := ⟨127, 63, [0xFF]⟩
    ([a, b].Perm [b, a] ∧ (∀ d ∈ [a, b, a, b], Even ([a, b, a, b].count d)) ∧
      [(0xF0 : UInt8)].length + [(0x80 : UInt8)].length ≤ 15) ∧
    blank.drawAll [b, a] = blank.drawAll [a, b] ∧ blank.drawAll [a, b, a, b] = blank ∧
    ((blank.draw 62 31 [0xF0]).screen.draw 62 32 [0x80]).screen =
      (blank.draw 62 31 [0xF0, 0x80]).screen := by
  intro a b
  have hperm : [a, b].Perm [b, a] := List.Perm.swap b a []
  have heven : ∀ d ∈ [a, b, a, b], Even ([a, b, a, b].count d) := by decide
  have hlength : [(0xF0 : UInt8)].length + [(0x80 : UInt8)].length ≤ 15 := by decide
  obtain ⟨horder, hpairs, -, hcut⟩ := drawing_laws blank
  exact ⟨⟨hperm, heven, hlength⟩, horder _ _ hperm, hpairs _ heven,
    (hcut 62 31 [0xF0] [0x80] hlength).1.symm⟩

end Chip8.Screen
