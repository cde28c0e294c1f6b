/-
  Chip8.Proofs.Sprite

  Drawing, pixel by pixel. A drawing flips the places under a sprite one after the other, and
  a pixel ends up turned over exactly if its place came an odd number of times
  (`Screen.isLitAt_foldl_flip`). No place comes twice in one sprite, since a row has eight
  columns and there are at most fifteen rows, less than it takes to go around the screen
  (`Screen.nodup_spriteCells`). So the order of the flips plays no part: the pixels, the
  collision and the number of lit pixels are told by the set of points under the sprite and
  the screen as it was before the drawing (`Screen.draw_flips_points`).
-/
import Chip8.Screen
import Mathlib.Data.Finset.Card
import Mathlib.Data.Finset.Prod
import Mathlib.Data.List.Nodup

namespace Chip8.Screen

/-! ## Flips one after the other -/

/-- Whether the pixel at a place is lit. -/
def isLitAt (s : Screen) (place : Fin 2048) : Bool :=
  s.pixels.get place

theorem isLitAt_flip (d : Drawn) (place other : Fin 2048) :
    (d.flip place).screen.isLitAt other =
      if place = other then !d.screen.isLitAt other else d.screen.isLitAt other :=
  getElem_flip d place other

theorem decide_succ_odd (n : Nat) : decide ((n + 1) % 2 = 1) = !decide (n % 2 = 1) := by
  rcases Nat.mod_two_eq_zero_or_one n with h | h <;> simp [Nat.add_mod, h]

/-- A pixel is turned over exactly if its place is flipped an odd number of times. -/
theorem isLitAt_foldl_flip (places : List (Fin 2048)) (d : Drawn) (other : Fin 2048) :
    (places.foldl Drawn.flip d).screen.isLitAt other =
      (d.screen.isLitAt other ^^ decide (places.count other % 2 = 1)) := by
  induction places generalizing d with
  | nil => simp
  | cons place places ih =>
      rw [List.foldl_cons, ih, isLitAt_flip, List.count_cons]
      by_cases h : place = other
      · simp [h, decide_succ_odd]
      · simp [h]

/-- Of places that come once, all are turned over and the others are not. -/
theorem isLitAt_foldl_flip_of_nodup {places : List (Fin 2048)} (h : places.Nodup) (d : Drawn)
    (other : Fin 2048) :
    (other ∈ places →
      (places.foldl Drawn.flip d).screen.isLitAt other = !d.screen.isLitAt other) ∧
    (other ∉ places →
      (places.foldl Drawn.flip d).screen.isLitAt other = d.screen.isLitAt other) := by
  rw [isLitAt_foldl_flip]
  refine ⟨?_, ?_⟩
  · intro hmem
    simp [List.count_eq_one_of_mem h hmem]
  · intro hnot
    simp [List.count_eq_zero_of_not_mem hnot]

/-- A flip leaves the pixels that come later in a list without its place. -/
theorem isLitAt_flip_of_not_mem {places : List (Fin 2048)} {place : Fin 2048}
    (h : place ∉ places) (d : Drawn) :
    ∀ other ∈ places, (d.flip place).screen.isLitAt other = d.screen.isLitAt other := by
  intro other hother
  rw [isLitAt_flip, if_neg]
  rintro rfl
  exact h hother

/-- Where no place comes twice, a pixel that went dark was lit from the start. -/
theorem collided_foldl_flip_iff {places : List (Fin 2048)} (h : places.Nodup) (d : Drawn) :
    (places.foldl Drawn.flip d).collided = true ↔
      d.collided = true ∨ ∃ place ∈ places, d.screen.isLitAt place = true := by
  induction places generalizing d with
  | nil => simp
  | cons place places ih =>
      obtain ⟨hplace, hplaces⟩ := List.nodup_cons.mp h
      have hkept := isLitAt_flip_of_not_mem hplace d
      have hothers : (∃ other ∈ places, (d.flip place).screen.isLitAt other = true) ↔
          ∃ other ∈ places, d.screen.isLitAt other = true :=
        exists_congr fun other => and_congr_right fun hother => by rw [hkept other hother]
      have hcollided : (d.flip place).collided = (d.collided || d.screen.isLitAt place) := rfl
      rw [List.foldl_cons, ih hplaces, hcollided, hothers, Bool.or_eq_true, or_assoc,
        List.exists_mem_cons_iff]

/-- A flip lights one pixel more, or one less if the pixel was lit. -/
theorem litCount_flip (d : Drawn) (place : Fin 2048) :
    (d.flip place).screen.litCount + 2 * (if d.screen.isLitAt place = true then 1 else 0) =
      d.screen.litCount + 1 := by
  have hlength : place.val < d.screen.pixels.toList.length := by
    rw [Vector.length_toList]
    exact place.isLt
  have hplace : d.screen.pixels.toList[place.val] = d.screen.isLitAt place :=
    Vector.getElem_toList hlength
  have hflip : (d.flip place).screen.litCount =
      (d.screen.pixels.toList.set place (!d.screen.isLitAt place)).countP id := by
    rw [litCount, Drawn.flip, Vector.toList_set]
    rfl
  rw [hflip, List.countP_set hlength, hplace, litCount]
  cases hlit : d.screen.isLitAt place with
  | false => simp
  | true =>
      -- the count of the old screen is not zero, so taking one off and putting it back is exact
      have hmem : true ∈ d.screen.pixels.toList := by
        rw [← hlit, ← hplace]
        exact List.getElem_mem hlength
      have hpos : 0 < d.screen.pixels.toList.countP id :=
        List.countP_pos_iff.mpr ⟨true, hmem, rfl⟩
      simp only [id_eq, if_pos, Bool.not_true, Bool.false_eq_true, if_false]
      omega

/-- Where no place comes twice, each lights one pixel more, or one less if it was lit from the
    start. -/
theorem litCount_foldl_flip {places : List (Fin 2048)} (h : places.Nodup) (d : Drawn) :
    (places.foldl Drawn.flip d).screen.litCount +
        2 * places.countP d.screen.isLitAt =
      d.screen.litCount + places.length := by
  induction places generalizing d with
  | nil => simp
  | cons place places ih =>
      obtain ⟨hplace, hplaces⟩ := List.nodup_cons.mp h
      have hrest := ih hplaces (d.flip place)
      have hflip := litCount_flip d place
      have hkept : places.countP (d.flip place).screen.isLitAt =
          places.countP d.screen.isLitAt :=
        List.countP_congr fun other hother => by rw [isLitAt_flip_of_not_mem hplace d other hother]
      rw [hkept] at hrest
      rw [List.foldl_cons, List.countP_cons, List.length_cons]
      omega

/-! ## Places and points -/

/-- The column and the row of a place. -/
def point (place : Fin 2048) : Nat × Nat :=
  (place.val % 64, place.val / 64)

theorem point_injective : Function.Injective point := by
  intro place other h
  have hcolumn : place.val % 64 = other.val % 64 := congrArg Prod.fst h
  have hrow : place.val / 64 = other.val / 64 := congrArg Prod.snd h
  exact Fin.ext (by omega)

theorem point_cell (x y : Nat) : point (cell x y) = (x % 64, y % 32) := by
  simp only [point, val_cell, Prod.mk.injEq]
  omega

theorem cell_point (place : Fin 2048) : cell (point place).1 (point place).2 = place := by
  apply Fin.ext
  simp only [point, val_cell]
  omega

theorem isLit_point (s : Screen) (place : Fin 2048) :
    s.isLit (point place).1 (point place).2 = s.isLitAt place := by
  have hinside : (point place).1 < 64 ∧ (point place).2 < 32 := by
    simp only [point]
    omega
  exact (s.isLit_of_inside hinside).trans (congrArg s.isLitAt (cell_point place))

/-- Cells that are one place are in one column and in one row, around the edges. -/
theorem mod_eq_of_cell_eq {x y x' y' : Nat} (h : cell x y = cell x' y') :
    x % 64 = x' % 64 ∧ y % 32 = y' % 32 := by
  have hpoint := congrArg point h
  rw [point_cell, point_cell] at hpoint
  exact Prod.mk.inj hpoint

/-! ## The places under a sprite -/

theorem mem_rowColumns {bits : UInt8} {column : Nat} :
    column ∈ rowColumns bits ↔ column < 8 ∧ bits.toNat.testBit (7 - column) = true := by
  simp [rowColumns]

theorem mem_spriteCells {rows : List UInt8} {x y : Nat} {place : Fin 2048} :
    place ∈ spriteCells x y rows ↔
      ∃ r b, r < rows.length ∧ b < 8 ∧ (rows.getD r 0).toNat.testBit (7 - b) = true ∧
        place = cell (x + b) (y + r) := by
  induction rows generalizing y with
  | nil => simp [spriteCells]
  | cons bits rows ih =>
      simp only [spriteCells, List.mem_append, List.mem_map, mem_rowColumns, ih]
      constructor
      · rintro (⟨b, ⟨hb, hset⟩, rfl⟩ | ⟨r, b, hr, hb, hset, rfl⟩)
        · exact ⟨0, b, by simp, hb, hset, rfl⟩
        · exact ⟨r + 1, b, by simpa using hr, hb, hset, by rw [Nat.add_right_comm, Nat.add_assoc]⟩
      · rintro ⟨r | r, b, hr, hb, hset, rfl⟩
        · exact .inl ⟨b, ⟨hb, hset⟩, rfl⟩
        · exact .inr ⟨r, b, by simpa using hr, hb, hset, by rw [Nat.add_right_comm, Nat.add_assoc]⟩

/-- No place is twice under a sprite that is not higher than the screen. -/
theorem nodup_spriteCells (x y : Nat) {rows : List UInt8} (h : rows.length ≤ 32) :
    (spriteCells x y rows).Nodup := by
  induction rows generalizing y with
  | nil => exact List.nodup_nil
  | cons bits rows ih =>
      have hrows : rows.length < 32 := h
      rw [spriteCells, List.nodup_append']
      refine ⟨?_, ih (y + 1) hrows.le, ?_⟩
      · -- eight columns do not reach around a row of the screen
        refine List.Nodup.map_on ?_ (List.nodup_range.filter _)
        intro b hb b' hb' hcell
        have hb8 := (mem_rowColumns.mp hb).1
        have hb8' := (mem_rowColumns.mp hb').1
        have hcolumn := (mod_eq_of_cell_eq hcell).1
        omega
      · -- nor do the later rows reach the first one
        intro place hfirst hlater
        obtain ⟨b, -, rfl⟩ := List.mem_map.mp hfirst
        obtain ⟨r, b', hr, -, -, hcell⟩ := mem_spriteCells.mp hlater
        have hrow := (mod_eq_of_cell_eq hcell).2
        omega

/-- The places that a drawing flips all differ. -/
theorem nodup_drawnCells (x y : Nat) (sprite : List UInt8) :
    (spriteCells x y (sprite.take maxSpriteHeight)).Nodup := by
  apply nodup_spriteCells
  rw [List.length_take, maxSpriteHeight]
  omega

/-! ## The points under a sprite -/

/-- The points of the screen under the set pixels of a sprite whose upper left corner is at
    column `x` and row `y`. Both coordinates go around the edges, and the rows after the
    fifteenth are left out. -/
def spritePoints (x y : Nat) (sprite : List UInt8) : Finset (Nat × Nat) :=
  ((Finset.range (min sprite.length 15) ×ˢ Finset.range 8).filter
    fun (r, b) => (sprite.getD r 0).toNat.testBit (7 - b) = true).image
      fun (r, b) => ((x + b) % 64, (y + r) % 32)

theorem getD_take {sprite : List UInt8} {r n : Nat} (h : r < n) :
    (sprite.take n).getD r 0 = sprite.getD r 0 := by
  rw [List.getD_eq_getElem?_getD, List.getElem?_take_of_lt h, List.getD_eq_getElem?_getD]

theorem mem_spritePoints {x y : Nat} {sprite : List UInt8} {place : Fin 2048} :
    point place ∈ spritePoints x y sprite ↔
      place ∈ spriteCells x y (sprite.take maxSpriteHeight) := by
  simp only [spritePoints, Finset.mem_image, Finset.mem_filter, Finset.mem_product,
    Finset.mem_range, mem_spriteCells, List.length_take, maxSpriteHeight]
  constructor
  · rintro ⟨⟨r, b⟩, ⟨⟨hr, hb⟩, hset⟩, hpoint⟩
    refine ⟨r, b, by omega, hb, ?_, ?_⟩
    · rwa [getD_take (by omega)]
    · apply point_injective
      rw [point_cell, hpoint]
  · rintro ⟨r, b, hr, hb, hset, rfl⟩
    rw [getD_take (by omega)] at hset
    exact ⟨(r, b), ⟨⟨by omega, hb⟩, hset⟩, (point_cell _ _).symm⟩

/-- Every point under a sprite is on the screen. -/
theorem exists_place_of_mem {x y : Nat} {sprite : List UInt8} {p : Nat × Nat}
    (h : p ∈ spritePoints x y sprite) : ∃ place, point place = p := by
  obtain ⟨⟨r, b⟩, -, rfl⟩ := Finset.mem_image.mp h
  exact ⟨cell (x + b) (y + r), point_cell _ _⟩

theorem spritePoints_eq (x y : Nat) (sprite : List UInt8) :
    spritePoints x y sprite =
      (spriteCells x y (sprite.take maxSpriteHeight)).toFinset.image point := by
  ext p
  constructor
  · intro hp
    obtain ⟨place, rfl⟩ := exists_place_of_mem hp
    exact Finset.mem_image_of_mem point (List.mem_toFinset.mpr (mem_spritePoints.mp hp))
  · intro hp
    obtain ⟨place, hplace, rfl⟩ := Finset.mem_image.mp hp
    exact mem_spritePoints.mpr (List.mem_toFinset.mp hplace)

theorem card_spritePoints (x y : Nat) (sprite : List UInt8) :
    (spritePoints x y sprite).card =
      (spriteCells x y (sprite.take maxSpriteHeight)).length := by
  rw [spritePoints_eq, Finset.card_image_of_injective _ point_injective,
    List.toFinset_card_of_nodup (nodup_drawnCells x y sprite)]

theorem card_lit_spritePoints (s : Screen) (x y : Nat) (sprite : List UInt8) :
    ((spritePoints x y sprite).filter fun p => s.isLit p.1 p.2 = true).card =
      (spriteCells x y (sprite.take maxSpriteHeight)).countP s.isLitAt := by
  rw [spritePoints_eq, Finset.filter_image, Finset.card_image_of_injective _ point_injective]
  simp only [isLit_point]
  rw [← List.toFinset_filter,
    List.toFinset_card_of_nodup ((nodup_drawnCells x y sprite).filter _),
    List.countP_eq_length_filter]

/-! ## A drawing -/

theorem isLit_draw (s : Screen) (x y : Nat) (sprite : List UInt8) (column row : Nat) :
    (s.draw x y sprite).screen.isLit column row =
      if (column, row) ∈ spritePoints x y sprite then !s.isLit column row
      else s.isLit column row := by
  by_cases hinside : column < 64 ∧ row < 32
  · have hpoint : (column, row) = point (cell column row) := by
      rw [point_cell, Nat.mod_eq_of_lt hinside.1, Nat.mod_eq_of_lt hinside.2]
    obtain ⟨hflipped, hkept⟩ := isLitAt_foldl_flip_of_nodup (nodup_drawnCells x y sprite)
      ⟨s, false⟩ (cell column row)
    rw [isLit_of_inside _ hinside, isLit_of_inside _ hinside, hpoint]
    split
    · next hmem => exact hflipped (mem_spritePoints.mp hmem)
    · next hnot => exact hkept fun hmem => hnot (mem_spritePoints.mpr hmem)
  · -- off the screen there is no point and no pixel is lit
    have hnot : (column, row) ∉ spritePoints x y sprite := by
      intro hmem
      obtain ⟨place, hplace⟩ := exists_place_of_mem hmem
      have hcolumn : place.val % 64 = column := congrArg Prod.fst hplace
      have hrow : place.val / 64 = row := congrArg Prod.snd hplace
      omega
    rw [if_neg hnot, isLit_of_outside _ hinside, isLit_of_outside _ hinside]

theorem collided_draw_iff (s : Screen) (x y : Nat) (sprite : List UInt8) :
    (s.draw x y sprite).collided = true ↔
      ∃ p ∈ spritePoints x y sprite, s.isLit p.1 p.2 = true := by
  rw [draw, collided_foldl_flip_iff (nodup_drawnCells x y sprite)]
  constructor
  · rintro (hfalse | ⟨place, hplace, hlit⟩)
    · exact absurd hfalse Bool.false_ne_true
    · exact ⟨point place, mem_spritePoints.mpr hplace, by rwa [isLit_point]⟩
  · rintro ⟨p, hp, hlit⟩
    obtain ⟨place, rfl⟩ := exists_place_of_mem hp
    rw [isLit_point] at hlit
    exact .inr ⟨place, mem_spritePoints.mp hp, hlit⟩

theorem litCount_draw (s : Screen) (x y : Nat) (sprite : List UInt8) :
    (s.draw x y sprite).screen.litCount +
        2 * ((spritePoints x y sprite).filter fun p => s.isLit p.1 p.2 = true).card =
      s.litCount + (spritePoints x y sprite).card := by
  rw [card_spritePoints, card_lit_spritePoints, draw]
  exact litCount_foldl_flip (nodup_drawnCells x y sprite) ⟨s, false⟩

/-- What a drawing does, in terms of the points under the sprite. Each pixel there is turned
    over and every other pixel is kept; the drawing tells of a collision exactly if one of the
    points was lit; and each point adds one to the number of lit pixels, or takes one off if it
    was lit. -/
theorem draw_flips_points (s : Screen) (x y : Nat) (sprite : List UInt8) :
    let points := spritePoints x y sprite
    let drawn := s.draw x y sprite
    (∀ column row, drawn.screen.isLit column row =
      if (column, row) ∈ points then !s.isLit column row else s.isLit column row) ∧
    (drawn.collided = true ↔ ∃ p ∈ points, s.isLit p.1 p.2 = true) ∧
    drawn.screen.litCount + 2 * (points.filter fun p => s.isLit p.1 p.2 = true).card =
      s.litCount + points.card := by
  intro points drawn
  exact ⟨isLit_draw s x y sprite, collided_draw_iff s x y sprite, litCount_draw s x y sprite⟩

/-- At the lower right corner a sprite comes in again at the other edges. -/
example : spritePoints 62 31 [0xF0, 0x80] = {(62, 31), (63, 31), (0, 31), (1, 31), (62, 0)} := by
  decide

end Chip8.Screen
