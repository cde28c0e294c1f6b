/-
  Chip8.Screen

  The screen of 64 by 32 pixels. A sprite is a column of at most fifteen rows of
  eight pixels; drawing it flips the screen under its set pixels, wrapping at
  both edges, and tells whether a lit pixel went dark.
-/

namespace Chip8

/-- The pixels of the screen, row by row from the top, each row from the left. -/
structure Screen where
  pixels : Vector Bool 2048
  deriving DecidableEq

namespace Screen

/-- Pixels in a row. -/
def width : Nat := 64

/-- Rows. -/
def height : Nat := 32

/-- The dark screen. -/
def blank : Screen := ⟨Vector.replicate 2048 false⟩

/-- The place of the pixel in column `x` and row `y`, both taken around the edges. -/
def cell (x y : Nat) : Fin 2048 :=
  ⟨x % width + width * (y % height), by simp only [width, height]; omega⟩

/-! ## Looking at pixels -/

/-- Whether the pixel in column `x` and row `y` is lit. Outside the screen none is. -/
def isLit (s : Screen) (x y : Nat) : Bool :=
  if x < width ∧ y < height then s.pixels[cell x y] else false

theorem val_cell (x y : Nat) : (cell x y).val = x % 64 + 64 * (y % 32) := rfl

theorem isLit_of_inside (s : Screen) {x y : Nat} (h : x < 64 ∧ y < 32) :
    s.isLit x y = s.pixels[cell x y] :=
  if_pos h

theorem isLit_of_outside (s : Screen) {x y : Nat} (h : ¬ (x < 64 ∧ y < 32)) :
    s.isLit x y = false :=
  if_neg h

/-- Number of lit pixels. -/
def litCount (s : Screen) : Nat :=
  s.pixels.toList.countP id

/-- The pixels of row `y`, from the left. -/
def row (s : Screen) (y : Nat) : List Bool :=
  (List.range width).map fun x => s.pixels[cell x y]

/-- The screen as text: a line for each row, with `#` for a lit pixel and `.` for
    a dark one. -/
def text (s : Screen) : String :=
  String.ofList <| (List.range height).flatMap fun y =>
    (s.row y).map (fun lit => if lit then '#' else '.') ++ ['\n']

/-! ## Sprites -/

/-- The most rows of a sprite that are drawn. -/
def maxSpriteHeight : Nat := 15

/-- The columns of the set pixels in a row of a sprite, from the left. The highest
    bit is column 0. -/
def rowColumns (bits : UInt8) : List Nat :=
  (List.range 8).filter fun column => bits.toNat.testBit (7 - column)

/-- The places under the set pixels of a sprite whose first row is at `y` and
    whose columns start at `x`. -/
def spriteCells (x y : Nat) : List UInt8 → List (Fin 2048)
  | [] => []
  | bits :: rows => (rowColumns bits).map (fun column => cell (x + column) y) ++ spriteCells x (y + 1) rows

/-- The screen after drawing. -/
structure Drawn where
  screen : Screen
  /-- Whether a lit pixel went dark. -/
  collided : Bool

/-- Flips one more pixel. -/
def Drawn.flip (d : Drawn) (place : Fin 2048) : Drawn where
  collided := d.collided || d.screen.pixels[place]
  screen := ⟨d.screen.pixels.set place (!d.screen.pixels[place])⟩

/-- Flips the pixels under a sprite at column `x` and row `y`. -/
def draw (s : Screen) (x y : Nat) (sprite : List UInt8) : Drawn :=
  (spriteCells x y (sprite.take maxSpriteHeight)).foldl Drawn.flip ⟨s, false⟩

/-! ## What a flip leaves -/

/-- A flip turns one pixel and leaves the others. -/
theorem getElem_flip (d : Drawn) (place other : Fin 2048) :
    (d.flip place).screen.pixels[other] =
      if place = other then !d.screen.pixels[other] else d.screen.pixels[other] := by
  by_cases h : place = other
  · simp [Drawn.flip, h]
  · simp [Drawn.flip, h, Fin.val_ne_of_ne h]

end Screen

end Chip8
