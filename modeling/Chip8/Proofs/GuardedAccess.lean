/-
  Chip8.Proofs.GuardedAccess

  The accesses of the machine with nothing taken for granted: each place of an array is
  looked up by its number, and each sum of words is taken as a number first. `none` means
  that a place does not exist or a sum does not fit, which nothing catches. Errors are
  what a check in front of an access gives back. Every access that has its check is
  never `none`, and gives what the access of the same name without a mark gives.
-/
import Chip8.Proofs.Perform

namespace Chip8

/-! ## Arrays and words -/

namespace Guarded

/-- The array with `a` at place `i`, if there is such a place. -/
def put? {α : Type} {n : Nat} (v : Vector α n) (i : Nat) (a : α) : Option (Vector α n) :=
  if h : i < n then some (v.set i a) else none

theorem put?_of_lt {α : Type} {n i : Nat} (v : Vector α n) (a : α) (h : i < n) :
    put? v i a = some (v.set i a) :=
  dif_pos h

/-- `n` as a word, if it has at most 16 bits. -/
def word? (n : Nat) : Option Word :=
  if n < 65536 then some n.toUInt16 else none

theorem word?_of_lt {n : Nat} (h : n < 65536) : word? n = some n.toUInt16 :=
  if_pos h

/-- The sum of two words, if it is one. -/
def sum? (a b : Word) : Option Word :=
  word? (a.toNat + b.toNat)

theorem sum?_of_lt {a b : Word} (h : a.toNat + b.toNat < 65536) : sum? a b = some (a + b) := by
  have hsum : (a.toNat + b.toNat).toUInt16 = a + b := by simp
  rw [sum?, word?_of_lt h, hsum]

end Guarded

open Guarded (put? sum?)

/-! ## Memory -/

namespace Memory

/-- The bytes from `start` on, `length` of them, if they all exist. -/
def slice? (m : Memory) (start length : Nat) : Option (List UInt8) :=
  (List.range' start length).mapM fun address => m.bytes[address]?

theorem slice?_eq (m : Memory) {start length : Nat} (h : start + length ≤ 4096) :
    m.slice? start length = some (m.slice start length h) := by
  unfold slice?
  induction length generalizing start with
  | zero => rfl
  | succ length ih =>
      -- the first byte exists, and the others are the range from the next address on
      have hlt : start < 4096 := by omega
      have htail := ih (show start + 1 + length ≤ 4096 by omega)
      have hslice : m.slice start (length + 1) h =
          m.bytes[start] :: m.slice (start + 1) length (by omega) := by
        simp [slice, List.ofFn_succ, Nat.add_comm, Nat.add_left_comm]
      rw [List.range'_succ, List.mapM_cons, Vector.getElem?_eq_getElem hlt, htail, hslice]
      rfl

/-- The memory with `values` from `address` on, if all those places exist. -/
def store? (m : Memory) (address : Nat) : List UInt8 → Option Memory
  | [] => some m
  | value :: values => do
    let bytes ← put? m.bytes address value
    store? ⟨bytes⟩ (address + 1) values

theorem store?_eq (m : Memory) {address : Nat} {values : List UInt8}
    (h : address + values.length ≤ 4096) :
    m.store? address values = some (m.store address values) := by
  induction values generalizing m address with
  | nil => rfl
  | cons value values ih =>
      rw [List.length_cons] at h
      -- the plain store puts a byte only where it fits, and here it fits
      have hlt : address < 4096 := by omega
      have hput : m.put address value = ⟨m.bytes.set address value⟩ := by
        rw [put]
        congr 1
        ext i hi
        rw [Vector.getElem_setIfInBounds, Vector.getElem_set]
      rw [store?, Guarded.put?_of_lt _ _ hlt, store, hput]
      exact ih _ (by omega)

/-- A range is checked as a whole and then read byte by byte. -/
def readRange? (m : Memory) (address length : Nat) : Option (Except Error (List UInt8)) :=
  if address + length ≤ 4096 then (m.slice? address length).map .ok
  else some (.error (.addressOutOfRange (max address 4096)))

theorem readRange?_eq (m : Memory) (address length : Nat) :
    m.readRange? address length = some (m.readRange address length) := by
  unfold readRange? readRange
  split
  · next h => rw [slice?_eq m h, Option.map_some]
  · rfl

/-- A range is checked as a whole and then written byte by byte. -/
def writeRange? (m : Memory) (address : Nat) (values : List UInt8) :
    Option (Except Error Memory) :=
  if address + values.length ≤ 4096 then (m.store? address values).map .ok
  else some (.error (.addressOutOfRange (max address 4096)))

theorem writeRange?_eq (m : Memory) (address : Nat) (values : List UInt8) :
    m.writeRange? address values = some (m.writeRange address values) := by
  unfold writeRange? writeRange
  split
  · next h => rw [store?_eq m h, Option.map_some]
  · rfl

end Memory

/-! ## Registers -/

namespace Registers

/-- The registers with VF, which is looked up by its number, at 1 or 0. -/
def setFlag? (r : Registers) (flag : Bool) : Option Registers := do
  let v ← put? r.v 15 flag.toUInt8
  return { r with v }

theorem setFlag?_eq (r : Registers) (flag : Bool) : r.setFlag? flag = some (r.setFlag flag) :=
  rfl

/-- The number is checked once, before the flag is written. -/
def writeWithFlag? (r : Registers) (n : Nat) (value : UInt8) (flag : Bool) :
    Option (Except Error Registers) :=
  if n < 16 then do
    let flagged ← r.setFlag? flag
    let v ← put? flagged.v n value
    return .ok { flagged with v }
  else some (.error (.invalidRegister n))

theorem writeWithFlag?_eq (r : Registers) (n : Nat) (value : UInt8) (flag : Bool) :
    r.writeWithFlag? n value flag = some (r.writeWithFlag n value flag) := by
  unfold writeWithFlag? writeWithFlag number
  by_cases h : n < 16
  · rw [if_pos h, dif_pos h, setFlag?_eq, Option.bind_eq_bind, Option.bind_some,
      Guarded.put?_of_lt _ _ h]
    rfl
  · rw [if_neg h, dif_neg h]
    rfl

/-- The values of V0 to `V n`, for a number that is checked. -/
def firstTo (r : Registers) (n : Nat) : Except Error (List UInt8) :=
  if n < 16 then .ok (r.v.toList.take (n + 1)) else .error (.invalidRegister n)

/-- The registers with `values` in `V n` and those after it, as far as they go. -/
def setFrom (r : Registers) (n : Nat) (values : List UInt8) : Registers :=
  { r with v := Vector.ofFn fun x =>
      if n ≤ x.val then values.getD (x - n) (r.get x) else r.get x }

theorem setFrom_nil (r : Registers) (n : Nat) : r.setFrom n [] = r := by
  have hv : (r.setFrom n []).v = r.v := by
    ext i hi
    simp [setFrom, get]
  exact congrArg (fun v => { r with v := v }) hv

theorem setFrom_zero (r : Registers) (values : List UInt8) :
    r.setFrom 0 values = r.setFirst values := by
  simp only [setFrom, setFirst, Nat.zero_le, if_true, Nat.sub_zero]

/-- To set several registers is to set the first one and then the others. -/
theorem setFrom_cons (r : Registers) {n : Nat} (hn : n < 16) (value : UInt8)
    (values : List UInt8) :
    r.setFrom n (value :: values) = (r.set ⟨n, hn⟩ value).setFrom (n + 1) values := by
  have hv : (r.setFrom n (value :: values)).v =
      ((r.set ⟨n, hn⟩ value).setFrom (n + 1) values).v := by
    ext i hi
    simp only [setFrom, Vector.getElem_ofFn, get_set, Fin.mk.injEq]
    -- place `n` has the first value, and those after it are up to the rest of the list
    by_cases hfirst : n = i
    · subst hfirst
      simp [show ¬ n + 1 ≤ n by omega]
    · by_cases hle : n ≤ i
      · obtain ⟨k, hk⟩ : ∃ k, i - n = k + 1 := ⟨i - n - 1, by omega⟩
        have hk' : i - (n + 1) = k := by omega
        simp [hfirst, hle, hk, hk', show n + 1 ≤ i by omega]
      · simp [hfirst, hle, show ¬ n + 1 ≤ i by omega]
  exact congrArg (fun v => { r with v := v }) hv

end Registers

/-! ## Stack -/

namespace CallStack

/-- The next slot is looked up by its number. -/
def push? (s : CallStack) (address : Word) : Option (Except Error CallStack) :=
  if h : s.depth < capacity then do
    let slots ← put? s.slots s.depth address
    return .ok ⟨slots, s.depth + 1, h⟩
  else some (.error .stackOverflow)

theorem push?_eq (s : CallStack) (address : Word) :
    s.push? address = some (s.push address) := by
  unfold push? push
  split
  · next h =>
    rw [Guarded.put?_of_lt _ _ h]
    rfl
  · rfl

/-- The newest slot is looked up by its number. -/
def pop? (s : CallStack) : Option (Except Error (Word × CallStack)) :=
  if s.depth = 0 then some (.error .stackUnderflow)
  else do
    let address ← s.slots[s.depth - 1]?
    return .ok (address, s.popped)

theorem pop?_eq (s : CallStack) : s.pop? = some s.pop := by
  by_cases h : s.depth = 0
  · rw [pop?, if_pos h, pop_of_depth_eq s h]
  · rw [pop?, if_neg h, pop_of_depth_ne s h,
      Vector.getElem?_eq_getElem s.depth_sub_one_lt]
    rfl

end CallStack

/-! ## Screen -/

namespace Screen

/-- The numbers of the pixels under the set pixels of a sprite. -/
def spritePlaces (x y : Nat) : List UInt8 → List Nat
  | [] => []
  | bits :: rows =>
    (rowColumns bits).map (fun column => (x + column) % 64 + y % 32 * 64) ++
      spritePlaces x (y + 1) rows

theorem spritePlaces_eq (x y : Nat) (rows : List UInt8) :
    spritePlaces x y rows = (spriteCells x y rows).map Fin.val := by
  induction rows generalizing y with
  | nil => rfl
  | cons bits rows ih =>
      simp only [spritePlaces, spriteCells, ih, List.map_append, List.map_map]
      congr 1
      apply List.map_congr_left
      intro column _
      simp only [Function.comp, val_cell, Nat.mul_comm]

/-- Flips the pixel with the given number, if there is one. -/
def Drawn.flip? (d : Drawn) (place : Nat) : Option Drawn := do
  let lit ← d.screen.pixels[place]?
  let pixels ← put? d.screen.pixels place (!lit)
  return ⟨⟨pixels⟩, d.collided || lit⟩

theorem Drawn.flip?_eq (d : Drawn) (place : Fin 2048) : d.flip? place = some (d.flip place) := by
  rw [flip?, Vector.getElem?_eq_getElem place.isLt, Option.bind_eq_bind, Option.bind_some,
    Guarded.put?_of_lt _ _ place.isLt]
  rfl

/-- Draws a sprite pixel by pixel. -/
def draw? (s : Screen) (x y : Nat) (sprite : List UInt8) : Option Drawn :=
  (spritePlaces x y (sprite.take maxSpriteHeight)).foldlM Drawn.flip? ⟨s, false⟩

theorem draw?_eq (s : Screen) (x y : Nat) (sprite : List UInt8) :
    s.draw? x y sprite = some (s.draw x y sprite) := by
  unfold draw? draw
  rw [spritePlaces_eq]
  -- the fold starts from any drawing, not only from the one without a flip
  generalize spriteCells x y (sprite.take maxSpriteHeight) = places
  generalize (⟨s, false⟩ : Drawn) = drawn
  induction places generalizing drawn with
  | nil => rfl
  | cons place places ih =>
      rw [List.map_cons, List.foldlM_cons, Drawn.flip?_eq, List.foldl_cons]
      exact ih _

end Screen

end Chip8
