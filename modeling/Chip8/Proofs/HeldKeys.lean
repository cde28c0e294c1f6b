/-
  Chip8.Proofs.HeldKeys

  The keypad as a set. A keypad stands for the set of its keys that are down (`Keypad.heldKeys`),
  and one call puts its key into the set or takes it out, if there is such a key
  (`Keypad.isDown_call`). From call to call this gives what any number of calls leave: a key is
  down if the last call for it pressed it (`Keypad.isDown_afterMoves`), and it was pressed as
  often as it was released, or once more (`Keypad.presses_eq_releases`).
-/
import Chip8.Keypad
import Mathlib.Data.Fintype.Basic
import Mathlib.Data.List.Induction
import Mathlib.Order.Bounds.Basic

namespace Chip8

/-- A call that moves the key with a number. -/
structure KeyMove where
  number : Nat
  isDown : Bool

/-- A call that was answered. -/
structure KeyAnswer where
  move : KeyMove
  /-- The keypad before the call. -/
  before : Keypad
  /-- Whether the call says that it pressed a key that was up, if it does not fail. -/
  result : Except Error Bool

namespace KeyAnswer

/-- Whether a call says that it pressed a key. -/
def presses (a : KeyAnswer) (key : Fin 16) : Bool :=
  a.move.number == key.val && match a.result with
    | .ok pressed => pressed
    | .error _ => false

/-- Whether a call moved a key up that was down. -/
def releases (a : KeyAnswer) (key : Fin 16) : Bool :=
  a.move.number == key.val && !a.move.isDown && a.before.isDown key

end KeyAnswer

namespace Keypad

/-! ## One call -/

/-- What a call gives back, and the keypad after it. -/
def call (pad : Keypad) (move : KeyMove) : Except Error Bool × Keypad :=
  match pad.write move.number move.isDown with
  | .ok moved => (.ok moved.pressed, moved.keypad)
  | .error error => (.error error, pad)

theorem call_of_lt (pad : Keypad) {number : Nat} (isDown : Bool) (h : number < 16) :
    pad.call ⟨number, isDown⟩ =
      (.ok (isDown && !pad.isDown ⟨number, h⟩), (pad.move ⟨number, h⟩ isDown).keypad) := by
  simp only [call, write, Keypad.number, dif_pos h, Except.map, move]

theorem call_of_le (pad : Keypad) {number : Nat} (isDown : Bool) (h : 16 ≤ number) :
    pad.call ⟨number, isDown⟩ = (.error (.invalidKey number), pad) := by
  simp only [call, write, Keypad.number, dif_neg (Nat.not_lt.mpr h), Except.map]

/-- A call moves the key with its number, if there is one, and no other. -/
theorem isDown_call (pad : Keypad) (move : KeyMove) (key : Fin 16) :
    (pad.call move).2.isDown key =
      if move.number = key.val then move.isDown else pad.isDown key := by
  obtain ⟨number, isDown⟩ := move
  by_cases h : number < 16
  · rw [pad.call_of_lt isDown h, isDown_move]
    simp only [Fin.ext_iff]
  · have hother : number ≠ key.val := by omega
    rw [pad.call_of_le isDown (Nat.not_lt.mp h), if_neg hother]

/-! ## Held keys -/

/-- The keys that are down. -/
def heldKeys (pad : Keypad) : Finset (Fin 16) :=
  Finset.univ.filter fun key => pad.isDown key = true

theorem mem_heldKeys {pad : Keypad} {key : Fin 16} :
    key ∈ pad.heldKeys ↔ pad.isDown key = true := by
  rw [heldKeys, Finset.mem_filter, and_iff_right (Finset.mem_univ key)]

theorem decide_not_mem_heldKeys (pad : Keypad) (key : Fin 16) :
    decide (key ∉ pad.heldKeys) = !pad.isDown key := by
  simp [mem_heldKeys]

theorem heldKeys_call (pad : Keypad) (key : Fin 16) (isDown : Bool) :
    (pad.call ⟨key, isDown⟩).2.heldKeys =
      if isDown then insert key pad.heldKeys else pad.heldKeys.erase key := by
  ext other
  rw [mem_heldKeys, isDown_call]
  by_cases hkey : other = key
  · rw [hkey, if_pos rfl]
    cases isDown with
    | true => simp
    | false => simp
  · rw [if_neg (Fin.val_ne_of_ne (Ne.symm hkey)), ← mem_heldKeys]
    cases isDown with
    | true => simp [hkey]
    | false => simp [hkey]

/-- The lowest key that is down is the least of the held keys. -/
theorem firstHeld?_eq_some_iff {pad : Keypad} {key : Fin 16} :
    pad.firstHeld? = some key ↔ IsLeast ↑pad.heldKeys key := by
  rw [firstHeld?, List.find?_eq_some_iff_getElem]
  constructor
  · rintro ⟨hdown, i, hi, hkey, hbefore⟩
    refine ⟨mem_heldKeys.mpr hdown, ?_⟩
    intro other hother
    by_contra hlt
    -- a lower key comes earlier in the list
    have hi' : i = key.val := by
      rw [← hkey, List.getElem_finRange]
      rfl
    have hup := hbefore other.val (by omega)
    rw [List.getElem_finRange] at hup
    exact absurd (mem_heldKeys.mp hother) (by simpa using hup)
  · rintro ⟨hmem, hleast⟩
    refine ⟨mem_heldKeys.mp hmem, key.val, by simp, by simp, ?_⟩
    intro other hother
    rw [List.getElem_finRange, Bool.not_eq_true', Bool.eq_false_iff]
    intro hdown
    have hle : key.val ≤ other := hleast (mem_heldKeys.mpr hdown)
    omega

theorem firstHeld?_eq_none_iff {pad : Keypad} : pad.firstHeld? = none ↔ pad.heldKeys = ∅ := by
  rw [firstHeld?, List.find?_eq_none, heldKeys, Finset.filter_eq_empty_iff]
  simp

/-! ## Any number of calls -/

/-- The keypad after some calls, whether they fail or not. -/
def afterMoves (pad : Keypad) (moves : List KeyMove) : Keypad :=
  moves.foldl (fun pad move => (pad.call move).2) pad

/-- The answers to some calls, one after the other. -/
def answers (pad : Keypad) : List KeyMove → List KeyAnswer
  | [] => []
  | move :: moves => ⟨move, pad, (pad.call move).1⟩ :: (pad.call move).2.answers moves

/-- Where the last of some calls for a key moved it, if there is one. -/
def lastMove? (key : Fin 16) (moves : List KeyMove) : Option Bool :=
  ((moves.filter fun move => move.number == key.val).getLast?).map KeyMove.isDown

theorem lastMove?_concat (key : Fin 16) (moves : List KeyMove) (move : KeyMove) :
    lastMove? key (moves ++ [move]) =
      if move.number = key.val then some move.isDown else lastMove? key moves := by
  rw [lastMove?, List.filter_append]
  split
  · next hkey =>
    have hmove : (move.number == key.val) = true := beq_iff_eq.mpr hkey
    simp only [List.filter_cons, hmove, if_true, List.filter_nil, List.getLast?_concat]
    rfl
  · next hkey =>
    have hmove : (move.number == key.val) = false := beq_false_of_ne hkey
    simp only [List.filter_cons, hmove, Bool.false_eq_true, if_false, List.filter_nil,
      List.append_nil]
    rfl

/-- A key is where the last call for it moved it, or where it was if there was none. -/
theorem isDown_afterMoves (pad : Keypad) (moves : List KeyMove) (key : Fin 16) :
    (pad.afterMoves moves).isDown key = (lastMove? key moves).getD (pad.isDown key) := by
  -- the last call decides, and for other keys those before it
  induction moves using List.reverseRecOn with
  | nil => rfl
  | append_singleton moves move ih =>
      have hafter : pad.afterMoves (moves ++ [move]) = ((pad.afterMoves moves).call move).2 :=
        List.foldl_concat ..
      rw [hafter, isDown_call, lastMove?_concat]
      split
      · rfl
      · exact ih

/-- A call says that it pressed a key exactly if it moved it down from up. -/
theorem presses_call (pad : Keypad) (move : KeyMove) (key : Fin 16) :
    KeyAnswer.presses ⟨move, pad, (pad.call move).1⟩ key =
      (move.number == key.val && move.isDown && !pad.isDown key) := by
  obtain ⟨number, isDown⟩ := move
  by_cases hkey : number = key.val
  · subst hkey
    rw [KeyAnswer.presses, pad.call_of_lt isDown key.isLt, Bool.and_assoc]
  · have hother : (number == key.val) = false := beq_false_of_ne hkey
    rw [KeyAnswer.presses, hother]
    rfl

/-- A press finds the key up and leaves it down, a release finds it down and leaves it up, and
    every other call leaves it where it was. -/
theorem presses_add_isDown (pad : Keypad) (move : KeyMove) (key : Fin 16) :
    let answer : KeyAnswer := ⟨move, pad, (pad.call move).1⟩
    (if answer.presses key then 1 else 0) + (if pad.isDown key then 1 else 0) =
      (if answer.releases key then 1 else 0) +
        (if (pad.call move).2.isDown key then 1 else 0) := by
  intro answer
  have hreleases : answer.releases key =
      (move.number == key.val && !move.isDown && pad.isDown key) := rfl
  rw [presses_call, hreleases, isDown_call]
  by_cases hkey : move.number = key.val
  · rw [if_pos hkey, hkey, beq_self_eq_true]
    cases move.isDown with
    | _ =>
      cases pad.isDown key with
      | _ => rfl
  · have hother : (move.number == key.val) = false := beq_false_of_ne hkey
    rw [if_neg hkey, hother]
    rfl

theorem presses_eq_releases (pad : Keypad) (moves : List KeyMove) (key : Fin 16) :
    (pad.answers moves).countP (·.presses key) + (if pad.isDown key then 1 else 0) =
      (pad.answers moves).countP (·.releases key) +
        (if (pad.afterMoves moves).isDown key then 1 else 0) := by
  induction moves generalizing pad with
  | nil => rfl
  | cons move moves ih =>
      -- the calls after the first one start from the keypad that it leaves
      have hfirst := pad.presses_add_isDown move key
      have hrest := ih (pad.call move).2
      have hafter : pad.afterMoves (move :: moves) = (pad.call move).2.afterMoves moves := rfl
      simp only at hfirst
      rw [answers, List.countP_cons, List.countP_cons, hafter]
      omega

/-! ## The keypad as a set -/

/-- After any calls at a keypad with all keys up: the next call fails exactly if there is no key
    with its number, and then changes nothing, and else it puts its key into the set of held keys
    or takes it out, and says whether it put in a key that was not there. The held keys are those
    for which the last call was a press, and the lowest key that is down is the least of them.
    Each key was pressed, as the calls say, as often as it was moved up from down, and once more
    if it is held. -/
theorem moves_refine_held_keys (moves : List KeyMove) :
    let pad := released.afterMoves moves
    let answers := released.answers moves
    (∀ number isDown, 16 ≤ number →
      pad.call ⟨number, isDown⟩ = (.error (.invalidKey number), pad)) ∧
    (∀ (key : Fin 16) isDown,
      (pad.call ⟨key, isDown⟩).1 = .ok (isDown && decide (key ∉ pad.heldKeys)) ∧
      (pad.call ⟨key, isDown⟩).2.heldKeys =
        if isDown then insert key pad.heldKeys else pad.heldKeys.erase key) ∧
    (∀ key, key ∈ pad.heldKeys ↔ lastMove? key moves = some true) ∧
    (∀ key, pad.firstHeld? = some key ↔ IsLeast ↑pad.heldKeys key) ∧
    (pad.firstHeld? = none ↔ pad.heldKeys = ∅) ∧
    ∀ key, answers.countP (·.presses key) =
      answers.countP (·.releases key) + if key ∈ pad.heldKeys then 1 else 0 := by
  intro pad answers
  have hreleased : ∀ key, released.isDown key = false := by decide
  refine ⟨?_, ?_, ?_, fun _ => firstHeld?_eq_some_iff, firstHeld?_eq_none_iff, ?_⟩
  · intro number isDown hnumber
    exact pad.call_of_le isDown hnumber
  · intro key isDown
    refine ⟨?_, pad.heldKeys_call key isDown⟩
    rw [pad.call_of_lt isDown key.isLt, decide_not_mem_heldKeys]
  · intro key
    rw [mem_heldKeys, isDown_afterMoves, hreleased]
    cases lastMove? key moves with
    | none => simp
    | some isDown => simp
  · intro key
    -- at the start no key is down
    have hbalance := released.presses_eq_releases moves key
    simp only [hreleased, Bool.false_eq_true, if_false, Nat.add_zero] at hbalance
    simp only [mem_heldKeys]
    exact hbalance

/-- Two keys are pressed, one of them twice over, and that one is released. The other is held and
    is the lowest, and there is no key 16. -/
theorem moves_refine_held_keys_twoOfThem :
    let moves : List KeyMove := [⟨3, true⟩, ⟨12, true⟩, ⟨3, true⟩, ⟨16, true⟩, ⟨3, false⟩]
    let pad := released.afterMoves moves
    16 ≤ 16 ∧ pad.call ⟨16, true⟩ = (.error (.invalidKey 16), pad) ∧
    12 ∈ pad.heldKeys ∧ 3 ∉ pad.heldKeys ∧ IsLeast ↑pad.heldKeys (12 : Fin 16) ∧
    (released.answers moves).countP (·.presses 3) =
      (released.answers moves).countP (·.releases 3) := by
  intro moves pad
  obtain ⟨hfails, -, hlast, hfirst, -, hbalance⟩ := moves_refine_held_keys moves
  have hup : 3 ∉ pad.heldKeys := by
    rw [hlast]
    decide
  refine ⟨Nat.le_refl 16, hfails 16 true (Nat.le_refl 16), (hlast 12).mpr (by decide), hup,
    (hfirst 12).mp (by decide), ?_⟩
  have hpresses := hbalance 3
  rwa [if_neg hup] at hpresses

end Keypad

end Chip8
