/-
  Chip8.RandomStream.Seed

  The key of a random stream, stretched from a 64-bit seed. A linear congruence
  moves a 64-bit state; the word for a state mixes its upper bits, and its top
  five bits say how far the mix is rotated.
-/

namespace Chip8.RandomStream

/-- The key of a random stream. -/
abbrev Key := Vector UInt32 8

/-- `word` with its bits moved `count` places to the right and around the end. -/
def rotateRight (word count : UInt32) : UInt32 :=
  (word >>> count) ||| (word <<< (32 - count))

/-- The state after `state`. -/
def nextState (state : UInt64) : UInt64 :=
  state * 6364136223846793005 + 11634580027462260723

/-- The word for a state. -/
def mix (state : UInt64) : UInt32 :=
  rotateRight (((state >>> 18) ^^^ state) >>> 27).toUInt32 (state >>> 59).toUInt32

/-- The key for a seed: the words for the eight states that follow it. -/
def Key.ofSeed (seed : UInt64) : Key :=
  Vector.ofFn fun i => mix (Nat.repeat nextState (i + 1) seed)

end Chip8.RandomStream
