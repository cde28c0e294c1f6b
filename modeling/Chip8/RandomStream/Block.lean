/-
  Chip8.RandomStream.Block

  The blocks of a random stream: the ChaCha function with twelve rounds, on a
  state of sixteen words made of a constant, the key, the number of the block
  and two zero words.
-/
import Chip8.RandomStream.Seed

namespace Chip8.RandomStream

/-- Sixteen words. -/
abbrev Block := Vector UInt32 16

/-- `word` with its bits moved `count` places to the left and around the end. -/
def rotateLeft (word count : UInt32) : UInt32 :=
  (word <<< count) ||| (word >>> (32 - count))

/-- Adds word `b` to word `a`, and mixes the sum into word `d`. -/
def Block.mixInto (s : Block) (a b d : Fin 16) (count : UInt32) : Block :=
  let s := s.set a (s[a] + s[b])
  s.set d (rotateLeft (s[d] ^^^ s[a]) count)

/-- The quarter round on four words. -/
def Block.quarterRound (s : Block) (a b c d : Fin 16) : Block :=
  (((s.mixInto a b d 16).mixInto c d b 12).mixInto a b d 8).mixInto c d b 7

/-- Two rounds: a quarter round on each column, then on each diagonal. -/
def Block.doubleRound (s : Block) : Block :=
  let s := s.quarterRound 0 4 8 12
  let s := s.quarterRound 1 5 9 13
  let s := s.quarterRound 2 6 10 14
  let s := s.quarterRound 3 7 11 15
  let s := s.quarterRound 0 5 10 15
  let s := s.quarterRound 1 6 11 12
  let s := s.quarterRound 2 7 8 13
  s.quarterRound 3 4 9 14

/-- The state from which block number `counter` is made. -/
def Block.start (key : Key) (counter : UInt64) : Block :=
  #v[0x61707865, 0x3320646e, 0x79622d32, 0x6b206574,
     key[0], key[1], key[2], key[3], key[4], key[5], key[6], key[7],
     counter.toUInt32, (counter >>> 32).toUInt32, 0, 0]

/-- Block number `counter`: its state after twelve rounds, added to the state
    itself. -/
def Block.ofCounter (key : Key) (counter : UInt64) : Block :=
  let start := Block.start key counter
  (Nat.repeat Block.doubleRound 6 start).zipWith (· + ·) start

end Chip8.RandomStream
