/-
  Chip8.RandomStream.Generator

  A generator of random bytes: a place in the stream of a key. Each byte is the
  low byte of one word of the stream, so a generator moves one word for each
  byte that is taken.
-/
import Chip8.RandomStream.Block

namespace Chip8.RandomStream

/-- A place in the stream of a key. -/
structure Generator where
  key : Key
  /-- Number of bytes taken so far. -/
  taken : Nat
  deriving DecidableEq

namespace Generator

/-- The start of the stream for a seed. -/
def ofSeed (seed : UInt64) : Generator where
  key := Key.ofSeed seed
  taken := 0

/-- Byte number `i` of the stream for a key. -/
def streamByte (key : Key) (i : Nat) : UInt8 :=
  let block := Block.ofCounter key (i / 16).toUInt64
  block[(⟨i % 16, Nat.mod_lt i (by decide)⟩ : Fin 16)].toUInt8

/-- The next byte. -/
def byte (g : Generator) : UInt8 :=
  streamByte g.key g.taken

/-- The generator after the next byte is taken. -/
def next (g : Generator) : Generator :=
  { g with taken := g.taken + 1 }

end Generator

end Chip8.RandomStream
