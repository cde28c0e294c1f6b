import Chip8.CommandLine.Program
import Chip8.Main
import Chip8.Proofs.KeyWait
import Chip8.Proofs.NeverStuck
import Chip8.Proofs.SkipPolicy
import Chip8.Proofs.Footprint
import Chip8.Proofs.ProgramCounter
import Chip8.Proofs.CallBracket
import Chip8.Proofs.Ticks
import Chip8.Proofs.RandomBytes
import Chip8.Proofs.Unnoticed
import Chip8.Proofs.Interchange
import Chip8.Proofs.DisputedWords
import Chip8.Proofs.HeadlessErrors
import Chip8.Proofs.RunLength
import Chip8.Proofs.HeadlessWait
import Chip8.Proofs.MaskedDraws
import Chip8.Proofs.Loading
import Chip8.Proofs.Reset
import Chip8.Proofs.Alignment
import Chip8.Proofs.StandingFault
import Chip8.Proofs.WaitInPlace
import Chip8.Proofs.Sprite
import Chip8.Proofs.HeadlessLog
import Chip8.Proofs.Names
import Chip8.Proofs.NameLookup
import Chip8.Proofs.ScreenText
import Chip8.Proofs.Picture
import Chip8.Proofs.Ending
import Chip8.Proofs.Arithmetic
import Chip8.Proofs.Drawings
import Chip8.Proofs.Transfer
import Chip8.Proofs.StackCalls
import Chip8.Proofs.RangeAccess
import Chip8.Proofs.Glyphs
import Chip8.Proofs.Disassembly
import Chip8.Proofs.FaultChain
import Chip8.Proofs.HeldKeys
