/-
  Chip8.Proofs.Guarded

  Instructions and cycles with nothing taken for granted: registers and keys are taken by
  their number, places of arrays too, and the sums of words that are not meant to wrap
  are taken as numbers. Where a place does not exist or a sum has more than 16 bits, such a
  run is stuck.
-/
import Chip8.Proofs.Cycle
import Chip8.Proofs.GuardedAccess

namespace Chip8

/-- What an instruction does to a machine, or `none` where it is stuck. -/
def Guarded (α : Type) := Machine → Option (EStateM.Result Error Machine α)

namespace Guarded

instance : Monad Guarded where
  pure value m := some (.ok value m)
  bind first next m :=
    match first m with
    | none => none
    | some (.ok value m) => next value m
    | some (.error error m) => some (.error error m)

/-! ## Steps that can be stuck -/

/-- Something about the machine. -/
def look {α : Type} (f : Machine → α) : Guarded α :=
  fun m => some (.ok (f m) m)

/-- Changes the machine. -/
def change (f : Machine → Machine) : Guarded Unit :=
  fun m => some (.ok () (f m))

/-- A value that may be missing. Without it the run is stuck. -/
def demand {α : Type} (value? : Option α) : Guarded α :=
  fun m => value?.map fun value => .ok value m

/-- What a checked access gives, which is an error if the check fails. -/
def attempt {α : Type} (result : Except Error α) : Guarded α :=
  fun m => some <| match result with
    | .ok value => .ok value m
    | .error error => .error error m

/-- The value of the register with the given number. -/
def register (n : Nat) : Guarded UInt8 := do
  let r ← look Machine.registers
  attempt (r.read n)

/-- Puts `value` in the register with the given number. -/
def setRegister (n : Nat) (value : UInt8) : Guarded Unit := do
  let r ← look Machine.registers
  let registers ← attempt (r.write n value)
  change fun m => { m with registers }

/-- Puts `values` in the registers from number `n` on, one after the other. -/
def setRegistersFrom (n : Nat) : List UInt8 → Guarded Unit
  | [] => return
  | value :: values => do
    setRegister n value
    setRegistersFrom (n + 1) values

/-- Puts a result in the register with the given number, and its flag in VF. -/
def setWithFlag (n : Nat) (value : UInt8) (flag : Bool) : Guarded Unit := do
  let r ← look Machine.registers
  let result ← demand (r.writeWithFlag? n value flag)
  let registers ← attempt result
  change fun m => { m with registers }

/-- Puts a flag in VF. -/
def setFlag (flag : Bool) : Guarded Unit := do
  let r ← look Machine.registers
  let registers ← demand (r.setFlag? flag)
  change fun m => { m with registers }

/-- Puts `address` in the index, as far as it fits. -/
def setIndex (address : Word) : Guarded Unit :=
  change fun m => { m with registers := m.registers.setIndex address }

/-- Whether the key with the given number is down. -/
def key (n : Nat) : Guarded Bool := do
  let pad ← look Machine.keypad
  attempt (pad.read n)

/-- The `length` bytes at the index. -/
def bytesAtIndex (length : Nat) : Guarded (List UInt8) := do
  let m ← look id
  let result ← demand (m.memory.readRange? m.registers.index.toNat length)
  attempt result

/-- Puts `values` at the index. -/
def storeAtIndex (values : List UInt8) : Guarded Unit := do
  let m ← look id
  let result ← demand (m.memory.writeRange? m.registers.index.toNat values)
  let memory ← attempt result
  change fun m => { m with memory }

/-- Puts a return address on the stack. -/
def pushFrame (address : Word) : Guarded Unit := do
  let s ← look Machine.stack
  let result ← demand (s.push? address)
  let stack ← attempt result
  change fun m => { m with stack }

/-- Takes the newest return address from the stack. -/
def popFrame : Guarded Word := do
  let s ← look Machine.stack
  let result ← demand s.pop?
  let (address, stack) ← attempt result
  change fun m => { m with stack }
  return address

/-- Draws a sprite, and tells whether it collided. -/
def drawSprite (x y : Nat) (sprite : List UInt8) : Guarded Bool := do
  let s ← look Machine.screen
  let drawn ← demand (s.draw? x y sprite)
  change fun m => { m with screen := drawn.screen }
  return drawn.collided

/-- Takes a random byte. -/
def randomByte : Guarded UInt8 := do
  let random ← look Machine.random
  change fun m => { m with random := random.next }
  return random.byte

/-- Moves the index past `n + 1` bytes, if the dialect has it so, by two sums. -/
def afterTransfer (n : Nat) : Guarded Unit := do
  let dialect ← look Machine.dialect
  if dialect.transferMovesIndex then
    let index ← look fun m => m.registers.index
    let last ← demand (sum? index n.toUInt16)
    let past ← demand (sum? last 1)
    setIndex past

end Guarded

/-! ## Instructions -/

/-- What an operation yields, with the carry taken from a sum of words. -/
def Operation.yield? (operation : Operation) (dialect : Dialect) (a b : UInt8) :
    Option Operation.Yield :=
  match operation with
  | .add => (Guarded.sum? a.toUInt16 b.toUInt16).map fun sum =>
    ⟨sum.toUInt8, some (0xFF < sum)⟩
  | operation => some (operation.apply dialect a b)

section

open Guarded

/-- Whether a condition holds, with registers and keys taken by their number. -/
def Condition.holdsGuarded : Condition → Guarded Bool
  | .equalsByte x byte => return (← register x) == byte
  | .differsByte x byte => return (← register x) != byte
  | .equals x y => return (← register x) == (← register y)
  | .differs x y => return (← register x) != (← register y)
  | .keyDown x => do
    let value ← register x
    key (value.toNat % 16)
  | .keyUp x => do
    let value ← register x
    return !(← key (value.toNat % 16))

/-- What an instruction does, if it does not get stuck. -/
def Instruction.performGuarded : Instruction → Guarded Flow
  | .sys _ => return .next
  | .clearScreen => do
    change fun m => { m with screen := .blank }
    return .next
  | .ret => do
    let address ← popFrame
    return .jump address
  | .jump address => return .jump address
  | .call address => do
    let pc ← look fun m => m.registers.pc
    pushFrame (pc + 2).address
    return .jump address
  | .skipIf condition => do
    let holds ← condition.holdsGuarded
    return if holds then .skip else .next
  | .loadByte x byte => do
    setRegister x byte
    return .next
  | .addByte x byte => do
    let a ← register x
    setRegister x (a + byte)
    return .next
  | .combine operation x y => do
    let dialect ← look Machine.dialect
    let a ← register x
    let b ← register y
    let yield ← demand (operation.yield? dialect a b)
    match yield.flag with
    | none => setRegister x yield.value
    | some flag => setWithFlag x yield.value flag
    return .next
  | .loadIndex address => do
    setIndex address
    return .next
  | .jumpOffset x address => do
    let dialect ← look Machine.dialect
    let offset ← register (if dialect.jumpReadsX then x else 0 : Fin 16)
    let target ← demand (sum? address offset.toUInt16)
    return .jump target
  | .random x mask => do
    let byte ← randomByte
    setRegister x (byte &&& mask)
    return .next
  | .draw x y rows => do
    let column ← register x
    let row ← register y
    let sprite ← bytesAtIndex rows
    let collided ← drawSprite column.toNat row.toNat sprite
    setFlag collided
    return .next
  | .waitKey x => do
    let _ ← register x
    change fun m => { m with mode := .awaitingKey x none }
    return .stay
  | .loadDelay x => do
    let delay ← look fun m => m.timers.delay
    setRegister x delay
    return .next
  | .setDelay x => do
    let value ← register x
    change fun m => { m with timers := { m.timers with delay := value } }
    return .next
  | .setSound x => do
    let value ← register x
    change fun m => { m with timers := { m.timers with sound := value } }
    return .next
  | .addIndex x => do
    let index ← look fun m => m.registers.index
    let value ← register x
    let sum ← demand (sum? index value.toUInt16)
    setIndex sum
    return .next
  | .fontGlyph x => do
    let value ← register x
    let address ← demand (word? (Font.base + value.toNat % 16 * Font.glyphHeight))
    setIndex address
    return .next
  | .storeDecimal x => do
    let value ← register x
    storeAtIndex (decimalDigits value)
    return .next
  | .storeRegisters x => do
    let r ← look Machine.registers
    let values ← attempt (r.firstTo x)
    storeAtIndex values
    afterTransfer x
    return .next
  | .loadRegisters x => do
    let _ ← register x
    let values ← bytesAtIndex (x + 1)
    setRegistersFrom 0 values
    afterTransfer x
    return .next
  | .unknown word => attempt (.error (.unknownWord word))

end

/-! ## Words and cycles -/

namespace Machine

/-- What becomes of a word, given what its instruction did. -/
def conclude (m : Machine) (word : Word) :
    EStateM.Result Error Machine Flow → Outcome Unit
  | .ok flow after => ⟨.ok (), (after.follow flow).complete word, [m.startRecord word]⟩
  | .error cause after =>
    match cause, after.unknownWords with
    | .unknownWord unknown, .skip =>
      ⟨.ok (), (after.advance 2).complete word,
        [m.startRecord word, .skipping unknown m.registers.pc]⟩
    | cause, _ =>
      ⟨.error (.fault word m.registers.pc cause), after, [m.startRecord word]⟩

/-- Executes a word, if that does not get stuck. -/
def executeGuarded (m : Machine) (word : Word) : Option (Outcome Unit) :=
  ((Instruction.decode word).performGuarded m).map (m.conclude word)

/-- The word at the program counter, whose two bytes are read as a range. -/
def fetchGuarded (m : Machine) : Option (Except Error Word) := do
  match ← m.memory.readRange? m.registers.pc.toNat 2 with
  | .ok bytes =>
    let high ← bytes[0]?
    let low ← bytes[1]?
    return .ok (.ofBytes high low)
  | .error error => return .error error

/-- One cycle, if that does not get stuck. -/
def cycleGuarded (m : Machine) : Option (Outcome Unit) :=
  match m.mode with
  | .awaitingKey _ none => some (.done () m)
  | .awaitingKey register (some key) => some (m.resume register key)
  | .running => do
    match ← m.fetchGuarded with
    | .ok word => m.executeGuarded word
    | .error cause => return .failed (.fault 0 m.registers.pc cause) m

end Machine

end Chip8
