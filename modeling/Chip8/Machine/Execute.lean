/-
  Chip8.Machine.Execute

  What each instruction does, and what one cycle of a machine does: fetch a word,
  do what it says, move the program counter. An instruction that fails becomes a
  fault and leaves no trace in the machine.
-/
import Chip8.Machine.Effect

namespace Chip8

/-! ## Operations and conditions -/

/-- What an operation yields: a value for `V x`, and perhaps a flag for VF. -/
structure Operation.Yield where
  value : UInt8
  flag : Option Bool
  deriving DecidableEq

/-- What an operation makes of the values `a` of `V x` and `b` of `V y`. A shift
    takes the one that the dialect says. -/
def Operation.apply (operation : Operation) (dialect : Dialect) (a b : UInt8) :
    Operation.Yield :=
  let shifted := if dialect.shiftReadsY then b else a
  match operation with
  | .copy => ⟨b, none⟩
  | .or => ⟨a ||| b, none⟩
  | .and => ⟨a &&& b, none⟩
  | .xor => ⟨a ^^^ b, none⟩
  | .add => ⟨a + b, some (255 < a.toNat + b.toNat)⟩
  | .subtract => ⟨a - b, some (b ≤ a)⟩
  | .shiftRight => ⟨shifted >>> 1, some (shifted % 2 = 1)⟩
  | .subtractReversed => ⟨b - a, some (a ≤ b)⟩
  | .shiftLeft => ⟨shifted <<< 1, some (128 ≤ shifted)⟩

/-- The low digit of a byte. -/
def lowDigit (value : UInt8) : Fin 16 :=
  ⟨value.toNat % 16, by omega⟩

/-- Whether a condition holds of a machine. -/
def Condition.holds (condition : Condition) (m : Machine) : Bool :=
  let v := m.registers.get
  match condition with
  | .equalsByte x byte => v x == byte
  | .differsByte x byte => v x != byte
  | .equals x y => v x == v y
  | .differs x y => v x != v y
  | .keyDown x => m.keypad.isDown (lowDigit (v x))
  | .keyUp x => !m.keypad.isDown (lowDigit (v x))

/-! ## Instructions -/

/-- Where the program counter goes once an instruction has done its work. -/
inductive Flow where
  /-- To the next instruction. -/
  | next
  /-- Past the next instruction. -/
  | skip
  /-- To an address. -/
  | jump (address : Word)
  /-- Nowhere. -/
  | stay
  deriving DecidableEq

/-- The three decimal digits of a byte. -/
def decimalDigits (value : UInt8) : List UInt8 :=
  [value / 100, value % 100 / 10, value % 10]

/-- Moves the index past the `x + 1` bytes just transferred, if the dialect has
    it so. -/
def Effect.afterTransfer (x : Fin 16) : Effect Unit := do
  let dialect ← look Machine.dialect
  if dialect.transferMovesIndex then
    registers fun r => r.setIndex (r.index + x.val.toUInt16 + 1)

section

open Effect

/-- What an instruction does. -/
def Instruction.perform : Instruction → Effect Flow
  | .sys _ => return .next
  | .clearScreen => do
    blankScreen
    return .next
  | .ret => do
    let address ← popFrame
    return .jump address
  | .jump address => return .jump address
  | .call address => do
    let pc ← look fun m => m.registers.pc
    pushFrame (pc + 2).address
    return .jump address
  | .skipIf condition => do
    let holds ← look condition.holds
    return if holds then .skip else .next
  | .loadByte x byte => do
    setRegister x byte
    return .next
  | .addByte x byte => do
    let a ← register x
    setRegister x (a + byte)
    return .next
  | .combine operation x y => do
    let dialect ← look Machine.dialect
    let a ← register x
    let b ← register y
    let yield := operation.apply dialect a b
    match yield.flag with
    | none => setRegister x yield.value
    | some flag => registers fun r => r.setWithFlag x yield.value flag
    return .next
  | .loadIndex address => do
    registers fun r => r.setIndex address
    return .next
  | .jumpOffset x address => do
    let dialect ← look Machine.dialect
    let offset ← register (if dialect.jumpReadsX then x else 0)
    return .jump (address + offset.toUInt16)
  | .random x mask => do
    let byte ← randomByte
    setRegister x (byte &&& mask)
    return .next
  | .draw x y rows => do
    let column ← register x
    let row ← register y
    let sprite ← bytesAtIndex rows
    let collided ← drawSprite column.toNat row.toNat sprite
    registers fun r => r.setFlag collided
    return .next
  | .waitKey x => do
    awaitKey x
    return .stay
  | .loadDelay x => do
    let delay ← look fun m => m.timers.delay
    setRegister x delay
    return .next
  | .setDelay x => do
    let value ← register x
    timers fun t => { t with delay := value }
    return .next
  | .setSound x => do
    let value ← register x
    timers fun t => { t with sound := value }
    return .next
  | .addIndex x => do
    let value ← register x
    registers fun r => r.setIndex (r.index + value.toUInt16)
    return .next
  | .fontGlyph x => do
    let value ← register x
    registers fun r => r.setIndex (Font.glyphAddress (lowDigit value)).toUInt16
    return .next
  | .storeDecimal x => do
    let value ← register x
    storeAtIndex (decimalDigits value)
    return .next
  | .storeRegisters x => do
    let values ← look fun m => m.registers.v.toList.take (x + 1)
    storeAtIndex values
    afterTransfer x
    return .next
  | .loadRegisters x => do
    let values ← bytesAtIndex (x + 1)
    registers fun r => r.setFirst values
    afterTransfer x
    return .next
  | .unknown word => throw (.unknownWord word)

end

namespace Machine

/-! ## Words -/

/-- Moves the program counter. -/
def follow (m : Machine) : Flow → Machine
  | .next => m.advance 2
  | .skip => m.advance 4
  | .jump address => { m with registers := m.registers.setPc address }
  | .stay => m

/-- Counts `word`, and keeps it as the last one. -/
def complete (m : Machine) (word : Word) : Machine :=
  { m with lastWord := word, counter := m.counter + 1 }

/-- Executes `word` as if it had been fetched at the program counter. A word that
    is no instruction is passed over where the policy says so. -/
def execute (m : Machine) (word : Word) : Outcome Unit :=
  let pc := m.registers.pc
  let start := Record.executing pc word m.dialect
  match (Instruction.decode word).perform m with
  | .ok flow after => ⟨.ok (), (after.follow flow).complete word, [start]⟩
  | .error cause after =>
    match cause, after.unknownWords with
    | .unknownWord unknown, .skip =>
      ⟨.ok (), (after.advance 2).complete word, [start, .skipping unknown pc]⟩
    | cause, _ => ⟨.error (.fault word pc cause), after, [start]⟩

/-! ## Cycles -/

/-- The word at the program counter. -/
def fetch (m : Machine) : Except Error Word :=
  let pc := m.registers.pc.toNat
  if h : pc + 2 ≤ 4096 then .ok (.ofBytes m.memory.bytes[pc] m.memory.bytes[pc + 1])
  else .error (.addressOutOfRange (max pc 4096))

/-- Hands the number of a pressed key to the register that waits for it, and goes
    on after the instruction that waited. -/
def resume (m : Machine) (register : Nat) (key : UInt8) : Outcome Unit :=
  match m.registers.write register key with
  | .error cause => .failed (.fault m.lastWord m.registers.pc cause) m
  | .ok registers =>
    .done () { m with registers := registers.advance 2, mode := .running, counter := m.counter + 1 }

/-- One cycle: the next instruction, or the end of a wait if a key was pressed. -/
def cycle (m : Machine) : Outcome Unit :=
  match m.mode with
  | .awaitingKey _ none => .done () m
  | .awaitingKey register (some key) => m.resume register key
  | .running =>
    match m.fetch with
    | .ok word => m.execute word
    | .error cause => .failed (.fault 0 m.registers.pc cause) m

end Machine

end Chip8
