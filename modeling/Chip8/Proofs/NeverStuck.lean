/-
  Chip8.Proofs.NeverStuck

  A guarded run is never stuck on a well-formed machine: every place that a cycle or a
  word looks up exists, every sum fits, and the run does what the plain one does. Each
  step agrees with its plain counterpart, and `Agrees.bind` carries agreement from
  steps to instructions; only the sums need the bounds of the address registers. Since
  every machine that calls lead to is well-formed, `boot_afterCalls_guarded` has this for
  all of them.
-/
import Chip8.Proofs.Faults
import Chip8.Proofs.Guarded
import Chip8.Proofs.WellFormed

namespace Chip8

/-! ## Agreement of runs -/

namespace Guarded

/-- On `m`, a guarded run is not stuck and does what the plain one does. -/
def Agrees {α : Type} (guarded : Guarded α) (plain : Effect α) (m : Machine) : Prop :=
  guarded m = some (plain m)

section

variable {α β : Type} {m : Machine}

theorem Agrees.pure (value : α) : Agrees (Pure.pure value) (Pure.pure value) m := rfl

theorem Agrees.bind {first : Guarded α} {next : α → Guarded β} {plainFirst : Effect α}
    {plainNext : α → Effect β} (hfirst : Agrees first plainFirst m)
    (hnext : ∀ value after, plainFirst m = .ok value after →
      Agrees (next value) (plainNext value) after) :
    Agrees (first >>= next) (plainFirst >>= plainNext) m := by
  rw [Agrees] at hfirst ⊢
  simp only [Bind.bind, EStateM.bind, hfirst]
  cases h : plainFirst m with
  | ok value after => exact hnext value after h
  | error error after => rfl

/-- A step that is only in the guarded run leaves the machine alone. -/
theorem Agrees.bind_left {first : Guarded α} {next : α → Guarded β} {plain : Effect β}
    {value : α} (hfirst : first m = some (.ok value m)) (hnext : Agrees (next value) plain m) :
    Agrees (first >>= next) plain m := by
  rw [Agrees] at hnext ⊢
  simp only [Bind.bind, hfirst]
  exact hnext

theorem demand_some {value? : Option α} {value : α} (h : value? = some value) :
    demand value? m = some (.ok value m) := by
  rw [demand, h, Option.map_some]

theorem Agrees.demand {value? : Option α} {value : α} {next : α → Guarded β}
    {plain : Effect β} (hvalue : value? = some value) (hnext : Agrees (next value) plain m) :
    Agrees (Guarded.demand value? >>= next) plain m :=
  Agrees.bind_left (demand_some hvalue) hnext

/-! ### Step by step -/

theorem look_agrees (f : Machine → α) : Agrees (look f) (Effect.look f) m := rfl

theorem register_eq (x : Fin 16) :
    register x m = some (.ok (m.registers.get x) m) := by
  simp only [register, look, Bind.bind, attempt, Registers.read, Registers.number,
    dif_pos x.isLt, Except.map]

theorem register_agrees (x : Fin 16) : Agrees (register x) (Effect.register x) m :=
  register_eq x

theorem setRegister_agrees (x : Fin 16) (value : UInt8) :
    Agrees (setRegister x value) (Effect.setRegister x value) m := by
  simp only [Agrees, setRegister, look, Bind.bind, attempt, Registers.write, Registers.number,
    dif_pos x.isLt, Except.map]
  rfl

theorem setWithFlag_agrees (x : Fin 16) (value : UInt8) (flag : Bool) :
    Agrees (setWithFlag x value flag)
      (Effect.registers fun r => r.setWithFlag x value flag) m := by
  simp only [Agrees, setWithFlag, look, Bind.bind, Registers.writeWithFlag?_eq, demand,
    Option.map_some, attempt, Registers.writeWithFlag, Registers.number, dif_pos x.isLt,
    Except.map]
  rfl

theorem setFlag_agrees (flag : Bool) :
    Agrees (setFlag flag) (Effect.registers fun r => r.setFlag flag) m := rfl

theorem setIndex_agrees (address : Word) :
    Agrees (setIndex address) (Effect.registers fun r => r.setIndex address) m := rfl

theorem key_eq (digit : Fin 16) :
    key digit m = some (.ok (m.keypad.isDown digit) m) := by
  simp only [key, look, Bind.bind, attempt, Keypad.read, Keypad.number, dif_pos digit.isLt,
    Except.map]

theorem bytesAtIndex_agrees (length : Nat) :
    Agrees (bytesAtIndex length) (Effect.bytesAtIndex length) m := by
  simp only [Agrees, bytesAtIndex, look, id, Bind.bind, Memory.readRange?_eq, demand,
    Option.map_some]
  rfl

theorem storeAtIndex_agrees (values : List UInt8) :
    Agrees (storeAtIndex values) (Effect.storeAtIndex values) m := by
  simp only [Agrees, storeAtIndex, look, id, Bind.bind, Memory.writeRange?_eq, demand,
    Option.map_some, attempt, Effect.storeAtIndex]
  cases m.memory.writeRange m.registers.index.toNat values with
  | ok memory => rfl
  | error error => rfl

theorem pushFrame_agrees (address : Word) :
    Agrees (pushFrame address) (Effect.pushFrame address) m := by
  simp only [Agrees, pushFrame, look, Bind.bind, CallStack.push?_eq, demand, Option.map_some,
    attempt, Effect.pushFrame]
  cases m.stack.push address with
  | ok stack => rfl
  | error error => rfl

theorem popFrame_agrees : Agrees popFrame Effect.popFrame m := by
  simp only [Agrees, popFrame, look, Bind.bind, CallStack.pop?_eq, demand, Option.map_some,
    attempt, Effect.popFrame]
  cases m.stack.pop with
  | ok popped => rfl
  | error error => rfl

theorem drawSprite_agrees (x y : Nat) (sprite : List UInt8) :
    Agrees (drawSprite x y sprite) (Effect.drawSprite x y sprite) m := by
  simp only [Agrees, drawSprite, look, Bind.bind, Screen.draw?_eq, demand, Option.map_some]
  rfl

theorem randomByte_agrees : Agrees randomByte Effect.randomByte m := rfl

/-! ### Several registers, one after the other -/

/-- Writing one register at a time, from number `n` on, ends up with all the values in
    place. -/
theorem setRegistersFrom_eq (values : List UInt8) (n : Nat) (h : n + values.length ≤ 16) :
    setRegistersFrom n values m =
      some (.ok () { m with registers := m.registers.setFrom n values }) := by
  induction values generalizing n m with
  | nil =>
      rw [Registers.setFrom_nil]
      rfl
  | cons value values ih =>
      rw [List.length_cons] at h
      -- the first value goes to a register that exists, the others to those after it
      have hn : n < 16 := by omega
      have hfirst : setRegister n value m =
          some (.ok () { m with registers := m.registers.set ⟨n, hn⟩ value }) :=
        setRegister_agrees ⟨n, hn⟩ value
      simp only [setRegistersFrom, Bind.bind, hfirst]
      rw [Registers.setFrom_cons _ hn]
      exact ih (n + 1) (by omega)

theorem setRegistersFrom_agrees (values : List UInt8) (h : values.length ≤ 16) :
    Agrees (setRegistersFrom 0 values) (Effect.registers fun r => r.setFirst values) m := by
  rw [Agrees, setRegistersFrom_eq values 0 (by omega), Registers.setFrom_zero]
  rfl

/-! ### Sums -/

theorem afterTransfer_agrees (x : Fin 16) (hindex : m.registers.index.toNat < 4096) :
    Agrees (afterTransfer x) (Effect.afterTransfer x) m := by
  have hx := x.isLt
  have hxWord : x.val.toUInt16.toNat = x.val := by
    rw [UInt16.toNat_ofNat']
    omega
  -- the first sum is below 4096 + 16, so the second one does not get far either
  have hlast : m.registers.index.toNat + x.val.toUInt16.toNat < 65536 := by omega
  have hpast : (m.registers.index + x.val.toUInt16).toNat + (1 : Word).toNat < 65536 := by
    rw [UInt16.toNat_add, hxWord]
    show (m.registers.index.toNat + x.val) % 65536 + 1 < 65536
    omega
  unfold afterTransfer Effect.afterTransfer
  refine .bind (look_agrees _) fun dialect after hlook => ?_
  cases hlook
  split
  · refine .bind_left rfl ?_
    refine .demand (sum?_of_lt hlast) ?_
    exact .demand (sum?_of_lt hpast) (setIndex_agrees _)
  · exact .pure _

end

end Guarded

theorem Operation.yield?_eq (operation : Operation) (dialect : Dialect) (a b : UInt8) :
    operation.yield? dialect a b = some (operation.apply dialect a b) := by
  cases operation with
  | add =>
      have ha := a.toNat_lt
      have hb := b.toNat_lt
      have hsum : a.toUInt16.toNat + b.toUInt16.toNat < 65536 := by
        rw [UInt8.toNat_toUInt16, UInt8.toNat_toUInt16]
        omega
      have hflag : (0xFF < a.toUInt16 + b.toUInt16) ↔ 255 < a.toNat + b.toNat := by
        rw [UInt16.lt_iff_toNat_lt, UInt16.toNat_add, UInt8.toNat_toUInt16,
          UInt8.toNat_toUInt16]
        show 255 < (a.toNat + b.toNat) % 65536 ↔ _
        omega
      simp only [yield?, Guarded.sum?_of_lt hsum, Option.map_some, apply, hflag]
      simp
  | _ => rfl

open Guarded (Agrees)

theorem Condition.holdsGuarded_agrees (condition : Condition) (m : Machine) :
    Agrees condition.holdsGuarded (Effect.look condition.holds) m := by
  cases condition with
  | equalsByte x byte | differsByte x byte =>
      exact .bind_left (Guarded.register_eq x) rfl
  | equals x y | differs x y =>
      refine .bind_left (Guarded.register_eq x) ?_
      exact .bind_left (Guarded.register_eq y) rfl
  | keyDown x =>
      refine .bind_left (Guarded.register_eq x) ?_
      exact Guarded.key_eq (lowDigit (m.registers.get x))
  | keyUp x =>
      refine .bind_left (Guarded.register_eq x) ?_
      exact .bind_left (Guarded.key_eq (lowDigit (m.registers.get x))) rfl

theorem Effect.storeAtIndex_registers {m after : Machine} {values : List UInt8} {done : Unit}
    (h : Effect.storeAtIndex values m = .ok done after) : after.registers = m.registers := by
  rw [storeAtIndex_eq] at h
  split at h
  · cases h
  · cases h
    rfl

theorem Effect.bytesAtIndex_ok {m after : Machine} {length : Nat} {values : List UInt8}
    (h : Effect.bytesAtIndex length m = .ok values after) :
    values.length = length ∧ after = m := by
  rw [bytesAtIndex_eq] at h
  split at h
  · cases h
  · next hrange =>
    cases h
    exact ⟨Machine.length_bytesAtIndex hrange, rfl⟩

/-- An offset jump of an instruction starts from an address of 12 bits. -/
def Instruction.JumpsFromAddress (i : Instruction) : Prop :=
  ∀ x address, i = .jumpOffset x address → address.toNat < 4096

theorem Instruction.performGuarded_agrees {i : Instruction} {m : Machine}
    (hi : i.JumpsFromAddress) (hindex : m.registers.index.toNat < 4096) :
    Agrees i.performGuarded i.perform m := by
  cases i with
  | sys | clearScreen | jump | loadIndex | unknown => rfl
  | ret => exact .bind Guarded.popFrame_agrees fun _ _ _ => .pure _
  | call address =>
      refine .bind (Guarded.look_agrees _) fun pc after _ => ?_
      exact .bind (Guarded.pushFrame_agrees _) fun _ _ _ => .pure _
  | skipIf condition =>
      exact .bind (condition.holdsGuarded_agrees m) fun _ _ _ => .pure _
  | loadByte x byte => exact .bind (Guarded.setRegister_agrees x byte) fun _ _ _ => .pure _
  | addByte x byte =>
      refine .bind (Guarded.register_agrees x) fun a after _ => ?_
      exact .bind (Guarded.setRegister_agrees x _) fun _ _ _ => .pure _
  | combine operation x y =>
      refine .bind (Guarded.look_agrees _) fun dialect after _ => ?_
      refine .bind (Guarded.register_agrees x) fun a after _ => ?_
      refine .bind (Guarded.register_agrees y) fun b after _ => ?_
      refine .demand (operation.yield?_eq dialect a b) ?_
      cases hflag : (operation.apply dialect a b).flag with
      | none =>
          simp only [hflag]
          exact .bind (Guarded.setRegister_agrees x _) fun _ _ _ => .pure _
      | some flag =>
          simp only [hflag]
          exact .bind (Guarded.setWithFlag_agrees x _ flag) fun _ _ _ => .pure _
  | jumpOffset x address =>
      -- an address of 12 bits and a byte
      have haddress := hi x address rfl
      refine .bind (Guarded.look_agrees _) fun dialect after _ => ?_
      refine .bind (Guarded.register_agrees _) fun offset after _ => ?_
      have hoffset := offset.toNat_lt
      have hsum : address.toNat + offset.toUInt16.toNat < 65536 := by
        rw [UInt8.toNat_toUInt16]
        omega
      exact .demand (Guarded.sum?_of_lt hsum) (.pure _)
  | random x mask =>
      refine .bind Guarded.randomByte_agrees fun byte after _ => ?_
      exact .bind (Guarded.setRegister_agrees x _) fun _ _ _ => .pure _
  | draw x y rows =>
      refine .bind (Guarded.register_agrees x) fun column after _ => ?_
      refine .bind (Guarded.register_agrees y) fun row after _ => ?_
      refine .bind (Guarded.bytesAtIndex_agrees _) fun sprite after _ => ?_
      refine .bind (Guarded.drawSprite_agrees _ _ sprite) fun collided after _ => ?_
      exact .bind (Guarded.setFlag_agrees collided) fun _ _ _ => .pure _
  | waitKey x => exact .bind_left (Guarded.register_eq x) rfl
  | loadDelay x =>
      refine .bind (Guarded.look_agrees _) fun delay after _ => ?_
      exact .bind (Guarded.setRegister_agrees x delay) fun _ _ _ => .pure _
  | setDelay x | setSound x =>
      refine .bind (Guarded.register_agrees x) fun value after _ => ?_
      rfl
  | addIndex x =>
      -- an index of 12 bits and a byte
      have hvalue := (m.registers.get x).toNat_lt
      have hsum :
          m.registers.index.toNat + (m.registers.get x).toUInt16.toNat < 65536 := by
        rw [UInt8.toNat_toUInt16]
        omega
      refine .bind_left rfl ?_
      refine .bind (Guarded.register_agrees x) fun value after hvalue => ?_
      cases hvalue
      exact .demand (Guarded.sum?_of_lt hsum) rfl
  | fontGlyph x =>
      refine .bind (Guarded.register_agrees x) fun value after _ => ?_
      have hglyph : Font.base + value.toNat % 16 * Font.glyphHeight < 65536 := by
        unfold Font.base Font.glyphHeight
        omega
      exact .demand (Guarded.word?_of_lt hglyph) rfl
  | storeDecimal x =>
      refine .bind (Guarded.register_agrees x) fun value after _ => ?_
      exact .bind (Guarded.storeAtIndex_agrees _) fun _ _ _ => .pure _
  | storeRegisters x =>
      have hvalues : Agrees (Guarded.attempt (m.registers.firstTo x))
          (Effect.look fun m => m.registers.v.toList.take (x + 1)) m := by
        rw [Registers.firstTo, if_pos x.isLt]
        rfl
      refine .bind_left rfl ?_
      refine .bind hvalues fun values after hlook => ?_
      cases hlook
      -- the store leaves the index, which the sums start from, where it was
      refine .bind (Guarded.storeAtIndex_agrees _) fun _ after hstore => ?_
      rw [← Effect.storeAtIndex_registers hstore] at hindex
      exact .bind (Guarded.afterTransfer_agrees x hindex) fun _ _ _ => .pure _
  | loadRegisters x =>
      refine .bind_left (Guarded.register_eq x) ?_
      refine .bind (Guarded.bytesAtIndex_agrees _) fun values after hread => ?_
      obtain ⟨hlength, rfl⟩ := Effect.bytesAtIndex_ok hread
      -- as many values as there are registers up to `V x`
      have hfit : values.length ≤ 16 := by
        have hx := x.isLt
        omega
      refine .bind (Guarded.setRegistersFrom_agrees values hfit) fun _ after hset => ?_
      cases hset
      -- the values went to the byte registers, so the index is still where it was
      have hkept : (after.registers.setFirst values).index.toNat < 4096 := by
        rw [Registers.setFirst_index]
        exact hindex
      exact .bind (Guarded.afterTransfer_agrees x hkept) fun _ _ _ => .pure _

theorem Instruction.decode_jumpsFromAddress (w : Word) : (decode w).JumpsFromAddress := by
  intro x address h
  have hsays := decode_says w
  rw [h] at hsays
  cases hsays with
  | jumpOffset => exact w.toNat_address_lt

/-! ## Words and cycles -/

namespace Machine

theorem execute_eq_conclude (m : Machine) (word : Word) :
    m.execute word = m.conclude word ((Instruction.decode word).perform m) := by
  unfold execute conclude
  cases (Instruction.decode word).perform m with
  | ok flow after => rfl
  | error cause after =>
      cases cause with
      | unknownWord unknown => cases after.unknownWords <;> rfl
      | _ => rfl

theorem fetchGuarded_eq (m : Machine) : m.fetchGuarded = some m.fetch := by
  unfold fetchGuarded
  rw [Memory.readRange?_eq, Memory.readRange, fetch]
  by_cases h : m.registers.pc.toNat + 2 ≤ 4096
  · rw [dif_pos h, dif_pos h]
    have hhigh := m.memory.getElem?_slice _ 2 h 0 (by omega)
    have hlow := m.memory.getElem?_slice _ 2 h 1 (by omega)
    simp only [Option.bind_eq_bind, Option.bind_some, hhigh, hlow]
    rfl
  · rw [dif_neg h, dif_neg h]
    rfl

theorem executeGuarded_eq {m : Machine} (hm : m.WellFormed) (word : Word) :
    m.executeGuarded word = some (m.execute word) := by
  have hperform : (Instruction.decode word).performGuarded m =
      some ((Instruction.decode word).perform m) :=
    Instruction.performGuarded_agrees (Instruction.decode_jumpsFromAddress word)
      hm.registers.index_lt
  rw [executeGuarded, hperform, execute_eq_conclude, Option.map_some]

theorem cycleGuarded_eq {m : Machine} (hm : m.WellFormed) :
    m.cycleGuarded = some m.cycle := by
  unfold cycleGuarded cycle
  cases hmode : m.mode with
  | awaitingKey register pressed =>
      cases pressed with
      | none => rfl
      | some key => rfl
  | running =>
      simp only [fetchGuarded_eq, Option.bind_eq_bind, Option.bind_some]
      cases m.fetch with
      | ok word => exact executeGuarded_eq hm word
      | error cause => rfl

end Machine

/-! ## Registers and keys that do not exist -/

/-- A register or a key does not exist, and that is the cause under every fault. -/
def Error.IsBadNumber (error : Error) : Prop :=
  ∃ n, error.cause = .invalidRegister n ∨ error.cause = .invalidKey n

namespace Machine

theorem not_isBadNumber_of_obstacle {m : Machine} {i : Instruction} {cause : Error}
    {word pc : Word} (h : i.obstacle? m = some cause) :
    ¬ (Error.fault word pc cause).IsBadNumber := by
  rintro ⟨n, hn⟩
  rcases (i.obstacle?_eq_some_iff m cause).mp h with
    ⟨-, -, rfl⟩ | ⟨_, -, -, rfl⟩ | ⟨_, -, -, rfl⟩ | ⟨_, -, rfl⟩
  all_goals simp [Error.cause] at hn

theorem execute_not_isBadNumber (m : Machine) (word : Word) :
    ¬ ∃ error, (m.execute word).result = .error error ∧ error.IsBadNumber := by
  rintro ⟨error, hresult, hbad⟩
  obtain ⟨cause, hobstacle, -, rfl⟩ := (m.execute_result_error_iff word error).mp hresult
  exact not_isBadNumber_of_obstacle hobstacle hbad

theorem cycle_not_isBadNumber {m : Machine} (hm : m.WellFormed) :
    ¬ ∃ error, m.cycle.result = .error error ∧ error.IsBadNumber := by
  rintro ⟨error, hresult, hbad⟩
  rcases (m.cycle_result_error_iff error).mp hresult with
    ⟨register, key, hmode, hregister, -⟩ | ⟨-, -, rfl⟩ | ⟨-, hpc, hexec⟩
  -- a wait of a well-formed machine is for a register that exists
  · have hlt := hm.mode.register_lt register _ hmode
    omega
  · obtain ⟨n, hn⟩ := hbad
    simp [Error.cause] at hn
  · exact execute_not_isBadNumber m _ ⟨error, hexec, hbad⟩

/-- Whatever calls a machine has seen since it was switched on, it is well-formed; its
    next cycle and the execution of any word, every place looked up by its number and every
    sum taken as a number, are not stuck and come out as they do; and neither asks for a
    register or a key that does not exist. -/
theorem boot_afterCalls_guarded (files : FileSystem) (path : Option String)
    (random : RandomStream.Generator) (calls : List HostCall) :
    let m := (boot files path random).machine.afterCalls calls
    m.WellFormed ∧
    m.cycleGuarded = some m.cycle ∧
    (∀ word, m.executeGuarded word = some (m.execute word)) ∧
    (¬ ∃ error, m.cycle.result = .error error ∧ error.IsBadNumber) ∧
    (∀ word, ¬ ∃ error, (m.execute word).result = .error error ∧ error.IsBadNumber) := by
  intro m
  have hm : m.WellFormed := boot_afterCalls_wellFormed files path random calls
  refine ⟨hm, cycleGuarded_eq hm, ?_, cycle_not_isBadNumber hm, ?_⟩
  · intro word
    exact executeGuarded_eq hm word
  · intro word
    exact execute_not_isBadNumber m word

end Machine

end Chip8
