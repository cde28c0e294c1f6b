/-
  Chip8.Proofs.Transfer

  Between the registers and the memory. The words FX33, FX55 and FX65 store or load at the
  index, and succeed exactly if all the bytes that they reach exist (`Machine.execute_window`).
  What they leave is `Machine.StoredDecimal`, `Machine.Stored` and `Machine.Loaded`. A byte
  stays until a word that is executed writes it or a program is loaded over it
  (`Machine.getElem?_afterCalls`). So registers that were stored come back when they are loaded
  from where they were stored, whatever was done in between to anything else.
-/
import Chip8.Proofs.Loading

namespace Chip8

/-! ## The words -/

/-- FX33, which stores the decimal digits of VX. -/
def Word.StoresDecimal (w : Word) : Prop :=
  w.family = 0xF ∧ w.byte = 0x33

/-- FX55, which stores V0 to VX. -/
def Word.StoresRegisters (w : Word) : Prop :=
  w.family = 0xF ∧ w.byte = 0x55

/-- FX65, which loads V0 to VX. -/
def Word.LoadsRegisters (w : Word) : Prop :=
  w.family = 0xF ∧ w.byte = 0x65

namespace Instruction

variable {w : Word}

theorem decode_storeDecimal (hw : w.StoresDecimal) : decode w = .storeDecimal w.x := by
  rw [decode_device hw.1, hw.2]
  rfl

theorem decode_storeRegisters (hw : w.StoresRegisters) : decode w = .storeRegisters w.x := by
  rw [decode_device hw.1, hw.2]
  rfl

theorem decode_loadRegisters (hw : w.LoadsRegisters) : decode w = .loadRegisters w.x := by
  rw [decode_device hw.1, hw.2]
  rfl

end Instruction

/-! ## What they leave -/

namespace Machine

/-- Where the index is after `x + 1` bytes were transferred. -/
def indexAfterTransfer (m : Machine) (x : Fin 16) : Nat :=
  if m.dialect.transferMovesIndex then (m.registers.index.toNat + x + 1) % 4096
  else m.registers.index.toNat

/-- Whether `n` has V0 to `V x` of `m` at the index of `m`, and all other bytes of `m`. -/
structure Stored (m n : Machine) (x : Fin 16) : Prop where
  bytes : ∀ j ≤ x,
    n.memory.bytes[m.registers.index.toNat + j.val]? = some (m.registers.get j)
  others : ∀ address,
    address < m.registers.index.toNat ∨ m.registers.index.toNat + x < address →
    n.memory.bytes[address]? = m.memory.bytes[address]?
  index : n.registers.index.toNat = m.indexAfterTransfer x

/-- Whether `n` has in V0 to `V x` the bytes at the index of `m`, and all other registers and
    the memory of `m`. -/
structure Loaded (m n : Machine) (x : Fin 16) : Prop where
  bytes : ∀ j ≤ x,
    m.memory.bytes[m.registers.index.toNat + j.val]? = some (n.registers.get j)
  others : ∀ j, x < j → n.registers.get j = m.registers.get j
  memory : n.memory = m.memory
  index : n.registers.index.toNat = m.indexAfterTransfer x

/-- Whether `n` has the decimal digits of `V x` of `m` at the index of `m`, and all other bytes
    and the index of `m`. -/
structure StoredDecimal (m n : Machine) (x : Fin 16) : Prop where
  digits : ∃ a b c : UInt8, a.toNat ≤ 9 ∧ b.toNat ≤ 9 ∧ c.toNat ≤ 9 ∧
    100 * a.toNat + 10 * b.toNat + c.toNat = (m.registers.get x).toNat ∧
    n.memory.bytes[m.registers.index.toNat]? = some a ∧
    n.memory.bytes[m.registers.index.toNat + 1]? = some b ∧
    n.memory.bytes[m.registers.index.toNat + 2]? = some c
  others : ∀ address,
    address < m.registers.index.toNat ∨ m.registers.index.toNat + 2 < address →
    n.memory.bytes[address]? = m.memory.bytes[address]?
  index : n.registers.index = m.registers.index

end Machine

/-! ## Registers, bytes and digits -/

theorem Registers.getElem?_upTo (r : Registers) {x j : Fin 16} (h : j ≤ x) :
    (r.upTo x)[j.val]? = some (r.get j) := by
  have hj : j.val < r.v.toList.length := by
    rw [Vector.length_toList]
    exact j.isLt
  have hlt : j.val < x.val + 1 := Nat.lt_succ_of_le h
  rw [upTo, List.getElem?_take_of_lt hlt, List.getElem?_eq_getElem hj]
  exact congrArg some (Vector.getElem_toList hj)

theorem Registers.toNat_index_afterTransfer (r : Registers) (dialect : Dialect) (x : Fin 16) :
    (r.afterTransfer dialect x).index.toNat =
      if dialect.transferMovesIndex then (r.index.toNat + x + 1) % 4096 else r.index.toNat := by
  have hx : x.val.toUInt16.toNat = x.val := by
    show x.val % 65536 = x.val
    omega
  unfold afterTransfer
  split
  · show (r.index + x.val.toUInt16 + 1).address.toNat = _
    rw [Word.toNat_address_add, UInt16.toNat_add, hx]
    show ((r.index.toNat + x.val) % 65536 + 1) % 4096 = _
    omega
  · rfl

theorem Machine.getElem?_bytesAtIndex {m : Machine} {length : Nat}
    (hfit : m.registers.index.toNat + length ≤ 4096) {j : Nat} (hj : j < length) :
    (m.bytesAtIndex length)[j]? = m.memory.bytes[m.registers.index.toNat + j]? := by
  rw [bytesAtIndex, dif_pos hfit, Memory.getElem?_slice _ _ _ hfit j hj,
    Vector.getElem?_eq_getElem]

theorem decimalDigits_eq (value : UInt8) : ∃ a b c : UInt8, decimalDigits value = [a, b, c] ∧
    a.toNat ≤ 9 ∧ b.toNat ≤ 9 ∧ c.toNat ≤ 9 ∧
    100 * a.toNat + 10 * b.toNat + c.toNat = value.toNat := by
  have hlt := value.toNat_lt
  refine ⟨_, _, _, rfl, ?_⟩
  simp only [UInt8.toNat_div, UInt8.toNat_mod, UInt8.reduceToNat]
  omega

namespace Machine

variable {m : Machine} {w : Word}

/-! ## Executing the words -/

/-- A word whose only obstacle are bytes at the index that do not exist succeeds exactly if
    they all exist, and then it is performed. -/
theorem execute_window {i : Instruction} {length : Nat} (hdecode : Instruction.decode w = i)
    (hobstacle : i.obstacle? m = m.rangeObstacle? length) :
    ((m.execute w).result = .ok () ↔ m.registers.index.toNat + length ≤ 4096) ∧
    ((m.execute w).result = .ok () → (m.execute w).machine = (m.performed i).complete w) := by
  subst hdecode
  by_cases hfit : m.registers.index.toNat + length ≤ 4096
  · have hnone : (Instruction.decode w).obstacle? m = none := hobstacle.trans (if_pos hfit)
    rw [execute_of_no_obstacle hnone]
    exact ⟨⟨fun _ => hfit, fun _ => rfl⟩, fun _ => rfl⟩
  · have hsome : (Instruction.decode w).obstacle? m =
        some (.addressOutOfRange (max m.registers.index.toNat 4096)) :=
      hobstacle.trans (if_neg hfit)
    -- such an obstacle is a fault under either policy
    have herror : (m.execute w).result ≠ .ok () := by
      rw [execute_of_obstacle hsome, if_neg]
      · exact nofun
      · exact fun h => nomatch h.1
    exact ⟨⟨fun hok => absurd hok herror, fun h => absurd h hfit⟩, fun hok => absurd hok herror⟩

theorem execute_storeRegisters (hw : w.StoresRegisters) :
    ((m.execute w).result = .ok () ↔ m.registers.index.toNat + w.x + 1 ≤ 4096) ∧
    ((m.execute w).result = .ok () → m.Stored (m.execute w).machine w.x) := by
  have hobstacle : (Instruction.storeRegisters w.x).obstacle? m = m.rangeObstacle? (w.x + 1) :=
    rfl
  obtain ⟨hiff, hmachine⟩ := execute_window (Instruction.decode_storeRegisters hw) hobstacle
  refine ⟨hiff, fun hok => ?_⟩
  have hfit := hiff.mp hok
  have hlength := m.registers.length_upTo w.x
  rw [hmachine hok]
  refine ⟨?_, ?_, ?_⟩
  · intro j hj
    show (m.memory.store _ (m.registers.upTo w.x)).bytes[_]? = _
    rw [m.memory.getElem?_store_add (by rw [hlength]; exact hfit),
      m.registers.getElem?_upTo hj, Option.some_or]
  · intro address houtside
    refine m.memory.getElem?_store ?_
    rw [hlength]
    omega
  · exact m.registers.toNat_index_afterTransfer m.dialect w.x

theorem execute_loadRegisters (hw : w.LoadsRegisters) :
    ((m.execute w).result = .ok () ↔ m.registers.index.toNat + w.x + 1 ≤ 4096) ∧
    ((m.execute w).result = .ok () → m.Loaded (m.execute w).machine w.x) := by
  have hobstacle : (Instruction.loadRegisters w.x).obstacle? m = m.rangeObstacle? (w.x + 1) :=
    rfl
  obtain ⟨hiff, hmachine⟩ := execute_window (Instruction.decode_loadRegisters hw) hobstacle
  refine ⟨hiff, fun hok => ?_⟩
  have hfit := hiff.mp hok
  rw [hmachine hok]
  -- a register holds its byte if there is one for it, and otherwise what it held
  have hget : ∀ j, ((m.performed (.loadRegisters w.x)).complete w).registers.get j =
      ((m.bytesAtIndex (w.x + 1))[j.val]?).getD (m.registers.get j) := by
    intro j
    show ((m.registers.setFirst _).afterTransfer m.dialect w.x).get j = _
    rw [Registers.get_afterTransfer, Registers.get_setFirst, List.getD_eq_getElem?_getD]
  refine ⟨?_, ?_, rfl, ?_⟩
  · intro j hj
    have hlt : j.val < w.x.val + 1 := Nat.lt_succ_of_le hj
    have hbyte : m.registers.index.toNat + j.val < 4096 := by omega
    rw [hget, getElem?_bytesAtIndex hfit hlt, Vector.getElem?_eq_getElem hbyte, Option.getD_some]
  · intro j hj
    have hlength := m.length_bytesAtIndex_le (w.x + 1)
    have hpast : (m.bytesAtIndex (w.x + 1)).length ≤ j.val := by omega
    rw [hget, List.getElem?_eq_none hpast, Option.getD_none]
  · show ((m.registers.setFirst _).afterTransfer m.dialect w.x).index.toNat = _
    rw [Registers.toNat_index_afterTransfer, Registers.setFirst_index]
    rfl

theorem execute_storeDecimal (hw : w.StoresDecimal) :
    ((m.execute w).result = .ok () ↔ m.registers.index.toNat + 3 ≤ 4096) ∧
    ((m.execute w).result = .ok () → m.StoredDecimal (m.execute w).machine w.x) := by
  have hobstacle : (Instruction.storeDecimal w.x).obstacle? m = m.rangeObstacle? 3 := rfl
  obtain ⟨hiff, hmachine⟩ := execute_window (Instruction.decode_storeDecimal hw) hobstacle
  refine ⟨hiff, fun hok => ?_⟩
  have hfit := hiff.mp hok
  rw [hmachine hok]
  obtain ⟨a, b, c, hdigits, ha, hb, hc, hsum⟩ := decimalDigits_eq (m.registers.get w.x)
  have hbyte : ∀ j, j < 3 →
      ((m.performed (.storeDecimal w.x)).complete w).memory.bytes[
        m.registers.index.toNat + j]? = [a, b, c][j]? := by
    intro j hj
    show (m.memory.store _ (decimalDigits _)).bytes[_]? = _
    rw [hdigits, m.memory.getElem?_store_add hfit, List.getElem?_eq_getElem hj, Option.some_or]
  refine ⟨⟨a, b, c, ha, hb, hc, hsum, ?_, ?_, ?_⟩, ?_, rfl⟩
  · exact hbyte 0 (by decide)
  · exact hbyte 1 (by decide)
  · exact hbyte 2 (by decide)
  · intro address houtside
    refine m.memory.getElem?_store ?_
    rw [length_decimalDigits]
    omega

end Machine

/-! ## What is written along a run -/

/-- Whether a call puts a program into memory: a load, or a reset. -/
def HostCall.Loads : HostCall → Prop
  | .loadProgram _ | .loadFile .. | .reset _ => True
  | _ => False

namespace Machine

/-- Whether a call executes a word that writes the byte at an address. -/
def Writes (m : Machine) (call : HostCall) (address : Nat) : Prop :=
  ∃ w, m.executed? call = some w ∧ m.MayChange w (.memory address)

/-- Whether some of a list of calls executes a word that writes the byte at an address. -/
def WritesAlong (m : Machine) (address : Nat) : List HostCall → Prop
  | [] => False
  | call :: calls => m.Writes call address ∨ (m.call call).machine.WritesAlong address calls

variable {m : Machine}

/-- A call that loads no program changes the bytes that the word that it executes writes. -/
theorem getElem?_call {call : HostCall} {address : Nat} (hloads : ¬ call.Loads)
    (h : ¬ m.Writes call address) :
    (m.call call).machine.memory.bytes[address]? = m.memory.bytes[address]? := by
  cases call with
  | cycle =>
      rcases m.cycle_sameIn (.memory address) nofun nofun with hsame | ⟨w, hw, hchange⟩
      · exact hsame
      · exact absurd ⟨w, hw, hchange⟩ h
  | execute w =>
      cases hresult : (m.execute w).result with
      -- what fails writes nothing, and what succeeds is a word that was executed
      | error error =>
          have hmemory : (m.call (.execute w)).machine.memory = m.memory :=
            congrArg memory (execute_machine_of_error hresult)
          rw [hmemory]
      | ok done =>
          have hexecuted : m.executed? (.execute w) = some w := executed?_of_ok hresult
          rcases execute_sameIn hresult (.memory address) with hsame | hchange
          · exact hsame
          · exact absurd ⟨w, hexecuted, hchange⟩ h
  | setKey number isDown =>
      have hmachine : (m.call (.setKey number isDown)).machine = _ :=
        m.setKey_machine number isDown
      rw [hmachine]
      rfl
  | loadProgram program => exact absurd trivial hloads
  | loadFile files path => exact absurd trivial hloads
  | reset files => exact absurd trivial hloads
  | tick | skipInstruction | clearScreen | seed | setDialect | setPolicy => rfl

/-- Only words of family F write bytes. -/
theorem not_writes_of_family {call : HostCall} {address : Nat}
    (h : ∀ w, m.executed? call = some w → w.family ≠ 0xF) : ¬ m.Writes call address := by
  rintro ⟨w, hw, hchange⟩
  cases hchange with
  | digits hfamily => exact h w hw hfamily
  | stored hfamily => exact h w hw hfamily

/-- A byte that no word writes stays, as long as no program is loaded. -/
theorem getElem?_afterCalls {calls : List HostCall} {address : Nat}
    (hloads : ∀ call ∈ calls, ¬ call.Loads) (h : ¬ m.WritesAlong address calls) :
    (m.afterCalls calls).memory.bytes[address]? = m.memory.bytes[address]? := by
  -- the calls after the first are about the machine that the first leaves
  induction calls generalizing m with
  | nil => rfl
  | cons call calls ih =>
      obtain ⟨hload, hothers⟩ := List.forall_mem_cons.mp hloads
      obtain ⟨hfirst, hrest⟩ := not_or.mp h
      rw [afterCalls_cons, ih hothers hrest, getElem?_call hload hfirst]

/-! ## There and back -/

/-- Registers that were stored, and whose bytes were not written since, come back when they are
    loaded from the same index. -/
theorem load_after_store {store load : HostCall} {between : List HostCall} {w u : Word}
    (hstore : m.executed? store = some w) (hw : w.StoresRegisters)
    (hloads : ∀ call ∈ between, ¬ call.Loads)
    (hkept : ∀ address, m.registers.index.toNat ≤ address →
      address ≤ m.registers.index.toNat + w.x →
      ¬ (m.call store).machine.WritesAlong address between)
    (hindex : (m.afterCalls (store :: between)).registers.index = m.registers.index)
    (hload : (m.afterCalls (store :: between)).attempted? load = some u)
    (hu : u.LoadsRegisters) (hx : u.x = w.x) :
    let n := ((m.afterCalls (store :: between)).call load)
    n.result = .ok () ∧ ∀ j ≤ w.x, n.machine.registers.get j = m.registers.get j := by
  obtain ⟨hcall, hok⟩ := call_of_executed hstore
  have hstored := (execute_storeRegisters hw).2 hok
  have hfit := (execute_storeRegisters hw).1.mp hok
  -- the bytes are still there when the load comes
  have hbytes : ∀ j ≤ w.x, (m.afterCalls (store :: between)).memory.bytes[
      m.registers.index.toNat + j.val]? = some (m.registers.get j) := by
    intro j hj
    have hnot := hkept (m.registers.index.toNat + j) (by omega) (by omega)
    rw [afterCalls_cons, getElem?_afterCalls hloads hnot, hcall]
    exact hstored.bytes j hj
  -- from here on only its bytes and its index matter
  generalize m.afterCalls (store :: between) = back at *
  obtain ⟨hiff, hloaded⟩ := execute_loadRegisters (m := back) hu
  have hsucceeds : (back.execute u).result = .ok () := by
    rw [hiff, hindex, hx]
    exact hfit
  rw [call_of_attempted hload]
  refine ⟨hsucceeds, fun j hj => ?_⟩
  have hbyte := (hloaded hsucceeds).bytes j (by rw [hx]; exact hj)
  rw [hindex, hbytes j hj] at hbyte
  exact (Option.some.inj hbyte).symm

/-! ## The laws -/

/-- The words that transfer bytes. FX55 and FX65 succeed exactly if the X + 1 bytes at the
    index exist, and FX33 exactly if three do. They store V0 to VX, load V0 to VX, and store
    the decimal digits of VX, and leave the other bytes and registers alone; the dialect says
    whether the first two move the index past the bytes. What FX55 stored and no word wrote
    over, FX65 loads again. -/
theorem transfer_laws (m : Machine) :
    (∀ w : Word, w.StoresRegisters →
      ((m.execute w).result = .ok () ↔ m.registers.index.toNat + w.x + 1 ≤ 4096) ∧
      ((m.execute w).result = .ok () → m.Stored (m.execute w).machine w.x)) ∧
    (∀ w : Word, w.LoadsRegisters →
      ((m.execute w).result = .ok () ↔ m.registers.index.toNat + w.x + 1 ≤ 4096) ∧
      ((m.execute w).result = .ok () → m.Loaded (m.execute w).machine w.x)) ∧
    (∀ w : Word, w.StoresDecimal →
      ((m.execute w).result = .ok () ↔ m.registers.index.toNat + 3 ≤ 4096) ∧
      ((m.execute w).result = .ok () → m.StoredDecimal (m.execute w).machine w.x)) ∧
    (∀ (store load : HostCall) (between : List HostCall) (w u : Word),
      m.executed? store = some w → w.StoresRegisters →
      (∀ call ∈ between, ¬ call.Loads) →
      (∀ address, m.registers.index.toNat ≤ address →
        address ≤ m.registers.index.toNat + w.x →
        ¬ (m.call store).machine.WritesAlong address between) →
      let back := m.afterCalls (store :: between)
      back.registers.index = m.registers.index →
      back.attempted? load = some u → u.LoadsRegisters → u.x = w.x →
      (back.call load).result = .ok () ∧
        ∀ j ≤ w.x, (back.call load).machine.registers.get j = m.registers.get j) :=
  ⟨fun _ hw => execute_storeRegisters hw, fun _ hw => execute_loadRegisters hw,
    fun _ hw => execute_storeDecimal hw,
    fun _ _ _ _ _ hstore hw hloads hkept hindex hload hu hx =>
      load_after_store hstore hw hloads hkept hindex hload hu hx⟩

/-- A machine with 7 in V0 and 9 in V1, and its index at 0x300. -/
def sevenAndNine : Machine :=
  { initial (.ofSeed 0) with
    registers := { (Registers.initial.set 0 7).set 1 9 with index := 0x300 } }

/-- Two registers are stored, one of them is set, a byte right behind them is stored, and the
    index goes back. -/
theorem transfer_laws_sevenAndNine :
    let between : List HostCall := [.execute 0x6005, .execute 0xF055, .execute 0xA300]
    let back := sevenAndNine.afterCalls (.execute 0xF155 :: between)
    (sevenAndNine.executed? (.execute 0xF155) = some 0xF155 ∧
      (∀ call ∈ between, ¬ call.Loads) ∧
      (∀ address, 0x300 ≤ address → address ≤ 0x301 →
        ¬ (sevenAndNine.call (.execute 0xF155)).machine.WritesAlong address between) ∧
      back.registers.index = 0x300 ∧ back.registers.get 0 = 5) ∧
    (back.call (.execute 0xF165)).machine.registers.get 0 = 7 ∧
    (back.call (.execute 0xF165)).machine.registers.get 1 = 9 := by
  intro between back
  have hstore : sevenAndNine.executed? (.execute 0xF155) = some 0xF155 := rfl
  have hloads : ∀ call ∈ between, ¬ call.Loads := by simp [between, HostCall.Loads]
  have hkept : ∀ address, 0x300 ≤ address → address ≤ 0x301 →
      ¬ (sevenAndNine.call (.execute 0xF155)).machine.WritesAlong address between := by
    intro address hfirst hlast
    -- only the second of the three words stores, and it stores one byte at 0x302
    rintro (hset | hstored | hindex | hnone)
    · exact not_writes_of_family (by rintro w ⟨⟩; decide) hset
    · obtain ⟨w, hw, hchange⟩ := hstored
      obtain rfl : 0xF055 = w := Option.some.inj hw
      cases hchange with
      | digits _ hbyte => exact absurd hbyte (by decide)
      | stored _ _ hbehind =>
          have hbehind : 0x302 ≤ address := hbehind
          omega
    · exact not_writes_of_family (by rintro w ⟨⟩; decide) hindex
    · exact hnone
  have hindex : back.registers.index = 0x300 := rfl
  have hback := (transfer_laws sevenAndNine).2.2.2 (.execute 0xF155) (.execute 0xF165) between
    0xF155 0xF165 hstore ⟨rfl, rfl⟩ hloads hkept hindex rfl ⟨rfl, rfl⟩ rfl
  exact ⟨⟨hstore, hloads, hkept, hindex, rfl⟩, hback.2 0 (by decide), hback.2 1 (by decide)⟩

end Machine

end Chip8
