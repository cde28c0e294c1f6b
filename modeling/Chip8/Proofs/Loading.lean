/-
  Chip8.Proofs.Loading

  Programs loaded over one another. A load brings bytes, from the host itself or from a
  file, and they are a program if they can be read and fit into memory (`Load.program`). A
  load without a program is refused and leaves no trace; one with a program writes its bytes,
  remembers the file that they came from, and does nothing else (`call_load`). So what some
  loads leave at a place is the byte of the last program that reaches it, and behind a
  shorter program the end of a longer one stays (`afterLoads_last`, `getElem?_call_load`).
-/
import Chip8.Proofs.Trace

namespace Chip8

/-- A call that brings a program: from the host itself, or from a file. The files are those
    at the time of the call. -/
inductive Load where
  | bytes (contents : List UInt8)
  | file (files : FileSystem) (path : String)

namespace Load

/-- The call that a load makes. -/
def call : Load → HostCall
  | .bytes contents => .loadProgram contents
  | .file files path => .loadFile files path

/-- What a load brings, or why it brings nothing. -/
def contents : Load → Except FileError (List UInt8)
  | .bytes contents => .ok contents
  | .file files path => files path

/-- The file that a load names, if it names one. -/
def path? : Load → Option String
  | .bytes _ => none
  | .file _ path => some path

/-- The program of a load. It has none if its file cannot be read or if it brings more than
    3584 bytes. -/
def program (load : Load) : Except Error (List UInt8) :=
  match load.contents with
  | .error reason => .error (.file reason)
  | .ok contents =>
    if 3584 < contents.length then .error (.programTooLarge contents.length 3584)
    else .ok contents

/-- Byte `j` of the program of a load, if it has a program of more than `j` bytes. -/
def byte? (load : Load) (j : Nat) : Option UInt8 :=
  load.program.toOption.bind fun program => program[j]?

/-- The file of a load that names one and has a program. -/
def source? (load : Load) : Option String :=
  load.program.toOption.bind fun _ => load.path?

theorem length_le_of_program {load : Load} {program : List UInt8}
    (h : load.program = .ok program) : program.length ≤ 3584 := by
  unfold Load.program at h
  split at h
  · cases h
  · split at h
    · cases h
    · next hsize =>
      cases h
      exact Nat.not_lt.mp hsize

theorem byte?_of_refused {load : Load} {error : Error} (h : load.program = .error error)
    (j : Nat) : load.byte? j = none := by
  rw [byte?, h]
  rfl

theorem byte?_of_accepted {load : Load} {program : List UInt8}
    (h : load.program = .ok program) (j : Nat) : load.byte? j = program[j]? := by
  rw [byte?, h]
  rfl

theorem source?_of_refused {load : Load} {error : Error} (h : load.program = .error error) :
    load.source? = none := by
  rw [source?, h]
  rfl

theorem source?_of_accepted {load : Load} {program : List UInt8}
    (h : load.program = .ok program) : load.source? = load.path? := by
  rw [source?, h]
  rfl

end Load

/-- Values stored at the start of a range are there, and after them what was there before. -/
theorem Memory.getElem?_store_add {values : List UInt8} {start : Nat} (m : Memory)
    (hfit : start + values.length ≤ 4096) (j : Nat) :
    (m.store start values).bytes[start + j]? = values[j]?.or m.bytes[start + j]? := by
  by_cases hlt : start + j < 4096
  · rw [Vector.getElem?_eq_getElem hlt, Vector.getElem?_eq_getElem hlt, store_bytes_getElem,
      if_pos (Nat.le_add_right ..), Nat.add_sub_cancel_left, List.getD_eq_getElem?_getD,
      Option.or_some]
  · have hge := Nat.not_lt.mp hlt
    have hpast : values.length ≤ j := by omega
    rw [Vector.getElem?_eq_none hge, Vector.getElem?_eq_none hge,
      List.getElem?_eq_none hpast, Option.or_none]

/-! ## One load -/

namespace Machine

/-- The machine with a program in memory, and the file it came from, if it came from one. -/
def loaded (m : Machine) (program : List UInt8) (path? : Option String) : Machine :=
  { m with
    memory := m.memory.store Memory.programStart program
    source := path?.or m.source }

theorem loadProgram_eq (m : Machine) (contents : List UInt8) :
    m.loadProgram contents =
      if 3584 < contents.length then .failed (.programTooLarge contents.length 3584) m
      else ⟨.ok (), m.loaded contents none, [.programLoaded contents.length]⟩ := by
  have hlimit : Memory.programLimit = 3584 := rfl
  by_cases h : 3584 < contents.length
  · have hlong : ¬ contents.length ≤ Memory.programLimit := by omega
    rw [if_pos h, loadProgram, Memory.loadProgram, if_neg hlong, hlimit]
  · have hfits : contents.length ≤ Memory.programLimit := by omega
    rw [if_neg h, loadProgram, Memory.loadProgram, if_pos hfits]
    rfl

/-- A load without a program is refused and leaves the machine as it was. One with a program
    leaves it loaded. -/
theorem call_load (m : Machine) (load : Load) :
    m.call load.call = match load.program with
      | .error error => .failed error m
      | .ok program =>
        ⟨.ok (), m.loaded program load.path?, [.programLoaded program.length]⟩ := by
  cases load with
  | bytes contents =>
      have hcall : m.call (Load.bytes contents).call = m.loadProgram contents := rfl
      rw [hcall, loadProgram_eq, Load.program, Load.contents]
      split
      · next h => simp only [if_pos h]
      · next h => simp only [if_neg h, Load.path?]
  | file files path =>
      have hcall : m.call (Load.file files path).call = m.loadFile files path := rfl
      rw [hcall, loadFile, Load.program, Load.contents]
      cases files path with
      | error reason => rfl
      | ok contents =>
          simp only [loadProgram_eq]
          split
          · rfl
          · rfl

variable {m : Machine} {load : Load}

theorem call_of_refused {error : Error} (h : load.program = .error error) :
    m.call load.call = .failed error m := by
  rw [call_load, h]

theorem call_of_accepted {program : List UInt8} (h : load.program = .ok program) :
    (m.call load.call).machine = m.loaded program load.path? := by
  rw [call_load, h]

/-- A load leaves the bytes of its program from the start of the programs on, and behind
    them what was there. -/
theorem getElem?_call_load (m : Machine) (load : Load) (j : Nat) :
    (m.call load.call).machine.memory.bytes[0x200 + j]? =
      (load.byte? j).or m.memory.bytes[0x200 + j]? := by
  cases h : load.program with
  | error error =>
      rw [call_of_refused h, Load.byte?_of_refused h, Option.none_or]
      rfl
  | ok program =>
      have hsize := Load.length_le_of_program h
      have hfit : 0x200 + program.length ≤ 4096 := by omega
      rw [call_of_accepted h, Load.byte?_of_accepted h]
      exact m.memory.getElem?_store_add hfit j

theorem source_call_load (m : Machine) (load : Load) :
    (m.call load.call).machine.source = load.source?.or m.source := by
  cases h : load.program with
  | error error =>
      rw [call_of_refused h, Load.source?_of_refused h, Option.none_or]
      rfl
  | ok program =>
      rw [call_of_accepted h, Load.source?_of_accepted h]
      rfl

/-- Two machines that differ at most in the memory of programs and in the file. -/
structure SameButProgram (m n : Machine) : Prop where
  low : ∀ address < 0x200, n.memory.bytes[address]? = m.memory.bytes[address]?
  others : n = { m with memory := n.memory, source := n.source }

theorem call_load_sameButProgram {n : Machine} (h : m.SameButProgram n) (load : Load) :
    m.SameButProgram (n.call load.call).machine := by
  cases hload : load.program with
  | error error =>
      rw [call_of_refused hload]
      exact h
  | ok program =>
      rw [call_of_accepted hload]
      refine ⟨fun address hlow => ?_, ?_⟩
      · exact (n.memory.getElem?_store (Or.inl hlow)).trans (h.low address hlow)
      · rw [loaded, h.others]

/-! ## Any number of loads -/

/-- The machine after some loads, refused ones included. -/
def afterLoads (m : Machine) (loads : List Load) : Machine :=
  m.afterCalls (loads.map Load.call)

end Machine

theorem getLast?_filterMap_cons {α β : Type} (f : α → Option β) (x : α) (xs : List α) :
    ((x :: xs).filterMap f).getLast? = (xs.filterMap f).getLast?.or (f x) := by
  rw [List.filterMap_cons]
  cases f x with
  | none => rw [Option.or_none]
  | some y => rw [List.getLast?_cons, Option.or_some]

namespace Machine

/-- Where each load may leave something in the place of what was there, some loads leave
    what the last of them leaves that leaves anything. -/
theorem afterLoads_last {α : Type} (view : Machine → Option α) (left? : Load → Option α)
    (hload : ∀ m load, view (m.call (Load.call load)).machine = (left? load).or (view m))
    (m : Machine) (loads : List Load) :
    view (m.afterLoads loads) = (loads.filterMap left?).getLast?.or (view m) := by
  induction loads generalizing m with
  | nil => rfl
  | cons load loads ih =>
      have hrest : m.afterLoads (load :: loads) =
          (m.call load.call).machine.afterLoads loads := rfl
      rw [hrest, ih, hload, getLast?_filterMap_cons, Option.or_assoc]

/-- Loads change nothing but the memory of programs and the file. -/
theorem afterLoads_sameButProgram (m : Machine) (loads : List Load) :
    m.SameButProgram (m.afterLoads loads) := by
  refine afterCalls_induction (P := m.SameButProgram) _ ⟨fun _ _ => rfl, rfl⟩ ?_
  intro n hn call hcall
  obtain ⟨load, -, rfl⟩ := List.mem_map.mp hcall
  exact call_load_sameButProgram hn load

/-- So does loading a file if there is a path, as a boot and a reset do. -/
theorem loadFile?_sameButProgram (m : Machine) (files : FileSystem) (path? : Option String) :
    m.SameButProgram (m.loadFile? files path?).machine := by
  cases path? with
  | none => exact m.afterLoads_sameButProgram []
  | some path => exact m.afterLoads_sameButProgram [.file files path]

/-- A load succeeds exactly if it has a program, that is, if its bytes can be read and are at
    most 3584; otherwise it leaves the machine as it was. After some loads, byte `j` behind
    the start of the programs is byte `j` of the last program with more than `j` bytes, and
    the file is that of the last load from a file that has a program; where there is no such
    load, both are as they were. Nothing else has changed. -/
theorem loads_overlay (m : Machine) (loads : List Load) :
    (∀ (n : Machine) (load : Load),
      match load.program with
      | .ok _ => (n.call load.call).result = .ok ()
      | .error error => n.call load.call = .failed error n) ∧
    let n := m.afterLoads loads
    (∀ j, n.memory.bytes[0x200 + j]? =
      (loads.filterMap fun load => load.byte? j).getLast?.or m.memory.bytes[0x200 + j]?) ∧
    n.source = (loads.filterMap Load.source?).getLast?.or m.source ∧
    m.SameButProgram n := by
  refine ⟨fun n load => ?_, fun j => ?_, ?_, m.afterLoads_sameButProgram loads⟩
  · split
    · next program h => rw [call_load, h]
    · next error h => exact call_of_refused h
  · exact afterLoads_last (fun m => m.memory.bytes[0x200 + j]?) (fun load => load.byte? j)
      (fun m load => m.getElem?_call_load load j) m loads
  · exact afterLoads_last source Load.source? source_call_load m loads

/-- Behind the end of a shorter program, a longer one is still there. -/
example :
    ([Load.bytes [1, 2, 3], .bytes [4]].filterMap fun load => load.byte? 1).getLast? = some 2 :=
  rfl

end Machine

end Chip8
