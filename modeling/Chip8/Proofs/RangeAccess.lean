/-
  Chip8.Proofs.RangeAccess

  Ranges of memory and single bytes. A range that is read has the bytes that are read at its
  addresses one by one, and a range that cannot be read fails as the first of its bytes that
  cannot (`Memory.exists_first_failing_read`). A range that is written comes to the same as its
  bytes written one by one, as long as they all exist. If they do not, the bytes one by one
  leave those that fit (`Writing.each_of_lt`), and the range leaves the memory as it was.
-/
import Chip8.Proofs.Footprint

namespace Chip8

/-- A change of the memory that may fail. An error keeps the memory as it is at that point. -/
abbrev Writing := EStateM Error Memory Unit

namespace Writing

/-- Writes a byte. -/
def byte (address : Nat) (value : UInt8) : Writing :=
  fun m => match m.write address value with
    | .ok after => .ok () after
    | .error error => .error error m

/-- Writes a range. -/
def range (address : Nat) (values : List UInt8) : Writing :=
  fun m => match m.writeRange address values with
    | .ok after => .ok () after
    | .error error => .error error m

/-- Writes bytes one after the other, up to the first that fails. -/
def each (address : Nat) : List UInt8 → Writing
  | [] => return ()
  | value :: values => do
    byte address value
    each (address + 1) values

end Writing

/-! ## Reading -/

namespace Memory

variable (m : Memory)

theorem read_of_lt {address : Nat} (h : address < 4096) :
    m.read address = .ok m.bytes[address] :=
  dif_pos h

theorem read_of_le {address : Nat} (h : 4096 ≤ address) :
    m.read address = .error (.addressOutOfRange address) :=
  dif_neg (Nat.not_lt.mpr h)

theorem readRange_of_le {address length : Nat} (h : address + length ≤ 4096) :
    m.readRange address length = .ok (m.slice address length h) :=
  dif_pos h

theorem readRange_of_lt {address length : Nat} (h : 4096 < address + length) :
    m.readRange address length = .error (.addressOutOfRange (max address 4096)) :=
  dif_neg (Nat.not_le.mpr h)

theorem writeRange_of_le {address : Nat} {values : List UInt8}
    (h : address + values.length ≤ 4096) :
    m.writeRange address values = .ok (m.store address values) :=
  if_pos h

theorem writeRange_of_lt {address : Nat} {values : List UInt8}
    (h : 4096 < address + values.length) :
    m.writeRange address values = .error (.addressOutOfRange (max address 4096)) :=
  if_neg (Nat.not_le.mpr h)

theorem readRange_eq_ok {m : Memory} {address length : Nat} {bytes : List UInt8}
    (h : m.readRange address length = .ok bytes) :
    ∃ hfit : address + length ≤ 4096, m.slice address length hfit = bytes := by
  rcases Nat.lt_or_ge 4096 (address + length) with hpast | hfit
  · rw [m.readRange_of_lt hpast] at h
    cases h
  · rw [m.readRange_of_le hfit] at h
    exact ⟨hfit, Except.ok.inj h⟩

theorem writeRange_eq_ok {m after : Memory} {address : Nat} {values : List UInt8}
    (h : m.writeRange address values = .ok after) :
    address + values.length ≤ 4096 ∧ m.store address values = after := by
  rcases Nat.lt_or_ge 4096 (address + values.length) with hpast | hfit
  · rw [m.writeRange_of_lt hpast] at h
    cases h
  · rw [m.writeRange_of_le hfit] at h
    exact ⟨hfit, Except.ok.inj h⟩

/-- Byte `i` of a range is the byte that is read `i` addresses after its start. -/
theorem read_eq_getElem_slice {address length : Nat} (hfit : address + length ≤ 4096) {i : Nat}
    (hi : i < (m.slice address length hfit).length) :
    m.read (address + i) = .ok (m.slice address length hfit)[i] := by
  have hlt : i < length := by
    rwa [length_slice] at hi
  have hbyte := m.getElem?_slice address length hfit i hlt
  rw [List.getElem?_eq_getElem hi, Option.some_inj] at hbyte
  rw [m.read_of_lt (by omega), hbyte]

/-- Among the addresses of a range that leaves the memory, the first that cannot be read is the
    larger of its start and 4096. -/
theorem exists_first_failing_read {address length : Nat} (hpast : 4096 < address + length)
    (hlength : 0 < length) :
    ∃ i < length, (∀ j < i, ∃ byte, m.read (address + j) = .ok byte) ∧
      m.read (address + i) = .error (.addressOutOfRange (max address 4096)) := by
  refine ⟨max address 4096 - address, by omega, ?_, ?_⟩
  · intro j hj
    exact ⟨_, m.read_of_lt (by omega)⟩
  · have hfirst : address + (max address 4096 - address) = max address 4096 := by omega
    rw [hfirst]
    exact m.read_of_le (by omega)

end Memory

/-! ## Writing -/

namespace Writing

variable (m : Memory)

theorem byte_of_lt {address : Nat} (value : UInt8) (h : address < 4096) :
    byte address value m = .ok () (m.put address value) := by
  rw [byte, Memory.write, if_pos h]

theorem byte_of_le {address : Nat} (value : UInt8) (h : 4096 ≤ address) :
    byte address value m = .error (.addressOutOfRange address) m := by
  rw [byte, Memory.write, if_neg (Nat.not_lt.mpr h)]

/-- Bytes that all exist are written one after the other as they are stored together. -/
theorem each_of_le {address : Nat} {values : List UInt8}
    (h : address + values.length ≤ 4096) :
    each address values m = .ok () (m.store address values) := by
  induction values generalizing m address with
  | nil => rfl
  | cons value values ih =>
      rw [List.length_cons] at h
      have hbyte := byte_of_lt m value (show address < 4096 by omega)
      have hrest := ih (m.put address value) (show address + 1 + values.length ≤ 4096 by omega)
      simp only [each, bind, EStateM.bind, hbyte, hrest, Memory.store]

/-- Where the memory ends before the bytes do, those that fit are written one after the other
    before the first of the others fails. -/
theorem each_of_lt {address : Nat} {values : List UInt8}
    (h : 4096 < address + values.length) (hne : values ≠ []) :
    each address values m =
      .error (.addressOutOfRange (max address 4096))
        (m.store address (values.take (4096 - address))) := by
  induction values generalizing m address with
  | nil => exact absurd rfl hne
  | cons value values ih =>
      rw [List.length_cons] at h
      by_cases hlt : address < 4096
      · -- this byte fits, so there is another one that does not
        have hothers : values ≠ [] := by
          rintro rfl
          rw [List.length_nil] at h
          omega
        have hbyte := byte_of_lt m value hlt
        have hrest := ih (m.put address value) (show 4096 < address + 1 + values.length by omega)
          hothers
        have hmax : max (address + 1) 4096 = max address 4096 := by omega
        have hroom : 4096 - address = 4096 - (address + 1) + 1 := by omega
        simp only [each, bind, EStateM.bind, hbyte, hrest, hmax]
        rw [hroom, List.take_succ_cons, Memory.store]
      · have hge := Nat.not_lt.mp hlt
        have hmax : max address 4096 = address := by omega
        have hroom : 4096 - address = 0 := by omega
        simp only [each, bind, EStateM.bind, byte_of_le m value hge, hmax]
        rw [hroom, List.take_zero, Memory.store]

theorem range_of_le {address : Nat} {values : List UInt8}
    (h : address + values.length ≤ 4096) :
    range address values m = .ok () (m.store address values) := by
  rw [range, m.writeRange_of_le h]

theorem range_of_lt {address : Nat} {values : List UInt8}
    (h : 4096 < address + values.length) :
    range address values m = .error (.addressOutOfRange (max address 4096)) m := by
  rw [range, m.writeRange_of_lt h]

end Writing

/-! ## Reading after writing -/

namespace Memory

variable (m : Memory)

/-- After values were stored, each address has the value that was stored there, or what it had
    if there was none. -/
theorem getElem?_store_cases {start : Nat} {values : List UInt8}
    (hfit : start + values.length ≤ 4096) (address : Nat) :
    (m.store start values).bytes[address]? =
      if start ≤ address ∧ address < start + values.length then values[address - start]?
      else m.bytes[address]? := by
  split
  · next hinside =>
    have hlt : address < 4096 := by omega
    have hvalue : address - start < values.length := by omega
    rw [Vector.getElem?_eq_getElem hlt, store_bytes_getElem, if_pos hinside.1,
      List.getD_eq_getElem?_getD, List.getElem?_eq_getElem hvalue, Option.getD_some]
  · next houtside => exact m.getElem?_store (by omega)

/-- Byte by byte, a range that is read after a write has what was written, or what was there
    before where nothing was written. -/
theorem getElem?_readRange_writeRange {m after : Memory} {address : Nat} {values : List UInt8}
    (hwrite : m.writeRange address values = .ok after) {start length : Nat} {bytes : List UInt8}
    (hread : after.readRange start length = .ok bytes) {i : Nat} (hi : i < length) :
    bytes[i]? =
      if address ≤ start + i ∧ start + i < address + values.length then
        values[start + i - address]?
      else m.bytes[start + i]? := by
  obtain ⟨hwritten, rfl⟩ := writeRange_eq_ok hwrite
  obtain ⟨hfit, rfl⟩ := readRange_eq_ok hread
  have hlt : start + i < 4096 := by omega
  rw [getElem?_slice _ start length hfit i hi, ← Vector.getElem?_eq_getElem hlt]
  exact m.getElem?_store_cases hwritten (start + i)

/-- A range can be read exactly if it ends at 4096 or before, and then has the bytes that are
    read one by one; if it cannot, and is not empty, its error is that of the first of its bytes
    that cannot be read. A range can be written exactly if it ends at 4096 or before, and then
    leaves what its bytes leave that are written one by one; if it cannot, its error is the same
    as for reading and nothing is written. A range that is read after another was written has
    what was written where they overlap, and elsewhere the bytes from before. -/
theorem ranges_agree_with_bytes (m : Memory) :
    (∀ address length,
      if address + length ≤ 4096 then
        ∃ bytes, m.readRange address length = .ok bytes ∧ bytes.length = length ∧
          ∀ i (h : i < bytes.length), m.read (address + i) = .ok bytes[i]
      else
        m.readRange address length = .error (.addressOutOfRange (max address 4096)) ∧
        (0 < length → ∃ i < length,
          (∀ j < i, ∃ byte, m.read (address + j) = .ok byte) ∧
          m.read (address + i) = .error (.addressOutOfRange (max address 4096)))) ∧
    (∀ address values,
      if address + values.length ≤ 4096 then
        ∃ after, m.writeRange address values = .ok after ∧
          Writing.range address values m = .ok () after ∧
          Writing.each address values m = .ok () after
      else
        m.writeRange address values = .error (.addressOutOfRange (max address 4096)) ∧
        Writing.range address values m = .error (.addressOutOfRange (max address 4096)) m ∧
        (values ≠ [] → ∃ torn,
          Writing.each address values m = .error (.addressOutOfRange (max address 4096)) torn)) ∧
    (∀ address values after, m.writeRange address values = .ok after →
      ∀ start length bytes, after.readRange start length = .ok bytes →
      ∀ i < length, bytes[i]? =
        if address ≤ start + i ∧ start + i < address + values.length then
          values[start + i - address]?
        else m.bytes[start + i]?) := by
  refine ⟨fun address length => ?_, fun address values => ?_, ?_⟩
  · split
    · next hfit =>
      exact ⟨_, m.readRange_of_le hfit, m.length_slice address length hfit,
        fun i hi => m.read_eq_getElem_slice hfit hi⟩
    · next hpast =>
      have hlt := Nat.not_le.mp hpast
      exact ⟨m.readRange_of_lt hlt, fun hlength => m.exists_first_failing_read hlt hlength⟩
  · split
    · next hfit =>
      exact ⟨_, m.writeRange_of_le hfit, Writing.range_of_le m hfit, Writing.each_of_le m hfit⟩
    · next hpast =>
      have hlt := Nat.not_le.mp hpast
      exact ⟨m.writeRange_of_lt hlt, Writing.range_of_lt m hlt,
        fun hne => ⟨_, Writing.each_of_lt m hlt hne⟩⟩
  · intro address values after hwrite start length bytes hread i hi
    exact getElem?_readRange_writeRange hwrite hread hi

/-- Three bytes do not fit at 0xFFE. At 0xFFC they do, and a range from the address before them
    on has them behind a byte that is still zero. -/
theorem ranges_agree_with_bytes_atEnd :
    let m : Memory := ⟨Vector.replicate 4096 0⟩
    (¬ 0xFFE + 3 ≤ 4096 ∧ 0 < 3 ∧ [(1 : UInt8), 2, 3] ≠ []) ∧
    (∃ i < 3, m.read (0xFFE + i) = .error (.addressOutOfRange 0x1000)) ∧
    (∃ torn, Writing.each 0xFFE [1, 2, 3] m = .error (.addressOutOfRange 0x1000) torn) ∧
    ∃ after bytes, m.writeRange 0xFFC [1, 2, 3] = .ok after ∧
      after.readRange 0xFFB 4 = .ok bytes ∧ bytes[0]? = some 0 ∧ bytes[3]? = some 3 := by
  intro m
  obtain ⟨hread, hwrite, hoverlay⟩ := ranges_agree_with_bytes m
  have hpast : ¬ 0xFFE + 3 ≤ 4096 := by decide
  obtain ⟨-, hfirst⟩ := (if_neg hpast).mp (hread 0xFFE 3)
  obtain ⟨i, hi, -, hfails⟩ := hfirst (by decide)
  obtain ⟨-, -, htorn⟩ := (if_neg hpast).mp (hwrite 0xFFE [1, 2, 3])
  have hwritten : m.writeRange 0xFFC [1, 2, 3] = .ok (m.store 0xFFC [1, 2, 3]) :=
    m.writeRange_of_le (by decide)
  have hback := (m.store 0xFFC [1, 2, 3]).readRange_of_le (show 0xFFB + 4 ≤ 4096 by decide)
  have hbytes := hoverlay 0xFFC [1, 2, 3] _ hwritten 0xFFB 4 _ hback
  refine ⟨⟨hpast, by decide, by decide⟩, ⟨i, hi, hfails⟩, htorn (by decide), _, _, hwritten, hback,
    ?_, ?_⟩
  · rw [hbytes 0 (by decide)]
    simp [m]
  · rw [hbytes 3 (by decide)]
    rfl

end Memory

end Chip8
