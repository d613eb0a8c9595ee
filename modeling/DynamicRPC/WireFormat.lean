import DynamicRPC.Types

namespace DynamicRPC
open Outcome LittleEndian

/-- Records that a buffer starts with. A `d_void` record takes its type byte
and the eight bytes behind it, which nobody reads. -/
inductive Records : List UInt8 → List DrpcType → Prop
  | none (memory : List UInt8) : Records memory []
  | void {memory : List UInt8} {records : List DrpcType} (rest : Records (memory.drop 8) records) :
      Records (DrpcTypes.dVoid.toChar :: memory) (⟨DrpcTypes.dVoid.toChar, []⟩ :: records)
  | data {memory : List UInt8} {t : DrpcType} {records : List DrpcType} (nonvoid : t.type ≠ DrpcTypes.dVoid.toChar)
      (fits : t.packedData.length < 2 ^ 64) (rest : Records memory records) :
      Records (drpcBuf t ++ memory) (t :: records)

/-- A buffer that starts with a counted table of records. -/
def RecordTable (buf : List UInt8) (records : List DrpcType) : Prop :=
  ∃ memory, buf = u64 records.length ++ memory ∧ records.length < 2 ^ 64 ∧ Records memory records

/-- What the record of a struct field holds: the key and the memory of the value. -/
structure WireField where
  key : CString
  type : UInt8
  value : List UInt8

def WireField.record (field : WireField) : DrpcType := ⟨field.type, field.key.block ++ field.value⟩

/-- A buffer with the record table of a struct: every record but the `d_void`
ones is a field. -/
def FieldTable (buf : List UInt8) (fields : List WireField) : Prop :=
  ∃ records, RecordTable buf records ∧
    records.filter (fun t => t.type ≠ DrpcTypes.dVoid.toChar) = fields.map WireField.record

/-- What a decoder takes a buffer for. -/
inductive Part
  | element (type : UInt8)
  | array
  | struct
  | queue

/-- A buffer that is whole: every count, length and NUL in it holds within it,
at every depth, and the keys of an array are its first indices. -/
inductive Whole : Part → List UInt8 → Prop
  | plain {type : UInt8} {memory : List UInt8} {t : DrpcType} (notArray : type ≠ DrpcTypes.dArray.toChar)
      (notStruct : type ≠ DrpcTypes.dStruct.toChar) (notQueue : type ≠ DrpcTypes.dQueue.toChar)
      (record : Records memory [t]) : Whole (.element type) memory
  | nestedArray {memory : List UInt8} {t : DrpcType} (record : Records memory [t]) (inner : Whole .array t.packedData) :
      Whole (.element DrpcTypes.dArray.toChar) memory
  | nestedStruct {memory : List UInt8} {t : DrpcType} (record : Records memory [t])
      (inner : Whole .struct t.packedData) : Whole (.element DrpcTypes.dStruct.toChar) memory
  | nestedQueue {memory : List UInt8} {t : DrpcType} (record : Records memory [t]) (inner : Whole .queue t.packedData) :
      Whole (.element DrpcTypes.dQueue.toChar) memory
  | array {buf : List UInt8} {fields : List WireField} (table : FieldTable buf fields)
      (each : ∀ field ∈ fields, Whole (.element field.type) field.value) (distinct : (fields.map WireField.key).Nodup)
      (within : ∀ field ∈ fields, CString.toSizeT (CString.atol field.key) < fields.length) : Whole .array buf
  | struct {buf : List UInt8} {fields : List WireField} (table : FieldTable buf fields)
      (each : ∀ field ∈ fields, Whole (.element field.type) field.value) : Whole .struct buf
  | queue {buf : List UInt8} {records : List DrpcType} (table : RecordTable buf records)
      (each : ∀ t ∈ records, t.type ≠ DrpcTypes.dVoid.toChar → Whole (.element t.type) t.packedData) : Whole .queue buf

/-- `buf_drpc` reads one record and stops behind it. -/
theorem bufDrpc_inv {memory rest : List UInt8} {t : DrpcType} (run : bufDrpc memory = .ok (t, rest)) :
    (t = ⟨DrpcTypes.dVoid.toChar, []⟩ ∧ ∃ tail, memory = DrpcTypes.dVoid.toChar :: tail ∧ rest = tail.drop 8) ∨
      (t.type ≠ DrpcTypes.dVoid.toChar ∧ t.packedData.length < 2 ^ 64 ∧ memory = drpcBuf t ++ rest) := by
  cases memory with
  | nil => cases run
  | cons type tail =>
    rw [bufDrpc] at run
    split at run
    · next void =>
      cases run
      rw [void]
      exact .inl ⟨rfl, tail, rfl, rfl⟩
    · next nonvoid =>
      obtain ⟨⟨len, body⟩, read, found⟩ := bind_eq_ok.mp run
      obtain ⟨rfl, fits⟩ := readU64_eq_ok.mp read
      dsimp only at found
      split at found
      · cases found
      · next long =>
        cases found
        have taken : (body.take len).length = len := by
          rw [List.length_take]
          omega
        refine .inr ⟨nonvoid, by rw [taken]; exact fits, ?_⟩
        simp only [drpcBuf, taken, nonvoid, if_false, List.cons_append, List.append_assoc, List.take_append_drop]

namespace Records
variable {memory : List UInt8} {t : DrpcType} {records : List DrpcType}

theorem read_cons : Records memory (t :: records) ↔ ∃ rest, bufDrpc memory = .ok (t, rest) ∧ Records rest records := by
  constructor
  · intro split
    cases split with
    | void rest => exact ⟨_, by rw [bufDrpc, if_pos rfl]; rfl, rest⟩
    | data nonvoid fits rest => exact ⟨_, bufDrpc_drpcBuf (.of_ne nonvoid) fits _, rest⟩
  · rintro ⟨rest, run, later⟩
    obtain ⟨rfl, tail, rfl, rfl⟩ | ⟨nonvoid, fits, rfl⟩ := bufDrpc_inv run
    · exact .void later
    · exact .data nonvoid fits later

theorem read_one : Records memory [t] ↔ ∃ rest, bufDrpc memory = .ok (t, rest) := by
  rw [read_cons]
  exact exists_congr fun rest => and_iff_left (.none rest)

theorem read_all {count : Nat} :
    (∃ rest, bufDrpcRecords count memory = .ok (records, rest)) ↔ records.length = count ∧ Records memory records := by
  induction count generalizing memory records with
  | zero =>
    constructor
    · rintro ⟨rest, run⟩
      cases run
      exact ⟨rfl, .none memory⟩
    · rintro ⟨empty, -⟩
      rw [List.eq_nil_of_length_eq_zero empty]
      exact ⟨memory, rfl⟩
  | succ count ih =>
    constructor
    · rintro ⟨rest, run⟩
      obtain ⟨⟨t, middle⟩, first, run⟩ := bind_eq_ok.mp run
      obtain ⟨⟨later, last⟩, others, same⟩ := bind_eq_ok.mp run
      cases same
      obtain ⟨length, split⟩ := ih.mp ⟨_, others⟩
      exact ⟨congrArg Nat.succ length, read_cons.mpr ⟨middle, first, split⟩⟩
    · rintro ⟨length, split⟩
      cases records with
      | nil => cases length
      | cons t records =>
        obtain ⟨middle, first, later⟩ := read_cons.mp split
        obtain ⟨rest, others⟩ := ih.mpr ⟨Nat.succ.inj length, later⟩
        refine ⟨rest, ?_⟩
        rw [bufDrpcRecords, first, ok_bind]
        dsimp only
        rw [others]
        rfl

/-- The data of a record is shorter than the memory it was read from. -/
theorem length_lt (split : Records memory records) (member : t ∈ records) : t.packedData.length < memory.length := by
  induction split with
  | none => cases member
  | void rest ih =>
    obtain rfl | later := List.mem_cons.mp member
    · exact Nat.succ_pos _
    · have bound := ih later
      rw [List.length_drop] at bound
      rw [List.length_cons]
      omega
  | data nonvoid fits rest ih =>
    rw [List.length_append, drpcBuf_length (.of_ne nonvoid), DrpcType.buflen]
    obtain rfl | later := List.mem_cons.mp member
    · omega
    · have bound := ih later
      omega

end Records

theorem RecordTable.read_iff {buf : List UInt8} {records : List DrpcType} :
    RecordTable buf records ↔ ∃ rest, bufDrpcTypes buf = .ok (records, rest) := by
  constructor
  · rintro ⟨memory, rfl, fits, split⟩
    rw [bufDrpcTypes, readU64_append fits, ok_bind]
    exact Records.read_all.mpr ⟨rfl, split⟩
  · rintro ⟨rest, run⟩
    obtain ⟨⟨count, memory⟩, read, others⟩ := bind_eq_ok.mp run
    obtain ⟨rfl, fits⟩ := readU64_eq_ok.mp read
    obtain ⟨rfl, split⟩ := Records.read_all.mp ⟨rest, others⟩
    exact ⟨memory, rfl, fits, split⟩

end DynamicRPC
