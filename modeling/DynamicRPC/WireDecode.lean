import DynamicRPC.DecodeArray
import DynamicRPC.StructMap
import DynamicRPC.WireFormat

namespace DynamicRPC
open Outcome LittleEndian

section Decode
variable {unpack : UInt8 → List UInt8 → Outcome Element} {buf : List UInt8}

/-- The body of the loop in `buf_d_struct`. -/
def bufDStructStep (unpack : UInt8 → List UInt8 → Outcome Element) (d : DStruct Element) (t : DrpcType) :
    Outcome (DStruct Element) :=
  if t.type = DrpcTypes.dVoid.toChar then pure d
  else do
    let key ← CString.read t.packedData
    let element ← unpack t.type (t.packedData.drop (key.bytes.length + 1))
    dStructInsert d key element

def insertField (unpack : UInt8 → List UInt8 → Outcome Element) (d : DStruct Element) (field : WireField) :
    Outcome (DStruct Element) := unpack field.type field.value >>= dStructInsert d field.key

theorem bufDStructStep_record {field : WireField} (nonvoid : field.type ≠ DrpcTypes.dVoid.toChar) (d : DStruct Element) :
    bufDStructStep unpack d field.record = insertField unpack d field := by
  have data : field.record.packedData = field.key.bytes ++ 0 :: field.value := by
    simp [WireField.record, CString.block]
  have behind : (field.key.bytes ++ 0 :: field.value).drop (field.key.bytes.length + 1) = field.value := by
    rw [← List.singleton_append, ← List.append_assoc]
    exact List.drop_left' (by simp)
  rw [bufDStructStep, if_neg (by exact nonvoid), data, CString.read_append, ok_bind, behind]
  rfl

/-- The loop skips the `d_void` records and inserts the fields in order. -/
theorem bufDStruct_loop {records : List DrpcType} {fields : List WireField}
    (shape : records.filter (fun t => t.type ≠ DrpcTypes.dVoid.toChar) = fields.map WireField.record)
    (d : DStruct Element) : records.foldlM (bufDStructStep unpack) d = fields.foldlM (insertField unpack) d := by
  induction records generalizing fields d with
  | nil =>
    rw [List.map_eq_nil_iff.mp shape.symm]
    rfl
  | cons t records ih =>
    rw [List.foldlM_cons]
    by_cases void : t.type = DrpcTypes.dVoid.toChar
    · rw [List.filter_cons_of_neg (by simpa using void)] at shape
      rw [bufDStructStep, if_pos void]
      exact ih shape d
    · rw [List.filter_cons_of_pos (by simpa using void)] at shape
      obtain ⟨field, later, rfl, same, shape⟩ := List.map_eq_cons_iff.mp shape.symm
      rw [← same] at void ⊢
      rw [bufDStructStep_record void, List.foldlM_cons]
      exact bind_congr fun next => ih shape.symm next

/-- Where the loop returns, every record that is not `d_void` is a field. -/
theorem bufDStruct_loop_fields {records : List DrpcType} {d : DStruct Element}
    (returns : Returns (records.foldlM (bufDStructStep unpack) d)) :
    ∃ fields : List WireField, records.filter (fun t => t.type ≠ DrpcTypes.dVoid.toChar) = fields.map WireField.record := by
  induction records generalizing d with
  | nil => exact ⟨[], rfl⟩
  | cons t records ih =>
    rw [List.foldlM_cons, returns_bind] at returns
    obtain ⟨next, run, rest⟩ := returns
    obtain ⟨fields, shape⟩ := ih rest
    rw [bufDStructStep] at run
    split at run
    · next void =>
      rw [List.filter_cons_of_neg (by simpa using void)]
      exact ⟨fields, shape⟩
    · next nonvoid =>
      obtain ⟨key, read, -⟩ := bind_eq_ok.mp run
      rw [List.filter_cons_of_pos (by simpa using nonvoid)]
      refine ⟨⟨key, t.type, t.packedData.drop (key.bytes.length + 1)⟩ :: fields, ?_⟩
      rw [List.map_cons, ← shape, WireField.record, ← CString.read_inv read]

/-- The struct that a field table is decoded to: the last field of each name counts. -/
structure LoadedFields (unpack : UInt8 → List UInt8 → Outcome Element) (fields : List WireField)
    (d : DStruct Element) : Prop where
  table : d.hashtable.NeverRemoved
  counted : d.currentLen = fields.length
  lookup : ∀ key, d.hashtable.lookup key = (fields.reverse.find? fun field => field.key = key).map fun field =>
    (unpack field.type field.value).value

namespace LoadedFields
variable {fields : List WireField} {d : DStruct Element}

theorem start : LoadedFields unpack [] newDStruct where
  table := .start
  counted := rfl
  lookup := fun key => by
    rw [newDStruct, Hashtable.lookup, hashtableCreate_bindings]
    rfl

theorem insert (loaded : LoadedFields unpack fields d) {field : WireField}
    (returns : Returns (unpack field.type field.value)) :
    ∃ d', insertField unpack d field = .ok d' ∧ LoadedFields unpack (fields ++ [field]) d' := by
  obtain ⟨e, unpacked⟩ := returns
  obtain ⟨table, run, kept, lookup⟩ := loaded.table.set field.key e
  refine ⟨⟨table, d.currentLen + 1⟩, ?_, kept, ?_, fun key => ?_⟩
  · rw [insertField, unpacked, ok_bind, dStructInsert, run]
    rfl
  · rw [List.length_append, loaded.counted]
    rfl
  · rw [List.reverse_append, List.reverse_singleton, List.singleton_append, List.find?_cons]
    show table.lookup key = _
    rw [lookup]
    by_cases same : field.key = key
    · subst same
      rw [Function.update_self, decide_eq_true rfl]
      dsimp only
      rw [Option.map_some, unpacked]
      rfl
    · rw [Function.update_of_ne (fun equal => same equal.symm), loaded.lookup, decide_eq_false same]

theorem all (each : ∀ field ∈ fields, Returns (unpack field.type field.value)) :
    ∃ d, fields.foldlM (insertField unpack) newDStruct = .ok d ∧ LoadedFields unpack fields d := by
  refine foldlM_invariant (fun past d => LoadedFields unpack past d) [] ?_ start
  intro before next after d shape loaded
  refine loaded.insert (each next ?_)
  rw [← List.nil_append fields, shape]
  exact List.mem_append_right _ List.mem_cons_self

theorem keys (loaded : LoadedFields unpack fields d) {key : CString} :
    key ∈ d.hashtable.keys ↔ key ∈ fields.map WireField.key := by
  rw [← Hashtable.Probed.lookup_isSome, loaded.lookup, Option.isSome_map, List.find?_isSome]
  simp only [List.mem_reverse, decide_eq_true_eq, List.mem_map]

end LoadedFields

/-- `buf_d_struct` of a new struct returns exactly on a field table whose values are read. -/
theorem bufDStructWith_ok_iff {d : DStruct Element} : bufDStructWith unpack buf newDStruct = .ok d ↔
    ∃ fields, FieldTable buf fields ∧ (∀ field ∈ fields, Returns (unpack field.type field.value)) ∧
      fields.foldlM (insertField unpack) newDStruct = .ok d := by
  constructor
  · intro run
    rw [bufDStructWith] at run
    split at run
    · cases run
    · next long =>
      split at run
      · next zero =>
        cases run
        refine ⟨[], ⟨[], ⟨buf.drop 8, ?_, by decide, .none _⟩, rfl⟩, fun field member => absurd member List.not_mem_nil, rfl⟩
        rw [List.length_nil, ← zero, List.take_append_drop]
      · obtain ⟨⟨records, rest⟩, table, run⟩ := bind_eq_ok.mp run
        change records.foldlM (bufDStructStep unpack) newDStruct = .ok d at run
        obtain ⟨fields, shape⟩ := bufDStruct_loop_fields ⟨d, run⟩
        rw [bufDStruct_loop shape] at run
        refine ⟨fields, ⟨records, RecordTable.read_iff.mpr ⟨rest, table⟩, shape⟩, fun field member => ?_, run⟩
        obtain ⟨sofar, inserted⟩ := foldlM_returns_at ⟨d, run⟩ member
        obtain ⟨e, unpacked, -⟩ := returns_bind.mp inserted
        exact ⟨e, unpacked⟩
  · rintro ⟨fields, ⟨records, table, shape⟩, -, run⟩
    obtain ⟨rest, read⟩ := RecordTable.read_iff.mp table
    obtain ⟨memory, rfl, fits, -⟩ := table
    have long : ¬ (u64 records.length ++ memory).length < 8 := by
      rw [List.length_append, u64_length]
      omega
    rw [bufDStructWith, if_neg long]
    split
    · next zero =>
      rw [List.take_left' (u64_length _)] at zero
      have none_there : records = [] := by
        by_contra some_there
        have positive := List.length_pos_iff.mpr some_there
        exact take_eight_ne_zero positive fits [] (by rw [List.append_nil, ← zero, List.take_of_length_le (by simp)])
      rw [← run, ← bufDStruct_loop shape, none_there]
      rfl
    · rw [read, ok_bind]
      exact (bufDStruct_loop shape _).trans run

theorem bufDStructWith_returns_iff : Returns (bufDStructWith unpack buf newDStruct) ↔
    ∃ fields, FieldTable buf fields ∧ ∀ field ∈ fields, Returns (unpack field.type field.value) := by
  constructor
  · rintro ⟨d, run⟩
    obtain ⟨fields, table, each, -⟩ := bufDStructWith_ok_iff.mp run
    exact ⟨fields, table, each⟩
  · rintro ⟨fields, table, each⟩
    obtain ⟨d, run, -⟩ := LoadedFields.all each
    exact ⟨d, bufDStructWith_ok_iff.mpr ⟨fields, table, each, run⟩⟩

theorem bufDQueueWith_returns_iff : Returns (bufDQueueWith unpack buf []) ↔ ∃ records, RecordTable buf records ∧
    ∀ t ∈ records, t.type ≠ DrpcTypes.dVoid.toChar → Returns (unpack t.type t.packedData) := by
  constructor
  · intro returns
    rw [bufDQueueWith, returns_bind] at returns
    obtain ⟨⟨records, rest⟩, table, loop⟩ := returns
    refine ⟨records, RecordTable.read_iff.mpr ⟨rest, table⟩, fun t member nonvoid => ?_⟩
    obtain ⟨sofar, pushed⟩ := foldlM_returns_at loop member
    rw [if_neg nonvoid, returns_bind] at pushed
    obtain ⟨e, unpacked, -⟩ := pushed
    exact ⟨e, unpacked⟩
  · rintro ⟨records, table, each⟩
    obtain ⟨rest, read⟩ := RecordTable.read_iff.mp table
    rw [bufDQueueWith, read, ok_bind]
    refine (foldlM_invariant (fun _ _ => True) [] ?_ trivial).imp fun _ run => run.1
    intro before t after q shape _
    by_cases void : t.type = DrpcTypes.dVoid.toChar
    · exact ⟨q, if_pos void, trivial⟩
    · obtain ⟨e, unpacked⟩ := each t (by
        rw [← List.nil_append records, shape]
        exact List.mem_append_right _ List.mem_cons_self) void
      exact ⟨queuePush q (some e), by rw [if_neg void, unpacked]; rfl, trivial⟩

/-- A loaded struct lists as many names as it counts exactly when no name was repeated. -/
theorem LoadedFields.distinct_iff {fields : List WireField} {d : DStruct Element} (loaded : LoadedFields unpack fields d) :
    d.currentLen ≤ d.hashtable.keys.length ↔ (fields.map WireField.key).Nodup := by
  have nodup := loaded.table.wf.keys_nodup
  have inside : d.hashtable.keys ⊆ fields.map WireField.key := fun key => loaded.keys.mp
  have counted : d.currentLen = (fields.map WireField.key).length := by rw [loaded.counted, List.length_map]
  rw [counted]
  constructor
  · intro many
    exact ((List.subperm_of_subset nodup inside).perm_of_length_le many).nodup_iff.mp nodup
  · intro distinct
    exact (List.subperm_of_subset distinct fun key => loaded.keys.mpr).length_le

/-- A loaded struct never lists more names than it counts. -/
theorem LoadedFields.keys_le {fields : List WireField} {d : DStruct Element} (loaded : LoadedFields unpack fields d) :
    d.hashtable.keys.length ≤ d.currentLen := by
  have inside : d.hashtable.keys ⊆ fields.map WireField.key := fun key => loaded.keys.mp
  have bound := (List.subperm_of_subset loaded.table.wf.keys_nodup inside).length_le
  rw [List.length_map] at bound
  rw [loaded.counted]
  exact bound

theorem LoadedFields.getFields {fields : List WireField} {d : DStruct Element} (loaded : LoadedFields unpack fields d) :
    dStructGetFields d = .ok (d.hashtable.keys.map some ++
      List.replicate (d.currentLen - d.hashtable.keys.length) none) := by
  have bound := loaded.keys_le
  rw [dStructGetFields]
  split
  · next empty =>
    rw [empty] at bound ⊢
    rw [List.eq_nil_of_length_eq_zero (Nat.le_zero.mp bound)]
    rfl
  · rw [if_neg (by omega)]
    rfl

theorem bufDArrayWith_returns_iff : Returns (bufDArrayWith unpack buf) ↔ ∃ fields, FieldTable buf fields ∧
    (∀ field ∈ fields, Returns (unpack field.type field.value)) ∧ (fields.map WireField.key).Nodup ∧
      ∀ field ∈ fields, CString.toSizeT (CString.atol field.key) < fields.length := by
  have settled {fields : List WireField} {d : DStruct Element} (loaded : LoadedFields unpack fields d) :
      (Returns do
        let keys ← dStructGetFields d
        let loop ← bufDArrayLoop d keys (newDArray keys.length, [])
        if loop.2 = [] then pure loop.1 else .error .outside) ↔
      (fields.map WireField.key).Nodup ∧ ∀ field ∈ fields, CString.toSizeT (CString.atol field.key) < fields.length := by
    rw [loaded.getFields, ok_bind]
    by_cases distinct : (fields.map WireField.key).Nodup
    · have full : d.hashtable.keys.length = fields.length := by
        have many := loaded.distinct_iff.mpr distinct
        have few := loaded.keys_le
        rw [loaded.counted] at many few
        omega
      have size := newDArray_lookupSize Element fields.length
      have gets : ∀ key ∈ d.hashtable.keys, Returns (hashtableGet d.hashtable key) := fun key _ =>
        ⟨_, loaded.table.isOpen.get⟩
      obtain ⟨last, loop, clean⟩ := bufDArrayLoop_stray gets (newDArray fields.length, []) (by dsimp only; omega)
      rw [loaded.counted, full, Nat.sub_self, List.replicate_zero, List.append_nil, List.length_map, full, loop, ok_bind]
      dsimp only at clean ⊢
      rw [and_iff_right distinct]
      have within : last.2 = [] ↔ ∀ field ∈ fields, CString.toSizeT (CString.atol field.key) < fields.length := by
        rw [clean, and_iff_right rfl, size]
        constructor
        · intro every field member
          have bound := every field.key (loaded.keys.mpr (List.mem_map_of_mem member))
          have positive := List.length_pos_of_mem member
          omega
        · intro every key member
          obtain ⟨field, listed, rfl⟩ := List.mem_map.mp (loaded.keys.mp member)
          have bound := every field listed
          omega
      rw [← within]
      split
      · next empty => exact iff_of_true (returns_ok _) empty
      · next stray => exact iff_of_false (not_returns_error _) stray
    · refine iff_of_false (fun returns => ?_) fun both => distinct both.1
      obtain ⟨last, loop, -⟩ := returns_bind.mp returns
      have missing : none ∈ d.hashtable.keys.map some ++
          List.replicate (d.currentLen - d.hashtable.keys.length) none := by
        have many := mt loaded.distinct_iff.mp distinct
        refine List.mem_append_right _ (List.mem_replicate.mpr ⟨by omega, rfl⟩)
      obtain ⟨sofar, reached⟩ := foldlM_returns_at ⟨last, loop⟩ missing
      exact not_returns_error _ reached
  constructor
  · intro returns
    obtain ⟨d, run, rest⟩ := returns_bind.mp returns
    obtain ⟨fields, table, each, loop⟩ := bufDStructWith_ok_iff.mp run
    obtain ⟨d', again, loaded⟩ := LoadedFields.all each
    rw [loop] at again
    cases again
    exact ⟨fields, table, each, (settled loaded).mp rest⟩
  · rintro ⟨fields, table, each, indices⟩
    obtain ⟨d, loop, loaded⟩ := LoadedFields.all each
    exact returns_bind.mpr ⟨d, bufDStructWith_ok_iff.mpr ⟨fields, table, each, loop⟩, (settled loaded).mpr indices⟩

end Decode

theorem RecordTable.length_lt {buf : List UInt8} {records : List DrpcType} {t : DrpcType} (table : RecordTable buf records)
    (member : t ∈ records) : t.packedData.length < buf.length := by
  obtain ⟨memory, rfl, -, split⟩ := table
  have bound := split.length_lt member
  rw [List.length_append, u64_length]
  omega

theorem FieldTable.length_lt {buf : List UInt8} {fields : List WireField} {field : WireField} (table : FieldTable buf fields)
    (member : field ∈ fields) : field.value.length < buf.length := by
  obtain ⟨records, whole, shape⟩ := table
  have listed : field.record ∈ records := by
    refine List.mem_of_mem_filter (p := fun t => t.type ≠ DrpcTypes.dVoid.toChar) ?_
    rw [shape]
    exact List.mem_map_of_mem member
  have bound := whole.length_lt listed
  rw [WireField.record, List.length_append, CString.block_length] at bound
  omega

section Containers
variable {unpack : UInt8 → List UInt8 → Outcome Element} {buf : List UInt8} (reads : ∀ type memory,
  memory.length < buf.length → (Returns (unpack type memory) ↔ Whole (.element type) memory))
include reads

theorem bufDStructWith_whole_iff : Returns (bufDStructWith unpack buf newDStruct) ↔ Whole .struct buf := by
  rw [bufDStructWith_returns_iff]
  constructor
  · rintro ⟨fields, table, each⟩
    exact .struct table fun field member => (reads _ _ (table.length_lt member)).mp (each field member)
  · intro whole
    cases whole with
    | @struct _ fields table each =>
      exact ⟨fields, table, fun field member => (reads _ _ (table.length_lt member)).mpr (each field member)⟩

theorem bufDQueueWith_whole_iff : Returns (bufDQueueWith unpack buf []) ↔ Whole .queue buf := by
  rw [bufDQueueWith_returns_iff]
  constructor
  · rintro ⟨records, table, each⟩
    exact .queue table fun t member nonvoid => (reads _ _ (table.length_lt member)).mp (each t member nonvoid)
  · intro whole
    cases whole with
    | @queue _ records table each =>
      exact ⟨records, table, fun t member nonvoid =>
        (reads _ _ (table.length_lt member)).mpr (each t member nonvoid)⟩

theorem bufDArrayWith_whole_iff : Returns (bufDArrayWith unpack buf) ↔ Whole .array buf := by
  rw [bufDArrayWith_returns_iff]
  constructor
  · rintro ⟨fields, table, each, distinct, within⟩
    exact .array table (fun field member => (reads _ _ (table.length_lt member)).mp (each field member)) distinct within
  · intro whole
    cases whole with
    | @array _ fields table each distinct within =>
      exact ⟨fields, table, fun field member => (reads _ _ (table.length_lt member)).mpr (each field member), distinct,
        within⟩

end Containers

/-- An element is read, to any depth that suffices, exactly when its memory is whole. -/
theorem bufElement_returns_iff {depth : Nat} {type : UInt8} {memory : List UInt8} (deep : memory.length < depth) :
    Returns (bufElement depth type memory) ↔ Whole (.element type) memory := by
  induction depth generalizing type memory with
  | zero => cases deep
  | succ depth ih =>
    have inner {t : DrpcType} (record : Records memory [t]) (type : UInt8) (behind : List UInt8)
        (shorter : behind.length < t.packedData.length) :
        Returns (bufElement depth type behind) ↔ Whole (.element type) behind := by
      have bound := record.length_lt List.mem_cons_self
      exact ih (by omega)
    rw [bufElement, returns_bind]
    constructor
    · rintro ⟨⟨t, rest⟩, read, returns⟩
      have record := Records.read_one.mpr ⟨rest, read⟩
      have reads := inner record
      dsimp only at returns
      split_ifs at returns with str sizedbuf array struct queue
      · exact .plain (by rw [str]; decide) (by rw [str]; decide) (by rw [str]; decide) record
      · exact .plain (by rw [sizedbuf]; decide) (by rw [sizedbuf]; decide) (by rw [sizedbuf]; decide) record
      · obtain ⟨a, run, -⟩ := returns_bind.mp returns
        rw [array]
        exact .nestedArray record ((bufDArrayWith_whole_iff reads).mp ⟨a, run⟩)
      · obtain ⟨d, run, -⟩ := returns_bind.mp returns
        rw [struct]
        exact .nestedStruct record ((bufDStructWith_whole_iff reads).mp ⟨d, run⟩)
      · obtain ⟨q, run, -⟩ := returns_bind.mp returns
        rw [queue]
        exact .nestedQueue record ((bufDQueueWith_whole_iff reads).mp ⟨q, run⟩)
      · exact .plain array struct queue record
    · intro whole
      cases whole with
      | plain notArray notStruct notQueue record =>
        obtain ⟨rest, read⟩ := Records.read_one.mp record
        refine ⟨_, read, ?_⟩
        dsimp only
        rw [if_neg notArray, if_neg notStruct, if_neg notQueue]
        split_ifs
        · exact returns_ok _
        · exact returns_ok _
        · exact returns_ok _
      | nestedArray record nested =>
        obtain ⟨rest, read⟩ := Records.read_one.mp record
        obtain ⟨a, run⟩ := (bufDArrayWith_whole_iff (inner record)).mpr nested
        refine ⟨_, read, ?_⟩
        dsimp only
        rw [if_neg (by decide), if_neg (by decide), if_pos rfl, run]
        exact returns_ok _
      | nestedStruct record nested =>
        obtain ⟨rest, read⟩ := Records.read_one.mp record
        obtain ⟨d, run⟩ := (bufDStructWith_whole_iff (inner record)).mpr nested
        refine ⟨_, read, ?_⟩
        dsimp only
        rw [if_neg (by decide), if_neg (by decide), if_neg (by decide), if_pos rfl, run]
        exact returns_ok _
      | nestedQueue record nested =>
        obtain ⟨rest, read⟩ := Records.read_one.mp record
        obtain ⟨q, run⟩ := (bufDQueueWith_whole_iff (inner record)).mpr nested
        refine ⟨_, read, ?_⟩
        dsimp only
        rw [if_neg (by decide), if_neg (by decide), if_neg (by decide), if_neg (by decide), if_pos rfl, run]
        exact returns_ok _

end DynamicRPC
