import DynamicRPC.WireDecode

namespace DynamicRPC
open Outcome LittleEndian

/-- The index that `buf_d_array` makes of a key. -/
def arrayIndex (key : CString) : Nat := CString.toSizeT (CString.atol key)

/-- A buffer whose counts, lengths and NULs hold within it, at every depth. The
keys and the types of its records are anything. -/
inductive Consistent : Part → List UInt8 → Prop
  | plain {type : UInt8} {memory : List UInt8} {t : DrpcType} (notArray : type ≠ DrpcTypes.dArray.toChar)
      (notStruct : type ≠ DrpcTypes.dStruct.toChar) (notQueue : type ≠ DrpcTypes.dQueue.toChar)
      (record : Records memory [t]) (terminated : type = DrpcTypes.dStr.toChar → 0 ∈ t.packedData) :
      Consistent (.element type) memory
  | nestedArray {memory : List UInt8} {t : DrpcType} (record : Records memory [t])
      (inner : Consistent .array t.packedData) : Consistent (.element DrpcTypes.dArray.toChar) memory
  | nestedStruct {memory : List UInt8} {t : DrpcType} (record : Records memory [t])
      (inner : Consistent .struct t.packedData) : Consistent (.element DrpcTypes.dStruct.toChar) memory
  | nestedQueue {memory : List UInt8} {t : DrpcType} (record : Records memory [t])
      (inner : Consistent .queue t.packedData) : Consistent (.element DrpcTypes.dQueue.toChar) memory
  | array {buf : List UInt8} {fields : List WireField} (table : FieldTable buf fields)
      (each : ∀ field ∈ fields, Consistent (.element field.type) field.value) : Consistent .array buf
  | struct {buf : List UInt8} {fields : List WireField} (table : FieldTable buf fields)
      (each : ∀ field ∈ fields, Consistent (.element field.type) field.value) : Consistent .struct buf
  | queue {buf : List UInt8} {records : List DrpcType} (table : RecordTable buf records)
      (each : ∀ t ∈ records, t.type ≠ DrpcTypes.dVoid.toChar → Consistent (.element t.type) t.packedData) :
      Consistent .queue buf

/-- No struct in the buffer repeats a key, and the keys of every array in it are
its first indices, each once. The records of a container are here the ones that
are not `d_void`. -/
inductive Unrepeated : Part → List UInt8 → Prop
  | plain {type : UInt8} {memory : List UInt8} (notArray : type ≠ DrpcTypes.dArray.toChar)
      (notStruct : type ≠ DrpcTypes.dStruct.toChar) (notQueue : type ≠ DrpcTypes.dQueue.toChar) :
      Unrepeated (.element type) memory
  | nestedArray {memory : List UInt8} {t : DrpcType} (record : Records memory [t])
      (inner : Unrepeated .array t.packedData) : Unrepeated (.element DrpcTypes.dArray.toChar) memory
  | nestedStruct {memory : List UInt8} {t : DrpcType} (record : Records memory [t])
      (inner : Unrepeated .struct t.packedData) : Unrepeated (.element DrpcTypes.dStruct.toChar) memory
  | nestedQueue {memory : List UInt8} {t : DrpcType} (record : Records memory [t])
      (inner : Unrepeated .queue t.packedData) : Unrepeated (.element DrpcTypes.dQueue.toChar) memory
  | array {buf : List UInt8} {fields : List WireField} (table : FieldTable buf fields)
      (each : ∀ field ∈ fields, Unrepeated (.element field.type) field.value)
      (distinct : (fields.map fun field => arrayIndex field.key).Nodup)
      (within : ∀ field ∈ fields, arrayIndex field.key < fields.length) : Unrepeated .array buf
  | struct {buf : List UInt8} {fields : List WireField} (table : FieldTable buf fields)
      (each : ∀ field ∈ fields, Unrepeated (.element field.type) field.value)
      (distinct : (fields.map WireField.key).Nodup) : Unrepeated .struct buf
  | queue {buf : List UInt8} {records : List DrpcType} (table : RecordTable buf records)
      (each : ∀ t ∈ records, t.type ≠ DrpcTypes.dVoid.toChar → Unrepeated (.element t.type) t.packedData) :
      Unrepeated .queue buf

/-- Every struct in the element counts its live keys and every array its
occupied indices, in a table whose cells are all written. -/
inductive Element.Counts : Element → Prop
  | packed {type : UInt8} {data : DrpcType} : Counts (.packed type data)
  | str {block : List UInt8} (terminated : 0 ∈ block) : Counts (.str block)
  | sizedbuf {block : List UInt8} : Counts (.sizedbuf block)
  | dstruct {d : DStruct Element} (counted : d.currentLen = d.hashtable.keys.length)
      (fields : ∀ key e, (key, e) ∈ d.hashtable.bindings → Counts e) : Counts (.dstruct d)
  | queue {q : DQueue} (items : ∀ e, some e ∈ q → Counts e) : Counts (.queue q)
  | array {a : DArray Element} (counted : a.realSize = a.elements.length) (initialised : .uninit ∉ a.lookupTable)
      (live : .dangling ∉ a.lookupTable) (items : ∀ e, .elem e ∈ a.lookupTable → Counts e) : Counts (.array a)

theorem Element.Counts.packable {e : Element} (counts : e.Counts) : e.Packable := by
  induction counts with
  | packed => exact .packed
  | str terminated => exact .str terminated
  | sizedbuf => exact .sizedbuf
  | dstruct counted _ ih => exact .dstruct (by rw [counted, Hashtable.keys, List.length_map]) ih
  | queue _ ih => exact .queue ih
  | array _ initialised live _ ih => exact .array initialised live ih

section Unique

theorem Records.unique {memory : List UInt8} {t t' : DrpcType} (record : Records memory [t])
    (record' : Records memory [t']) : t' = t := by
  obtain ⟨rest, read⟩ := Records.read_one.mp record
  obtain ⟨rest', read'⟩ := Records.read_one.mp record'
  rw [read] at read'
  cases read'
  rfl

theorem RecordTable.unique {buf : List UInt8} {records records' : List DrpcType} (table : RecordTable buf records)
    (table' : RecordTable buf records') : records' = records := by
  obtain ⟨rest, read⟩ := RecordTable.read_iff.mp table
  obtain ⟨rest', read'⟩ := RecordTable.read_iff.mp table'
  rw [read] at read'
  cases read'
  rfl

theorem WireField.record_injective : Function.Injective WireField.record := by
  rintro ⟨key, type, value⟩ ⟨key', type', value'⟩ same
  simp only [WireField.record, CString.block, DrpcType.mk.injEq, List.append_assoc, List.singleton_append] at same
  obtain ⟨rfl, data⟩ := same
  have first := CString.read_append key value
  rw [data, CString.read_append] at first
  cases first
  have rest := List.append_cancel_left data
  cases rest
  rfl

/-- A buffer is one field table at most. -/
theorem FieldTable.unique {buf : List UInt8} {fields fields' : List WireField} (table : FieldTable buf fields)
    (table' : FieldTable buf fields') : fields' = fields := by
  obtain ⟨records, whole, shape⟩ := table
  obtain ⟨records', whole', shape'⟩ := table'
  rw [whole.unique whole', shape] at shape'
  exact WireField.record_injective.list_map shape'.symm

end Unique

section Containers
variable {unpack : UInt8 → List UInt8 → Outcome Element} {buf : List UInt8} {fields : List WireField} {d : DStruct Element}

/-- What a loaded struct holds comes from a field. -/
theorem LoadedFields.source (loaded : LoadedFields unpack fields d)
    (each : ∀ field ∈ fields, Returns (unpack field.type field.value)) {key : CString} {e : Element}
    (member : (key, e) ∈ d.hashtable.bindings) :
    ∃ field ∈ fields, field.key = key ∧ unpack field.type field.value = .ok e := by
  have held := loaded.table.wf.lookup_eq_some.mpr member
  rw [loaded.lookup] at held
  obtain ⟨field, found, same⟩ := Option.map_eq_some_iff.mp held
  have listed := List.mem_reverse.mp (List.mem_of_find?_eq_some found)
  obtain ⟨value, unpacked⟩ := each field listed
  rw [unpacked] at same
  refine ⟨field, listed, by simpa using List.find?_some found, ?_⟩
  rw [unpacked]
  exact congrArg Except.ok same

/-- Without repeated keys every field is there. -/
theorem LoadedFields.target (loaded : LoadedFields unpack fields d) (distinct : (fields.map WireField.key).Nodup)
    {field : WireField} {e : Element} (listed : field ∈ fields) (unpacked : unpack field.type field.value = .ok e) :
    (field.key, e) ∈ d.hashtable.bindings := by
  refine loaded.table.wf.lookup_eq_some.mp ?_
  rw [loaded.lookup]
  have there : (fields.reverse.find? fun other => other.key = field.key).isSome := by
    rw [List.find?_isSome]
    exact ⟨field, List.mem_reverse.mpr listed, decide_eq_true rfl⟩
  obtain ⟨other, found⟩ := Option.isSome_iff_exists.mp there
  have inside := List.mem_reverse.mp (List.mem_of_find?_eq_some found)
  have key : other.key = field.key := by simpa using List.find?_some found
  have same : other = field := List.inj_on_of_nodup_map distinct inside listed key
  rw [found, same, Option.map_some, unpacked]
  rfl

theorem LoadedFields.keys_perm (loaded : LoadedFields unpack fields d) (distinct : (fields.map WireField.key).Nodup) :
    d.hashtable.keys.Perm (fields.map WireField.key) := by
  rw [List.perm_ext_iff_of_nodup loaded.table.wf.keys_nodup distinct]
  exact fun key => loaded.keys

/-- The elements of an array with their indices, as the loop of `buf_d_array` finds them. -/
def indexed (d : DStruct Element) : List (Nat × Element) :=
  d.hashtable.bindings.map fun field => (arrayIndex field.1, field.2)

theorem LoadedFields.indexed_within (loaded : LoadedFields unpack fields d)
    (within : ∀ field ∈ fields, arrayIndex field.key < fields.length) :
    ∀ entry ∈ indexed d, entry.1 < fields.length := by
  intro entry member
  obtain ⟨⟨key, e⟩, bound, rfl⟩ := List.mem_map.mp member
  have listed : key ∈ d.hashtable.keys := List.mem_map_of_mem bound
  obtain ⟨field, inside, rfl⟩ := List.mem_map.mp (loaded.keys.mp listed)
  exact within field inside

theorem LoadedFields.indexed_nodup_iff (loaded : LoadedFields unpack fields d)
    (distinct : (fields.map WireField.key).Nodup) :
    ((indexed d).map Prod.fst).Nodup ↔ (fields.map fun field => arrayIndex field.key).Nodup := by
  have first : (indexed d).map Prod.fst = d.hashtable.keys.map arrayIndex := by
    rw [indexed, List.map_map, Hashtable.keys, List.map_map]
    rfl
  have second : (fields.map fun field => arrayIndex field.key) = (fields.map WireField.key).map arrayIndex := by
    rw [List.map_map]
    rfl
  rw [first, second]
  exact ((loaded.keys_perm distinct).map arrayIndex).nodup_iff

/-- The array of a table with different keys below their number. -/
theorem bufDArrayWith_loaded (run : bufDStructWith unpack buf newDStruct = .ok d) (loaded : LoadedFields unpack fields d)
    (distinct : (fields.map WireField.key).Nodup)
    (within : ∀ field ∈ fields, arrayIndex field.key < fields.length) :
    bufDArrayWith unpack buf = .ok ((newDArray fields.length).storeAll (indexed d)) := by
  have count : d.hashtable.keys.length = fields.length := by
    rw [(loaded.keys_perm distinct).length_eq, List.length_map]
  have keys : d.hashtable.keys.map some = d.hashtable.bindings.map fun field => some field.1 := by
    rw [Hashtable.keys, List.map_map]
    rfl
  have room := newDArray_lookupSize Element fields.length
  have gets : ∀ field ∈ d.hashtable.bindings, hashtableGet d.hashtable field.1 = .ok (some field.2) := by
    intro field member
    rw [loaded.table.isOpen.get, loaded.table.wf.lookup_eq_some.mpr member]
  have loop := bufDArrayLoop_within gets (newDArray fields.length) fun field member => by
    have bound := loaded.indexed_within within (arrayIndex field.1, field.2) (List.mem_map_of_mem member)
    unfold arrayIndex at bound
    omega
  rw [bufDArrayWith, run, ok_bind, loaded.getFields, ok_bind, loaded.counted, count, Nat.sub_self, List.replicate_zero,
    List.append_nil, List.length_map, count, keys, loop]
  rfl

theorem bufDQueue_loop {records : List DrpcType} {q q' : DQueue}
    (run : records.foldlM (fun q t => if t.type = DrpcTypes.dVoid.toChar then pure q
      else do
        let element ← unpack t.type t.packedData
        pure (queuePush q (some element))) q = .ok q') :
    (∀ e, some e ∈ q → some e ∈ q') ∧
      (∀ t ∈ records, t.type ≠ DrpcTypes.dVoid.toChar → ∃ e, unpack t.type t.packedData = .ok e ∧ some e ∈ q') ∧
      ∀ e, some e ∈ q' → some e ∈ q ∨
        ∃ t ∈ records, t.type ≠ DrpcTypes.dVoid.toChar ∧ unpack t.type t.packedData = .ok e := by
  induction records generalizing q with
  | nil =>
    cases run
    exact ⟨fun _ => id, fun _ member => absurd member List.not_mem_nil, fun _ => .inl⟩
  | cons t records ih =>
    rw [List.foldlM_cons] at run
    obtain ⟨next, step, rest⟩ := bind_eq_ok.mp run
    obtain ⟨kept, pushed, source⟩ := ih rest
    by_cases void : t.type = DrpcTypes.dVoid.toChar
    · rw [if_pos void] at step
      cases step
      refine ⟨kept, fun other member nonvoid => ?_, fun e held => ?_⟩
      · obtain rfl | later := List.mem_cons.mp member
        · exact absurd void nonvoid
        · exact pushed other later nonvoid
      · exact (source e held).imp_right fun ⟨other, later, found⟩ => ⟨other, List.mem_cons_of_mem _ later, found⟩
    · rw [if_neg void] at step
      obtain ⟨e, unpacked, same⟩ := bind_eq_ok.mp step
      cases same
      refine ⟨fun other held => kept other (List.mem_append_left _ held), fun other member nonvoid => ?_,
        fun other held => ?_⟩
      · obtain rfl | later := List.mem_cons.mp member
        · exact ⟨e, unpacked, kept e (List.mem_append_right _ (List.mem_singleton_self _))⟩
        · exact pushed other later nonvoid
      · obtain before | ⟨other', later, found⟩ := source other held
        · obtain old | new := List.mem_append.mp before
          · exact .inl old
          · cases List.mem_singleton.mp new
            exact .inr ⟨t, List.mem_cons_self, void, unpacked⟩
        · exact .inr ⟨other', List.mem_cons_of_mem _ later, found⟩

/-- What a decoded queue holds are its records that are not `d_void`. -/
theorem bufDQueueWith_records {records : List DrpcType} {q : DQueue} (table : RecordTable buf records)
    (run : bufDQueueWith unpack buf [] = .ok q) :
    (∀ t ∈ records, t.type ≠ DrpcTypes.dVoid.toChar → ∃ e, unpack t.type t.packedData = .ok e ∧ some e ∈ q) ∧
      ∀ e, some e ∈ q → ∃ t ∈ records, t.type ≠ DrpcTypes.dVoid.toChar ∧ unpack t.type t.packedData = .ok e := by
  obtain ⟨rest, read⟩ := RecordTable.read_iff.mp table
  rw [bufDQueueWith, read, ok_bind] at run
  obtain ⟨-, pushed, source⟩ := bufDQueue_loop run
  exact ⟨pushed, fun e held => (source e held).resolve_left List.not_mem_nil⟩

section Reads
variable (reads : ∀ type memory, memory.length < buf.length → Consistent (.element type) memory →
  ((∃ e, unpack type memory = .ok e ∧ e.Counts) ↔ Unrepeated (.element type) memory))
include reads

/-- What is read from bytes that repeat nothing counts. -/
theorem counts_of_unrepeated {type : UInt8} {memory : List UInt8} {e : Element} (shorter : memory.length < buf.length)
    (consistent : Consistent (.element type) memory) (unrepeated : Unrepeated (.element type) memory)
    (unpacked : unpack type memory = .ok e) : e.Counts := by
  obtain ⟨e', unpacked', counts⟩ := (reads type memory shorter consistent).mpr unrepeated
  rw [unpacked] at unpacked'
  cases unpacked'
  exact counts

theorem bufDStructWith_counts_iff (consistent : Consistent .struct buf) :
    (∃ d, bufDStructWith unpack buf newDStruct = .ok d ∧ (Element.dstruct d).Counts) ↔ Unrepeated .struct buf := by
  cases consistent with
  | @struct _ fields table each =>
    constructor
    · rintro ⟨d, run, counts⟩
      obtain ⟨fields', table', returns, loop⟩ := bufDStructWith_ok_iff.mp run
      cases table.unique table'
      obtain ⟨d', again, loaded⟩ := LoadedFields.all returns
      rw [loop] at again
      cases again
      cases counts with
      | dstruct counted items =>
        have distinct := loaded.distinct_iff.mp counted.le
        refine .struct table (fun field member => ?_) distinct
        obtain ⟨e, unpacked⟩ := returns field member
        have counts := items _ _ (loaded.target distinct member unpacked)
        exact (reads _ _ (table.length_lt member) (each field member)).mp ⟨e, unpacked, counts⟩
    · intro unrepeated
      cases unrepeated with
      | @struct _ fields' table' each' distinct =>
        cases table.unique table'
        have returns : ∀ field ∈ fields, Returns (unpack field.type field.value) := fun field member =>
          ((reads _ _ (table.length_lt member) (each field member)).mpr (each' field member)).imp fun _ => And.left
        obtain ⟨d, loop, loaded⟩ := LoadedFields.all returns
        refine ⟨d, bufDStructWith_ok_iff.mpr ⟨fields, table, returns, loop⟩, .dstruct ?_ fun key e member => ?_⟩
        · exact le_antisymm (loaded.distinct_iff.mpr distinct) loaded.keys_le
        · obtain ⟨field, listed, -, unpacked⟩ := loaded.source returns member
          exact counts_of_unrepeated reads (table.length_lt listed) (each field listed) (each' field listed) unpacked

theorem bufDArrayWith_counts_iff (consistent : Consistent .array buf) :
    (∃ a, bufDArrayWith unpack buf = .ok a ∧ (Element.array a).Counts) ↔ Unrepeated .array buf := by
  cases consistent with
  | @array _ fields table each =>
    constructor
    · rintro ⟨a, run, counts⟩
      obtain ⟨fields', table', returns, distinct, within⟩ := bufDArrayWith_returns_iff.mp ⟨a, run⟩
      cases table.unique table'
      obtain ⟨d, loop, loaded⟩ := LoadedFields.all returns
      have built := bufDArrayWith_loaded (bufDStructWith_ok_iff.mpr ⟨fields, table, returns, loop⟩) loaded distinct within
      rw [run] at built
      cases built
      cases counts with
      | array counted initialised live items =>
        have inside := loaded.indexed_within within
        have apart := (newDArray_storeAll_counts inside).mp counted
        refine .array table (fun field member => ?_) ((loaded.indexed_nodup_iff distinct).mp apart) within
        obtain ⟨e, unpacked⟩ := returns field member
        have entry : (arrayIndex field.key, e) ∈ indexed d :=
          List.mem_map_of_mem (f := fun field : CString × Element => (arrayIndex field.1, field.2))
            (loaded.target distinct member unpacked)
        have room : ∀ entry ∈ indexed d, entry.1 < (newDArray fields.length : DArray Element).lookupSize := by
          intro entry listed
          have bound := inside entry listed
          rw [newDArray_lookupSize]
          omega
        have held := (DArray.storeAll_lookup apart room).mpr (Or.inl entry)
        have counts := items e (List.mem_of_getElem? (DArray.lookup_eq_some.mp held))
        exact (reads _ _ (table.length_lt member) (each field member)).mp ⟨e, unpacked, counts⟩
    · intro unrepeated
      cases unrepeated with
      | @array _ fields' table' each' apart within =>
        cases table.unique table'
        have returns : ∀ field ∈ fields, Returns (unpack field.type field.value) := fun field member =>
          ((reads _ _ (table.length_lt member) (each field member)).mpr (each' field member)).imp fun _ => And.left
        have distinct : (fields.map WireField.key).Nodup := by
          refine List.Nodup.of_map arrayIndex ?_
          rw [List.map_map]
          exact apart
        obtain ⟨d, loop, loaded⟩ := LoadedFields.all returns
        have built := bufDArrayWith_loaded (bufDStructWith_ok_iff.mpr ⟨fields, table, returns, loop⟩) loaded distinct within
        have cells : ∀ cell ∈ ((newDArray fields.length).storeAll (indexed d)).lookupTable,
            (∃ entry ∈ indexed d, cell = .elem entry.2) ∨ cell = .null := fun cell member =>
          (DArray.storeAll_cell member).imp_right newDArray_cell
        refine ⟨_, built, .array ?_ (fun member => ?_) (fun member => ?_) fun e member => ?_⟩
        · exact (newDArray_storeAll_counts (loaded.indexed_within within)).mpr ((loaded.indexed_nodup_iff distinct).mpr apart)
        · obtain ⟨_, _, same⟩ | same := cells _ member <;> cases same
        · obtain ⟨_, _, same⟩ | same := cells _ member <;> cases same
        · obtain ⟨entry, listed, same⟩ | same := cells _ member
          · cases same
            obtain ⟨⟨key, e⟩, bound, rfl⟩ := List.mem_map.mp listed
            obtain ⟨field, inside, -, unpacked⟩ := loaded.source returns bound
            exact counts_of_unrepeated reads (table.length_lt inside) (each field inside) (each' field inside) unpacked
          · cases same

theorem bufDQueueWith_counts_iff (consistent : Consistent .queue buf) :
    (∃ q, bufDQueueWith unpack buf [] = .ok q ∧ (Element.queue q).Counts) ↔ Unrepeated .queue buf := by
  cases consistent with
  | @queue _ records table each =>
    constructor
    · rintro ⟨q, run, counts⟩
      refine .queue table fun t member nonvoid => ?_
      obtain ⟨e, unpacked, pushed⟩ := (bufDQueueWith_records table run).1 t member nonvoid
      cases counts with
      | queue items =>
        exact (reads _ _ (table.length_lt member) (each t member nonvoid)).mp ⟨e, unpacked, items e pushed⟩
    · intro unrepeated
      cases unrepeated with
      | @queue _ records' table' each' =>
        cases table.unique table'
        obtain ⟨q, run⟩ := bufDQueueWith_returns_iff.mpr ⟨records, table, fun t member nonvoid =>
          ((reads _ _ (table.length_lt member) (each t member nonvoid)).mpr (each' t member nonvoid)).imp
            fun _ => And.left⟩
        refine ⟨q, run, .queue fun e pushed => ?_⟩
        obtain ⟨t, member, nonvoid, unpacked⟩ := (bufDQueueWith_records table run).2 e pushed
        exact counts_of_unrepeated reads (table.length_lt member) (each t member nonvoid) (each' t member nonvoid)
          unpacked

end Reads

end Containers

theorem exists_counts {α : Type} {x : Outcome α} {wrap : α → Element} :
    (∃ e, (x >>= fun a => pure (wrap a)) = .ok e ∧ e.Counts) ↔ ∃ a, x = .ok a ∧ (wrap a).Counts := by
  constructor
  · rintro ⟨e, run, counts⟩
    obtain ⟨a, same, wrapped⟩ := bind_eq_ok.mp run
    cases wrapped
    exact ⟨a, same, counts⟩
  · rintro ⟨a, rfl, counts⟩
    exact ⟨wrap a, rfl, counts⟩

section Nested
variable {type : UInt8} {memory : List UInt8} {t : DrpcType}

theorem unrepeated_array (array : type = DrpcTypes.dArray.toChar) (record : Records memory [t]) :
    Unrepeated (.element type) memory ↔ Unrepeated .array t.packedData := by
  constructor
  · intro unrepeated
    cases unrepeated with
    | plain notArray => exact absurd array notArray
    | nestedArray record' inner =>
      cases record.unique record'
      exact inner
    | nestedStruct => cases array
    | nestedQueue => cases array
  · intro inner
    rw [array]
    exact .nestedArray record inner

theorem unrepeated_struct (struct : type = DrpcTypes.dStruct.toChar) (record : Records memory [t]) :
    Unrepeated (.element type) memory ↔ Unrepeated .struct t.packedData := by
  constructor
  · intro unrepeated
    cases unrepeated with
    | plain _ notStruct => exact absurd struct notStruct
    | nestedArray => cases struct
    | nestedStruct record' inner =>
      cases record.unique record'
      exact inner
    | nestedQueue => cases struct
  · intro inner
    rw [struct]
    exact .nestedStruct record inner

theorem unrepeated_queue (queue : type = DrpcTypes.dQueue.toChar) (record : Records memory [t]) :
    Unrepeated (.element type) memory ↔ Unrepeated .queue t.packedData := by
  constructor
  · intro unrepeated
    cases unrepeated with
    | plain _ _ notQueue => exact absurd queue notQueue
    | nestedArray => cases queue
    | nestedStruct => cases queue
    | nestedQueue record' inner =>
      cases record.unique record'
      exact inner
  · intro inner
    rw [queue]
    exact .nestedQueue record inner

end Nested

/-- Where lengths and NULs are right, an element comes out counted exactly when
no key in it was repeated. -/
theorem bufElement_counts_iff {depth : Nat} {type : UInt8} {memory : List UInt8} (deep : memory.length < depth)
    (consistent : Consistent (.element type) memory) :
    (∃ e, bufElement depth type memory = .ok e ∧ e.Counts) ↔ Unrepeated (.element type) memory := by
  induction depth generalizing type memory with
  | zero => cases deep
  | succ depth ih =>
    have inner {t : DrpcType} (record : Records memory [t]) (type : UInt8) (behind : List UInt8)
        (shorter : behind.length < t.packedData.length) (consistent : Consistent (.element type) behind) :
        (∃ e, bufElement depth type behind = .ok e ∧ e.Counts) ↔ Unrepeated (.element type) behind := by
      have bound := record.length_lt List.mem_cons_self
      exact ih (by omega) consistent
    cases consistent with
    | plain notArray notStruct notQueue record terminated =>
      refine iff_of_true ?_ (.plain notArray notStruct notQueue)
      obtain ⟨rest, read⟩ := Records.read_one.mp record
      rw [bufElement, read, ok_bind]
      dsimp only
      rw [if_neg notArray, if_neg notStruct, if_neg notQueue]
      split_ifs with str sizedbuf
      · exact ⟨_, rfl, .str (terminated str)⟩
      · exact ⟨_, rfl, .sizedbuf⟩
      · exact ⟨_, rfl, .packed⟩
    | nestedArray record nested =>
      obtain ⟨rest, read⟩ := Records.read_one.mp record
      rw [bufElement, read, ok_bind]
      dsimp only
      rw [if_neg (by decide), if_neg (by decide), if_pos rfl, exists_counts, unrepeated_array rfl record]
      exact bufDArrayWith_counts_iff (inner record) nested
    | nestedStruct record nested =>
      obtain ⟨rest, read⟩ := Records.read_one.mp record
      rw [bufElement, read, ok_bind]
      dsimp only
      rw [if_neg (by decide), if_neg (by decide), if_neg (by decide), if_pos rfl, exists_counts,
        unrepeated_struct rfl record]
      exact bufDStructWith_counts_iff (inner record) nested
    | nestedQueue record nested =>
      obtain ⟨rest, read⟩ := Records.read_one.mp record
      rw [bufElement, read, ok_bind]
      dsimp only
      rw [if_neg (by decide), if_neg (by decide), if_neg (by decide), if_neg (by decide), if_pos rfl, exists_counts,
        unrepeated_queue rfl record]
      exact bufDQueueWith_counts_iff (inner record) nested

/-- A decoded struct that counts its live keys, and all that is nested in it:
its names and its buffer are made of written entries only. -/
structure DStruct.WellCounted (d : DStruct Element) : Prop where
  counted : d.currentLen = d.hashtable.keys.length
  nested : ∀ key e, (key, e) ∈ d.hashtable.bindings → e.Counts
  fields : dStructGetFields d = .ok (d.hashtable.keys.map some)
  buffer : Returns (dStructBuf d)

/-- A decoded array that counts its occupied indices, and all that is nested in it. -/
structure DArray.WellCounted (a : DArray Element) : Prop where
  counted : a.realSize = a.elements.length
  below : ∀ i, (a.lookup i).isSome → i < a.lookupSize
  written : .uninit ∉ a.lookupTable ∧ .dangling ∉ a.lookupTable
  nested : ∀ e, .elem e ∈ a.lookupTable → e.Counts

theorem DStruct.wellCounted_iff {d : DStruct Element} : d.WellCounted ↔ (Element.dstruct d).Counts := by
  constructor
  · exact fun sound => .dstruct sound.counted sound.nested
  · intro counts
    cases counts with
    | dstruct counted nested =>
      have length : d.currentLen = d.hashtable.bindings.length := by rw [counted, Hashtable.keys, List.length_map]
      exact ⟨counted, nested, dStructGetFields_counted length, _,
        dStructBuf_eq length fun key e member => (nested key e member).packable.pack⟩

theorem DArray.wellCounted_iff {a : DArray Element} : a.WellCounted ↔ (Element.array a).Counts := by
  constructor
  · exact fun sound => .array sound.counted sound.written.1 sound.written.2 sound.nested
  · intro counts
    cases counts with
    | array counted initialised live nested =>
      exact ⟨counted, fun i => DArray.lookup_isSome_lt, ⟨initialised, live⟩, nested⟩

/-- What the decoders make of a consistent buffer keeps its counters right if
and only if no key is repeated in it, as a key or as an index, and every index
of an array is below the number of its records that are not `d_void`. -/
theorem decoders_count_iff (buf : List UInt8) :
    (Consistent .struct buf → ((∃ d, bufDStruct buf newDStruct = .ok d ∧ d.WellCounted) ↔ Unrepeated .struct buf)) ∧
      (Consistent .array buf → ((∃ a, bufDArray buf = .ok a ∧ a.WellCounted) ↔ Unrepeated .array buf)) := by
  have reads : ∀ type memory, memory.length < buf.length → Consistent (.element type) memory →
      ((∃ e, bufElement buf.length type memory = .ok e ∧ e.Counts) ↔ Unrepeated (.element type) memory) :=
    fun type memory shorter consistent => bufElement_counts_iff shorter consistent
  constructor
  · intro consistent
    simp only [DStruct.wellCounted_iff]
    exact bufDStructWith_counts_iff reads consistent
  · intro consistent
    simp only [DArray.wellCounted_iff]
    exact bufDArrayWith_counts_iff reads consistent

/-- A number under a key. -/
def numberField (key : CString) : WireField :=
  ⟨key, DrpcTypes.dInt8.toChar, drpcBuf ⟨DrpcTypes.dInt8.toChar, [5]⟩⟩

/-- The buffer of two numbers. -/
def numbersBuf (first second : CString) : List UInt8 :=
  drpcTypesBuf [(numberField first).record, (numberField second).record]

theorem numberField_record (key : CString) :
    Records (numberField key).value [⟨DrpcTypes.dInt8.toChar, [5]⟩] :=
  Records.read_one.mpr ⟨[], rfl⟩

theorem numbersBuf_table {first second : CString} (fits : (numbersBuf first second).length < 2 ^ 64) :
    FieldTable (numbersBuf first second) [numberField first, numberField second] := by
  refine ⟨[(numberField first).record, (numberField second).record], RecordTable.read_iff.mpr ⟨[], ?_⟩, rfl⟩
  have voidEmpty : ∀ t ∈ [(numberField first).record, (numberField second).record], t.VoidEmpty := by
    have number (key : CString) : (numberField key).record.VoidEmpty := .of_ne (by
      show DrpcTypes.dInt8.toChar ≠ DrpcTypes.dVoid.toChar
      decide)
    simp only [List.mem_cons, List.not_mem_nil, or_false, forall_eq_or_imp, forall_eq]
    exact ⟨number first, number second⟩
  have read := bufDrpcTypes_drpcTypesBuf voidEmpty fits []
  rwa [List.append_nil] at read

theorem numberField_plain (key : CString) : Consistent (.element (numberField key).type) (numberField key).value ∧
    Unrepeated (.element (numberField key).type) (numberField key).value := by
  have number : (numberField key).type = DrpcTypes.dInt8.toChar := rfl
  have notArray : (numberField key).type ≠ DrpcTypes.dArray.toChar := by rw [number]; decide
  have notStruct : (numberField key).type ≠ DrpcTypes.dStruct.toChar := by rw [number]; decide
  have notQueue : (numberField key).type ≠ DrpcTypes.dQueue.toChar := by rw [number]; decide
  have notStr : (numberField key).type ≠ DrpcTypes.dStr.toChar := by rw [number]; decide
  exact ⟨.plain notArray notStruct notQueue (numberField_record key) fun str => absurd str notStr,
    .plain notArray notStruct notQueue⟩

theorem numbersBuf_each {first second : CString} : ∀ field ∈ [numberField first, numberField second],
    Consistent (.element field.type) field.value ∧ Unrepeated (.element field.type) field.value := by
  intro field member
  simp only [List.mem_cons, List.not_mem_nil, or_false] at member
  obtain rfl | rfl := member <;> exact numberField_plain _

theorem decoders_count_iff_numbers :
    (∃ d, bufDStruct (numbersBuf (.ofString "1") (.ofString "0")) newDStruct = .ok d ∧ d.WellCounted) ∧
      ∃ a, bufDArray (numbersBuf (.ofString "1") (.ofString "0")) = .ok a ∧ a.WellCounted := by
  obtain ⟨structs, arrays⟩ := decoders_count_iff (numbersBuf (.ofString "1") (.ofString "0"))
  have table := numbersBuf_table (show (numbersBuf (.ofString "1") (.ofString "0")).length < 2 ^ 64 by decide)
  refine ⟨(structs (.struct table fun field member => (numbersBuf_each field member).1)).mpr ?_,
    (arrays (.array table fun field member => (numbersBuf_each field member).1)).mpr ?_⟩
  · exact .struct table (fun field member => (numbersBuf_each field member).2) (by decide)
  · exact .array table (fun field member => (numbersBuf_each field member).2) (by decide) (by decide)

/-- A struct with a repeated key counts it twice. -/
theorem bufDStruct_repeated : Consistent .struct (numbersBuf (.ofString "a") (.ofString "a")) ∧
    (bufDStruct (numbersBuf (.ofString "a") (.ofString "a")) newDStruct).map
      (fun d => (d.currentLen, d.hashtable.keys.length)) = .ok (2, 1) := by
  have table := numbersBuf_table (show (numbersBuf (.ofString "a") (.ofString "a")).length < 2 ^ 64 by decide)
  exact ⟨.struct table fun field member => (numbersBuf_each field member).1, by decide +kernel⟩

end DynamicRPC
